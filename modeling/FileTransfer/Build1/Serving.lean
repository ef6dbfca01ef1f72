import FileTransfer.Build1.Client

/-!
# A thread of the server as a program

`TcpThread::run` on a connection of its own: the same steps as in `Threads`, on the bytes that come over the
connection.  For every command there is the script that it keeps to.
-/

namespace FileTransfer
namespace Build1

open Conversation Listing

/-! ## The program -/

/-- A thread with what it uses of the server; `mem` is what the record of the function called holds, and
`removeFails` the result of `remove`. -/
structure Serving where
  pc : Pc
  szbuffer : List Byte
  dir : Directory
  mem : Fileinfo
  removeFails : Bool

/-- Outside the loop that receives a file a `recv` returns all that has come. -/
def Handler.whole : Handler → Bool
  | .getFile (.data _ _ _) => false
  | _ => true

namespace Serving

variable (s : Serving)

def goto (pc : Pc) : Serving := { s with pc := pc }

/-- The next step of a function that serves a command. -/
def handlerMove (c : Command) (sock : Nat) (h : Handler) : Move Serving Byte :=
  match h.action s.removeFails s.dir with
  | .recv want next => .recv h.whole want fun got =>
      { s with
        pc := .handler c sock (next s.dir got).1
        dir := (next s.dir got).2 }
  | .send data next => .send data (s.goto (.handler c sock next))
  | .closesocket => .close (s.goto (.handler c sock .returned))
  | .leave => .go (s.goto c.next)
  | .undefined => .stop

/-- What the thread does next. -/
def move : Move Serving Byte :=
  match s.pc with
  | .memset => .go ({ s with szbuffer := List.replicate requestLength 0 }.goto .recv)
  | .recv => .recv true requestLength fun got =>
      { s with szbuffer := got ++ s.szbuffer.drop got.length }.goto (.compare .list)
  | .compare c =>
      .go (s.goto (if cstr s.szbuffer = c.text then (if c = .list then .call c else .reply c) else c.next))
  | .reply c => .send s.szbuffer (s.goto (.call c))
  | .call c => .go (s.goto (.handler c 0 (c.handler s.dir s.mem)))
  | .handler c sock h => s.handlerMove c sock h
  | .returned => .stop

end Serving

/-! ## The command -/

namespace Serving

variable {s : Serving} {F : Serving → Prop} {d : Bool} {w : Script Byte} {c : Command}

/-- The `strcmp` calls before the command that has come. -/
theorem plays_compare (htext : cstr s.szbuffer = c.text)
    (h : Plays move F .server ⟨d, s.goto (if c = .list then .call c else .reply c), w⟩) :
    Plays move F .server ⟨d, s.goto (.compare .list), w⟩ := by
  have hgo : ∀ c', Plays move F .server ⟨d, s.goto (if c.text = c'.text then
      (if c' = .list then .call c' else .reply c') else c'.next), w⟩ →
      Plays move F .server ⟨d, s.goto (.compare c'), w⟩ := by
    intro c' h'
    refine .go rfl ?_
    rw [← htext] at h'
    exact h'
  cases c with
  | list => exact hgo .list h
  | get => exact hgo .list (hgo .get h)
  | put => exact hgo .list (hgo .get (hgo .put h))
  | delete => exact hgo .list (hgo .get (hgo .put (hgo .delete h)))

/-- The `strcmp` calls behind it. -/
theorem plays_next (htext : cstr s.szbuffer = c.text)
    (hF : F (s.goto .returned)) (hw : ∀ u ∈ w, u.1 = .client) :
    Plays move F .server ⟨d, s.goto c.next, w⟩ := by
  have hend : Plays move F .server ⟨d, s.goto .returned, w⟩ := .stops rfl hF hw
  have hgo : ∀ c', c.text ≠ c'.text → Plays move F .server ⟨d, s.goto c'.next, w⟩ →
      Plays move F .server ⟨d, s.goto (.compare c'), w⟩ := by
    intro c' hne h'
    refine .go rfl ?_
    have hother : ¬ cstr (s.goto (.compare c')).szbuffer = c'.text := by
      change ¬ cstr s.szbuffer = c'.text
      rwa [htext]
    rw [if_neg hother]
    exact h'
  cases c with
  | list => exact hgo .get (by decide) (hgo .put (by decide) (hgo .delete (by decide) hend))
  | get => exact hgo .put (by decide) (hgo .delete (by decide) hend)
  | put => exact hgo .delete (by decide) hend
  | delete => exact hend

/-- The thread receives the command and calls its function. -/
theorem plays_request {l buf : List Byte} (hbuf : buf = l ++ (List.replicate requestLength 0).drop l.length)
    (htext : cstr buf = c.text) (hl : l ≠ []) (hle : l.length ≤ requestLength)
    (hnext : l.length = requestLength ∨ Pauses .server w)
    (h : Plays move F .server ⟨false, { s with szbuffer := buf }.goto
      (if c = Command.list then .call c else .reply c), w⟩) :
    Plays move F .server ⟨false, s.goto .memset, (.client, .message l) :: w⟩ := by
  refine .go rfl (.hear requestLength rfl hl hle hnext ?_)
  subst hbuf
  exact plays_compare (s := { s with szbuffer := _ }) htext h

/-! ## The functions -/

/-- A function that closes its socket returns, and the thread with it. -/
theorem plays_closing {h : Handler} (hclose : h.action s.removeFails s.dir = .closesocket)
    (htext : cstr s.szbuffer = c.text) (hF : F (s.goto .returned)) :
    Plays move F .server ⟨d, s.goto (.handler c 0 h), [(.server, .close)]⟩ := by
  have hmove : move (s.goto (.handler c 0 h)) = .close (s.goto (.handler c 0 .returned)) := by
    simp only [move, goto, handlerMove, hclose]
  exact .close hmove (.go rfl (plays_next htext hF (by simp)))

/-- `listFiles` -/
theorem plays_listFiles (names : List (List Byte)) (htext : cstr s.szbuffer = Command.list.text)
    (hF : F (s.goto .returned)) :
    Plays move F .server ⟨d, s.goto (.handler .list 0 (.listFiles names)),
      (listFiles names).map fun l => (.server, .message l)⟩ := by
  induction names with
  | nil => exact .send rfl (.go rfl (plays_next htext hF (by simp)))
  | cons name names ih => exact .send rfl ih

/-- The loop of `PutFileToClient`. -/
theorem plays_putData {name content : List Byte} (hfind : s.dir.content name = some content)
    (hpart : bufferLength ∣ content.length → content = [])
    (h : ∀ sizeleft < 0, Plays move F .server ⟨d, s.goto (.handler c 0 (.putClosed sizeleft)), w⟩) :
    Plays move F .server ⟨d, s.goto (.handler c 0 (.putData name content.length 0)),
      andThen .server content w⟩ := by
  have hloop : Plays move F .server ⟨d, s.goto (.handler c 0 (.putData name content.length
      (content.length - content.length))), andThen .server content w⟩ :=
    Plays.sends
      (fun rest => s.goto (.handler c 0 (.putData name rest.length (content.length - rest.length))))
      (fun rest => s.goto (.handler c 0 (.putClosed (rest.length - bufferLength)))) bufferLength ?_ ?_
      (by decide) hpart fun rest hlt => h _ (by omega)
  · rwa [Nat.sub_self] at hloop
  · intro rest hsuffix hlong
    have hrest : content.drop (content.length - rest.length) = rest := (List.suffix_iff_eq_drop.1 hsuffix).symm
    have hoffset : content.length - (rest.drop bufferLength).length =
        content.length - rest.length + bufferLength := by
      have hle := hsuffix.length_le
      rw [List.length_drop]
      omega
    have hleft : ((rest.drop bufferLength).length : Int) = rest.length - bufferLength := by
      rw [List.length_drop]
      omega
    simp only [move, goto, handlerMove, Handler.action, hfind, Option.getD_some, hrest, hoffset, hleft]
    rw [if_pos (Int.ofNat_lt.2 hlong)]
  · intro rest hsuffix hle
    have hrest : content.drop (content.length - rest.length) = rest := (List.suffix_iff_eq_drop.1 hsuffix).symm
    have hshort : ¬ (bufferLength : Int) < rest.length := by omega
    simp only [move, goto, handlerMove, Handler.action, hfind, Option.getD_some, hrest, if_neg hshort,
      Int.toNat_natCast, List.take_length]

/-! ## The four commands -/

section Commands

variable (s) (c : Client) {name : FileName} {content : List Byte}

/-- The thread has returned with this directory. -/
def ended (op : Op) (dir : Directory) : Serving where
  pc := .returned
  szbuffer := c.szbuffer op
  dir := dir
  mem := s.mem
  removeFails := s.removeFails

/-- It repeats the command. -/
theorem plays_echo (op : Op) (hop : op.command ≠ .list)
    (h : Plays move F .server ⟨false, { s with szbuffer := c.szbuffer op }.goto (.call op.command), w⟩) :
    Plays move F .server ⟨false, s.goto .memset,
      (.client, .message (c.head op)) :: (.server, .message (c.szbuffer op)) :: w⟩ := by
  refine plays_request rfl (c.cstr_szbuffer op) (c.head_ne_nil op)
    ((c.length_head op).trans_le op.headLength_le) (.inr rfl) ?_
  rw [if_neg hop]
  exact .send rfl h

theorem plays_list :
    Plays move (· = s.ended c .list s.dir) .server ⟨false, s.goto .memset,
      (.client, .message (c.head .list)) ::
        (listFiles s.dir.listed).map fun l => (.server, .message l)⟩ := by
  have hpause : Pauses Side.server ((listFiles s.dir.listed).map fun l =>
      (Side.server, Word.message l)) := by
    cases s.dir.listed <;> exact rfl
  refine plays_request (c := .list) rfl (c.cstr_szbuffer .list) (c.head_ne_nil .list)
    ((c.length_head .list).trans_le (Op.headLength_le _)) (.inr hpause) (.go rfl ?_)
  exact plays_listFiles (s := { s with szbuffer := c.szbuffer .list }) (d := false)
    (F := (· = s.ended c .list s.dir)) s.dir.listed (c.cstr_szbuffer .list) rfl

/-- The name that arrives in `PutFileToClient`. -/
theorem cstr_name (name : FileName) :
    cstr (charArray filenameLength (c.array filenameLength name.chars)) = name.chars := by
  have hlen := c.length_array name.short
  have hsame : charArray filenameLength (c.array filenameLength name.chars) =
      c.array filenameLength name.chars := List.take_left' hlen
  rw [hsame, c.cstr_array name.isText]

/-- The record that announces a file to the client. -/
def serverfile (name : FileName) (content : List Byte) : Fileinfo where
  filename := charArray filenameLength name.chars
  length_eq := length_charArray _ _
  filelenth := UInt32.ofNat content.length

/-- The text for a file that is not there. -/
def noSuchFile : List Byte := [78, 111, 32, 115, 117, 99, 104, 32, 97, 32, 102, 105, 108, 101]

/-- It receives a name. -/
theorem plays_putName (hname : Plays move F .server ⟨false,
      s.goto (.handler .get 0 (.putHead name.chars)), w⟩) :
    Plays move F .server ⟨false, s.goto (.handler .get 0 .putName),
      (.client, .message (c.array filenameLength name.chars)) :: w⟩ := by
  have hlen := c.length_array name.short
  refine .hear filenameLength rfl (ne_nil_of_length hlen) hlen.le (.inl hlen) ?_
  rw [← cstr_name c name] at hname
  exact hname

theorem plays_get (hfind : s.dir.content name.chars = some content) (hsent : SentOnce content) :
    Plays move (· = s.ended c (.get name) s.dir) .server ⟨false, s.goto .memset,
      (.client, .message (c.head (.get name))) :: (.server, .message (c.szbuffer (.get name))) ::
        (.client, .message (c.array filenameLength name.chars)) ::
        (.server, .message (serverfile name content).toBytes) ::
        andThen .server content [(.server, .close)]⟩ := by
  refine s.plays_echo c (.get name) (by simp [Op.command]) (.go rfl (plays_putName _ c ?_))
  have hlong : toLong content.length = content.length := toLong_eq_self hsent.1
  have hmove : move ({ s with szbuffer := c.szbuffer (.get name) }.goto
      (.handler .get 0 (.putHead name.chars))) = .send (serverfile name content).toBytes
        ({ s with szbuffer := c.szbuffer (.get name) }.goto
          (.handler .get 0 (.putData name.chars content.length 0))) := by
    simp only [move, goto, handlerMove, Handler.action, Handler.putHeadAction, hfind, hlong,
      Int.natCast_nonneg, if_pos]
    rfl
  refine .send hmove ?_
  refine plays_putData (s := { s with szbuffer := c.szbuffer (.get name) }) hfind hsent.2
    fun sizeleft hneg => ?_
  exact plays_closing (s := { s with szbuffer := c.szbuffer (.get name) }) (if_neg (Int.not_le.2 hneg))
    (c.cstr_szbuffer (.get name)) rfl

theorem plays_get_missing (hfind : s.dir.content name.chars = none) :
    Plays move (· = s.ended c (.get name) s.dir) .server ⟨false, s.goto .memset,
      [(.client, .message (c.head (.get name))), (.server, .message (c.szbuffer (.get name))),
        (.client, .message (c.array filenameLength name.chars)),
        (.server, .message (charArray filenameLength noSuchFile)), (.server, .close)]⟩ := by
  refine s.plays_echo c (.get name) (by simp [Op.command]) (.go rfl (plays_putName _ c ?_))
  have hmove : move ({ s with szbuffer := c.szbuffer (.get name) }.goto
      (.handler .get 0 (.putHead name.chars))) = .send (charArray filenameLength noSuchFile)
        ({ s with szbuffer := c.szbuffer (.get name) }.goto (.handler .get 0 .closing)) := by
    simp only [move, goto, handlerMove, Handler.action, Handler.putHeadAction, hfind]
    rfl
  exact .send hmove (plays_closing rfl (c.cstr_szbuffer _) rfl)

/-- The loop of `GetFileFromClient`. -/
theorem plays_getData {r : Fileinfo} (htext : cstr s.szbuffer = Command.put.text)
    (hname : cstr r.filename = name.chars) (hsize : longOfWord r.filelenth = content.length)
    (hF : F { s with pc := .returned, dir := s.dir.write name.chars content }) :
    Plays move F .server ⟨false, { s with
        pc := .handler .put 0 (.getFile (.data r (longOfWord r.filelenth) []))
        dir := s.dir.write name.chars [] },
      andThen .client content [(.server, .close)]⟩ := by
  let rcv := fun done : List Byte => ({ s with
    pc := .handler .put 0 (.getFile (.data r (content.length - done.length) done))
    dir := s.dir.write name.chars done } : Serving)
  have hstart : ({ s with
      pc := .handler .put 0 (.getFile (.data r (longOfWord r.filelenth) []))
      dir := s.dir.write name.chars [] } : Serving) = rcv [] := by
    rw [hsize]
    simp [rcv]
  rw [hstart]
  refine Plays.takes (.inl rfl) ?_ ?_
  · intro done rest hall hrest
    have hleft : (content.length : Int) - done.length = rest.length := by
      rw [← hall, List.length_append]
      omega
    have hpos : 0 < rest.length := List.length_pos_iff.2 hrest
    have hopen : (GetFile.data r (content.length - done.length) done).finished = none :=
      if_neg (by omega)
    have hmove : move (rcv done) = .recv false (GetFile.data r (content.length - done.length) done).want
        fun got => { s with
          pc := .handler .put 0 (.getFile (.data r (content.length - done.length - got.length) (done ++ got)))
          dir := (s.dir.write name.chars done).write (cstr r.filename) (done ++ got) } := by
      simp only [move, rcv, handlerMove, Handler.action, hopen]
      rfl
    refine ⟨_, _, GetFile.want_pos hopen, hmove, ?_⟩
    intro n _ hn
    have hgot : (rest.take n).length = n := List.length_take_of_le hn
    simp only [rcv, hgot, hname, Directory.write_write, List.length_append]
    rw [Int.sub_sub, Int.natCast_add]
  · have hdone : (GetFile.data r (content.length - content.length) content).finished =
        some ⟨cstr r.filename, longOfWord r.filelenth, content⟩ := if_pos (by omega)
    have hmove : move (rcv content) = .close { s with
        pc := .handler .put 0 .returned
        dir := s.dir.write name.chars content } := by
      simp only [move, rcv, handlerMove, Handler.action, hdone]
      rfl
    exact .close hmove (.go rfl (plays_next (s := { s with dir := s.dir.write name.chars content }) htext hF
      (by simp)))

theorem plays_put {r : Fileinfo} (hname : cstr r.filename = name.chars)
    (hsize : longOfWord r.filelenth = content.length) :
    Plays move (· = s.ended c (.put name) (s.dir.write name.chars content)) .server
      ⟨false, s.goto .memset,
        (.client, .message (c.head (.put name))) :: (.server, .message (c.szbuffer (.put name))) ::
          (.client, .message r.toBytes) :: andThen .client content [(.server, .close)]⟩ := by
  have hrecord := r.length_toBytes
  refine s.plays_echo c (.put name) (by simp [Op.command]) (.go rfl ?_)
  refine .hear sizeofFileinfo rfl (ne_nil_of_length hrecord) hrecord.le (.inl hrecord) ?_
  have hdata := plays_getData { s with szbuffer := c.szbuffer (.put name) } (c.cstr_szbuffer (.put name))
    hname hsize (F := (· = s.ended c (.put name) (s.dir.write name.chars content))) rfl
  have htake : (GetFile.record s.mem).take r.toBytes = .data r (longOfWord r.filelenth) [] := by
    simp only [GetFile.take, Fileinfo.overlay_toBytes]
  simp only [goto, htake, hname]
  exact hdata

/-- Without a record `GetFileFromClient` waits for one. -/
theorem plays_put_missing :
    Plays move (· = { s with
        pc := .handler .put 0 (.getFile (.record s.mem))
        szbuffer := c.szbuffer (.put name) }) .server
      ⟨false, s.goto .memset,
        [(.client, .message (c.head (.put name))), (.server, .message (c.szbuffer (.put name)))]⟩ := by
  refine s.plays_echo c (.put name) (by simp [Op.command]) (.go rfl ?_)
  exact .waits rfl rfl

/-- How `DeleteServerFiles` goes on when it has received the record. -/
def afterDeleteName (name : List Byte) : Handler × Directory :=
  match s.dir.content name with
  | some _ =>
      if s.removeFails then (.returned, s.dir)
      else (.deleteReply ((charArray filenameLength name).take 4), s.dir.remove name)
  | none => (.deleteReply (charArray filenameLength []), s.dir)

theorem plays_deleteName {h : Handler} {dir : Directory}
    (hafter : s.afterDeleteName name.chars = (h, dir))
    (hnext : Plays move F .server ⟨false, { s with
      pc := .handler .delete 0 h
      szbuffer := c.szbuffer (.delete name)
      dir := dir }, w⟩) :
    Plays move F .server ⟨false, s.goto .memset,
      (.client, .message (c.head (.delete name))) :: (.server, .message (c.szbuffer (.delete name))) ::
        (.client, .message (c.deleteRecord name).toBytes) :: w⟩ := by
  have hrecord := (c.deleteRecord name).length_toBytes
  have hname : cstr (s.mem.overlay (c.deleteRecord name).toBytes).filename = name.chars := by
    rw [Fileinfo.overlay_toBytes, c.cstr_deleteRecord]
  have hmove : move ({ s with szbuffer := c.szbuffer (.delete name) }.goto
      (.handler .delete 0 (.deleteName s.mem))) = .recv true sizeofFileinfo fun got => { s with
        pc := .handler .delete 0
          (s.afterDeleteName (cstr (s.mem.overlay got).filename)).1
        szbuffer := c.szbuffer (.delete name)
        dir := (s.afterDeleteName (cstr (s.mem.overlay got).filename)).2 } :=
    rfl
  refine s.plays_echo c (.delete name) (by simp [Op.command]) (.go rfl ?_)
  refine .hear sizeofFileinfo hmove (ne_nil_of_length hrecord) hrecord.le (.inl hrecord) ?_
  rw [hname, hafter]
  exact hnext

theorem plays_delete (hfind : s.dir.content name.chars = some content) (hremove : s.removeFails = false) :
    Plays move (· = s.ended c (.delete name) (s.dir.remove name.chars)) .server ⟨false, s.goto .memset,
      [(.client, .message (c.head (.delete name))), (.server, .message (c.szbuffer (.delete name))),
        (.client, .message (c.deleteRecord name).toBytes),
        (.server, .message ((charArray filenameLength name.chars).take 4)), (.server, .close)]⟩ := by
  have hafter : s.afterDeleteName name.chars =
      (.deleteReply ((charArray filenameLength name.chars).take 4), s.dir.remove name.chars) := by
    rw [afterDeleteName, hfind]
    exact if_neg (by simp [hremove])
  exact plays_deleteName s c hafter (.send rfl (plays_closing (s := { s with
    szbuffer := c.szbuffer (.delete name)
    dir := s.dir.remove name.chars }) rfl (c.cstr_szbuffer (.delete name)) rfl))

theorem plays_delete_missing (hfind : s.dir.content name.chars = none) :
    Plays move (· = s.ended c (.delete name) s.dir) .server ⟨false, s.goto .memset,
      [(.client, .message (c.head (.delete name))), (.server, .message (c.szbuffer (.delete name))),
        (.client, .message (c.deleteRecord name).toBytes),
        (.server, .message (charArray filenameLength [])), (.server, .close)]⟩ := by
  have hafter : s.afterDeleteName name.chars = (.deleteReply (charArray filenameLength []), s.dir) := by
    rw [afterDeleteName, hfind]
  exact plays_deleteName s c hafter (.send rfl (plays_closing
    (s := { s with szbuffer := c.szbuffer (.delete name) }) rfl (c.cstr_szbuffer (.delete name)) rfl))

/-- When `remove` fails nothing is answered. -/
theorem plays_delete_failed (hfind : s.dir.content name.chars = some content)
    (hremove : s.removeFails = true) :
    Plays move (· = s.ended c (.delete name) s.dir) .server ⟨false, s.goto .memset,
      [(.client, .message (c.head (.delete name))), (.server, .message (c.szbuffer (.delete name))),
        (.client, .message (c.deleteRecord name).toBytes)]⟩ := by
  have hafter : s.afterDeleteName name.chars = (.returned, s.dir) := by
    rw [afterDeleteName, hfind]
    exact if_pos hremove
  exact plays_deleteName s c hafter (.go rfl (plays_next
    (s := { s with szbuffer := c.szbuffer (.delete name) }) (c.cstr_szbuffer (.delete name)) rfl (by simp)))

end Commands

end Serving

end Build1
end FileTransfer
