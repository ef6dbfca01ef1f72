import FileTransfer.Lib.Conversation
import FileTransfer.Listing

/-!
# The client of the threaded build (`Client/TcpClient.cpp`)

The four functions of `TcpClient` that use a connection, as one program: it sends a command, and goes on with what
the server answers.  Outside the loop that receives a file a `recv` returns all that has come.
-/

namespace FileTransfer
namespace Build1

open Conversation Listing

/-! ## The program -/

/-- The functions of the menu that use a connection, with the file name that is typed in. -/
inductive Op where
  | list
  | get (name : FileName)
  | put (name : FileName)
  | delete (name : FileName)

/-- What the user is told. -/
inductive Report where
  | fileName (listbuffer : List Byte)
  | downloaded
  | noFileOnServer
  | uploaded
  | noFileHere
  | deleted
  | notExist
  deriving DecidableEq

/-- Where the client stands. -/
inductive ClientAt where
  /-- before the `send` of the command -/
  | command (op : Op)
  /-- at the head of the loop of `listServerFiles` -/
  | list (listbuffer : List Byte)
  | listRecv (listbuffer : List Byte)
  /-- before the `recv` of the repeated command -/
  | getEcho (name : FileName)
  | getName (name : FileName)
  | getRecord (name : FileName)
  /-- at the head of the loop of `GetFileFromServer` -/
  | getData (clientfilename : Fileinfo) (fsize : Int) (written : List Byte)
  | putEcho (name : FileName)
  /-- before `_stat` -/
  | putFile (name : FileName)
  /-- before the `send` of the record -/
  | putRecord (name : FileName) (content : List Byte)
  /-- at the head of the loop of `PutFileToServer` -/
  | putData (sizeleft : Int) (rest : List Byte)
  /-- at the head of that loop behind its `fclose` -/
  | putClosed (sizeleft : Int)
  | deleteEcho (name : FileName)
  | deleteName (name : FileName)
  | deleteAnswer (name : FileName)
  /-- before the second `recv` of `deleteServerFiles` -/
  | deleteMissing
  | returned

/-- The client.  `stack` is what its arrays hold before they are written. -/
structure Client where
  «at» : ClientAt
  dir : Directory
  stack : List Byte
  reports : List Report

namespace Client

variable (c : Client)

def goto (x : ClientAt) : Client := { c with «at» := x }

def report (r : Report) : Client := { c with reports := c.reports ++ [r] }

/-- A character array into which this text was copied. -/
def array (size : Nat) (text : List Byte) : List Byte := strcpy (charArray size c.stack) text

/-- The record on the stack. -/
def record : Fileinfo := .ofBytes c.stack

/-- The record `deleteServerFiles` sends. -/
def deleteRecord (name : FileName) : Fileinfo where
  filename := strcpy c.record.filename name.chars
  length_eq := by
    rw [length_strcpy (by rw [c.record.length_eq]; exact name.short), c.record.length_eq]
  filelenth := c.record.filelenth

/-- The length of `head` in `PutFileToServer`. -/
def putHeadLength : Nat := 20

/-- What the functions send first. -/
def head : Op → List Byte
  | .list => Command.list.text
  | .get _ => c.array requestLength Command.get.text
  | .put _ => c.array putHeadLength Command.put.text
  | .delete _ => c.array requestLength Command.delete.text

/-- The `listbuffer` of `listServerFiles` before its loop. -/
def listbuffer : List Byte := 0 :: (c.array filenameLength Command.list.text).drop 1

/-- How a function goes on behind its command. -/
def afterCommand : Op → ClientAt
  | .list => .list c.listbuffer
  | .get name => .getEcho name
  | .put name => .putEcho name
  | .delete name => .deleteEcho name

/-- `listServerFiles` has received into its buffer. -/
def afterListRecv (listbuffer : List Byte) : Client :=
  c.goto (if listbuffer.take 1 = [endMark] then .returned else .list listbuffer)

/-- `GetFileFromServer` has received the answer. -/
def afterGetRecord (name : FileName) (clientfilename : Fileinfo) : Client :=
  if cstr clientfilename.filename = name.chars then
    -- `fopen(clientfilename.filename,"wb")`
    { c with
      «at» := .getData clientfilename (longOfWord clientfilename.filelenth) []
      dir := c.dir.write (cstr clientfilename.filename) [] }
  else (c.report .noFileOnServer).goto .returned

/-- `PutFileToServer` has asked for the file. -/
def afterPutFile (name : FileName) : Client :=
  match c.dir.content name.chars with
  | none => (c.report .noFileHere).goto .returned
  | some content => c.goto (.putRecord name content)

/-- `deleteServerFiles` has received the answer. -/
def afterDeleteAnswer (name : FileName) (filenames : Fileinfo) : Client :=
  if cstr filenames.filename = name.chars then (c.report .deleted).goto .returned
  else c.goto .deleteMissing

/-- What the client does next. -/
def move : Move Client Byte :=
  match c.at with
  | .command op => .send (c.head op) (c.goto (c.afterCommand op))
  | .list listbuffer =>
      .go ({ c with reports := c.reports ++ (shown listbuffer).map Report.fileName }.goto (.listRecv listbuffer))
  | .listRecv listbuffer => .recv true filenameLength fun got =>
      c.afterListRecv (got ++ listbuffer.drop got.length)
  | .getEcho name => .recv true requestLength fun _ => c.goto (.getName name)
  | .getName name => .send (c.array filenameLength name.chars) (c.goto (.getRecord name))
  | .getRecord name => .recv true sizeofFileinfo fun got =>
      c.afterGetRecord name (c.record.overlay got)
  | .getData clientfilename fsize written =>
      if 0 < fsize then
        .recv false (if bufferLength < fsize then bufferLength else fsize.toNat) fun got =>
          { c with
            «at» := .getData clientfilename (fsize - got.length) (written ++ got)
            dir := c.dir.write (cstr clientfilename.filename) (written ++ got) }
      else .go ((c.report .downloaded).goto .returned)
  | .putEcho name => .recv true putHeadLength fun _ => c.goto (.putFile name)
  | .putFile name => .go (c.afterPutFile name)
  | .putRecord name content =>
      let clientfile := clientFile c.record name content.length
      .send clientfile.toBytes (c.goto (.putData (longOfWord clientfile.filelenth) content))
  | .putData sizeleft rest =>
      if bufferLength < sizeleft then
        .send (rest.take bufferLength) (c.goto (.putData (sizeleft - bufferLength) (rest.drop bufferLength)))
      else if 0 ≤ sizeleft then
        .send (rest.take sizeleft.toNat) (c.goto (.putClosed (sizeleft - bufferLength)))
      else .go ((c.report .uploaded).goto .returned)
  -- another pass would read and close the file again, which is undefined
  | .putClosed sizeleft => if 0 ≤ sizeleft then .stop else .go ((c.report .uploaded).goto .returned)
  | .deleteEcho name => .recv true requestLength fun _ => c.goto (.deleteName name)
  | .deleteName name => .send (c.deleteRecord name).toBytes (c.goto (.deleteAnswer name))
  | .deleteAnswer name => .recv true sizeofFileinfo fun got =>
      c.afterDeleteAnswer name ((c.deleteRecord name).overlay got)
  | .deleteMissing => .recv true filenameLength fun _ => (c.report .notExist).goto .returned
  | .returned => .stop

end Client

/-! ## Directories -/

namespace Directory

variable {dir : Directory} {name : List Byte}

theorem content_eq_none : dir.content name = none ↔ ∀ f ∈ dir, f.name ≠ name := by
  simp [content]

/-- What `write` makes of a file that is there. -/
theorem write_of_some {old : List Byte} (h : dir.content name = some old) (content : List Byte) :
    dir.write name content =
      dir.map fun f => if f.name = name then ⟨name, content, true⟩ else f := by
  simp only [write, h]

theorem write_of_none (h : dir.content name = none) (content : List Byte) :
    dir.write name content = dir ++ [⟨name, content, true⟩] := by
  simp only [write, h]

theorem content_write_ne_none (dir : Directory) (name content : List Byte) :
    (dir.write name content).content name ≠ none := by
  rw [Ne, content_eq_none]
  intro hnot
  cases hfind : dir.content name with
  | none =>
      rw [write_of_none hfind] at hnot
      exact hnot _ (List.mem_append_right _ List.mem_cons_self) rfl
  | some old =>
      rw [write_of_some hfind] at hnot
      have hsome : dir.content name ≠ none := by simp [hfind]
      rw [Ne, content_eq_none] at hsome
      refine hsome fun f hf hname => hnot _ (List.mem_map_of_mem hf) ?_
      rw [if_pos hname]

/-- A file that is written again keeps nothing of what was written before. -/
theorem write_write (dir : Directory) (name old content : List Byte) :
    (dir.write name old).write name content = dir.write name content := by
  obtain ⟨there, hthere⟩ := Option.ne_none_iff_exists'.1 (content_write_ne_none dir name old)
  rw [write_of_some hthere]
  cases hfind : dir.content name with
  | none =>
      rw [write_of_none hfind, write_of_none hfind, List.map_append]
      have hothers : (dir.map fun f => if f.name = name then (⟨name, content, true⟩ : File) else f) = dir := by
        rw [List.map_congr_left (g := id), List.map_id]
        exact fun f hf => if_neg (content_eq_none.1 hfind f hf)
      rw [hothers]
      simp
  | some before =>
      rw [write_of_some hfind, write_of_some hfind, List.map_map]
      refine List.map_congr_left fun f _ => ?_
      by_cases hname : f.name = name <;> simp [hname]

end Directory

/-! ## What the client sends -/

theorem ne_nil_of_length {l : List Byte} {n : Nat} (h : l.length = n + 1) : l ≠ [] := by
  rintro rfl
  cases h

/-- A file name in place of the file name of a record. -/
theorem Fileinfo.filename_overlay (r : Fileinfo) {got : List Byte} (h : got.length = filenameLength) :
    (r.overlay got).filename = got := by
  simp only [overlay, ofBytes, List.append_assoc]
  exact List.take_left' h

def Op.command : Op → Command
  | .list => .list
  | .get _ => .get
  | .put _ => .put
  | .delete _ => .delete

/-- How many bytes the command has. -/
def Op.headLength : Op → Nat
  | .list => 5
  | .put _ => Client.putHeadLength
  | .get _ => requestLength
  | .delete _ => requestLength

theorem Op.headLength_le (op : Op) : op.headLength ≤ requestLength := by
  cases op <;> simp only [headLength] <;> decide

namespace Client

variable (c : Client)

theorem length_array {size : Nat} {text : List Byte} (h : text.length < size) :
    (c.array size text).length = size := by
  rw [array, length_strcpy (by rwa [length_charArray]), length_charArray]

theorem cstr_array {size : Nat} {text : List Byte} (h : IsText text) :
    cstr (c.array size text) = text :=
  cstr_strcpy h

theorem cstr_deleteRecord (name : FileName) : cstr (c.deleteRecord name).filename = name.chars :=
  cstr_strcpy name.isText

/-- What the server's buffer holds when the command has come. -/
def szbuffer (op : Op) : List Byte :=
  c.head op ++ (List.replicate requestLength 0).drop (c.head op).length

theorem length_head (op : Op) : (c.head op).length = op.headLength := by
  cases op with
  | list => rfl
  | get | put | delete => exact c.length_array (by decide)

theorem head_ne_nil (op : Op) : c.head op ≠ [] := by
  have hpos : 0 < op.headLength := by
    cases op <;> simp only [Op.headLength] <;> decide
  exact List.length_pos_iff.1 (c.length_head op ▸ hpos)

theorem cstr_szbuffer (op : Op) : cstr (c.szbuffer op) = op.command.text := by
  cases op with
  | list =>
      change cstr (Command.list.text ++ (List.replicate requestLength 0).drop 5) = Command.list.text
      decide
  | get | put | delete =>
      rw [szbuffer, head, array, strcpy, List.append_assoc]
      exact cstr_append_zero (by decide)

theorem length_szbuffer (op : Op) : (c.szbuffer op).length = requestLength := by
  have hle : (c.head op).length ≤ requestLength := c.length_head op ▸ op.headLength_le
  rw [szbuffer, List.length_append, List.length_drop, List.length_replicate]
  omega

/-! ### Sending a file -/

section Sending

variable {F : Client → Prop} {d : Bool} {w : Script Byte}

/-- The passes of the loop send the file. -/
theorem plays_putData (content : List Byte) (hpart : bufferLength ∣ content.length → content = [])
    (h : ∀ sizeleft < 0, Plays move F .client ⟨d, c.goto (.putClosed sizeleft), w⟩) :
    Plays move F .client ⟨d, c.goto (.putData content.length content), andThen .client content w⟩ := by
  refine Plays.sends (fun rest => c.goto (.putData rest.length rest))
    (fun rest => c.goto (.putClosed (rest.length - bufferLength))) bufferLength ?_ ?_ (by decide) hpart ?_
  · intro rest _ hlong
    have hleft : ((rest.drop bufferLength).length : Int) = rest.length - bufferLength := by
      rw [List.length_drop]
      omega
    simp only [move, goto, hleft]
    exact if_pos (Int.ofNat_lt.2 hlong)
  · intro rest _ hle
    have hshort : ¬ (bufferLength : Int) < rest.length := by omega
    simp only [move, goto, if_neg hshort, Int.natCast_nonneg, if_true, Int.toNat_natCast, List.take_length]
  · intro rest hlt
    exact h _ (by omega)

end Sending

/-! ### The four functions -/

/-- The function has returned with this directory, and the user has been told this. -/
def ended (dir : Directory) (reports : List Report) : Client where
  «at» := .returned
  dir := dir
  stack := c.stack
  reports := c.reports ++ reports

section Functions

variable {w : Script Byte} {name : FileName}

/-- The loop of `listServerFiles`. -/
theorem plays_listRecv {names : List (List Byte)} (hnames : ∀ n ∈ names, IsName n ∧ goesOn n)
    {listbuffer : List Byte} (hlen : listbuffer.length = filenameLength) :
    Plays move (· = c.ended c.dir (names.map .fileName)) .client
      ⟨false, c.goto (.listRecv listbuffer), (listFiles names).map fun l => (.server, .message l)⟩ := by
  -- a message fills the buffer
  have hfull := length_charArray filenameLength
  have hgot : ∀ {name listbuffer : List Byte}, listbuffer.length = filenameLength →
      charArray filenameLength name ++ listbuffer.drop (charArray filenameLength name).length =
        charArray filenameLength name := by
    intro name listbuffer hlen
    rw [hfull, ← hlen, List.drop_length, List.append_nil]
  have hne : ∀ {name : List Byte}, charArray filenameLength name ≠ [] := by
    intro name hnil
    have hzero := hfull name
    rw [hnil] at hzero
    cases hzero
  induction names generalizing c listbuffer with
  | nil =>
      refine .hear filenameLength rfl hne (Nat.le_of_eq (hfull _)) (.inl (hfull _)) ?_
      have hmark : (charArray filenameLength [endMark]).take 1 = [endMark] := writes.take_done
      rw [hgot hlen, afterListRecv, if_pos hmark]
      exact .stops rfl (by simp [goto, ended]) (by simp)
  | cons name names ih =>
      obtain ⟨hname, hgoes⟩ := hnames name List.mem_cons_self
      refine .hear filenameLength rfl hne (Nat.le_of_eq (hfull _)) (.inl (hfull _)) ?_
      have hmore : ¬ (charArray filenameLength name).take 1 = [endMark] := by
        have htake : (charArray filenameLength name).take 1 = name.take 1 := writes.take_record hname
        rw [htake]
        simpa [goesOn] using hgoes
      have hshown : shown (charArray filenameLength name) = [name] := writes.shown_record hname
      rw [hgot hlen, afterListRecv, if_neg hmore]
      refine .go rfl ?_
      have hnext := ih { c with reports := c.reports ++ [.fileName name] }
        (fun n hn => hnames n (List.mem_cons_of_mem _ hn)) (hfull name)
      simpa [hshown, goto, ended, listFiles] using hnext

theorem plays_list {names : List (List Byte)} (hnames : ∀ n ∈ names, IsName n ∧ goesOn n) :
    Plays move (· = c.ended c.dir (names.map .fileName)) .client
      ⟨false, c.goto (.command .list),
        (.client, .message (c.head .list)) :: (listFiles names).map fun l => (.server, .message l)⟩ := by
  have hlen : c.listbuffer.length = filenameLength := by
    rw [listbuffer, List.length_cons, List.length_drop, c.length_array (by decide)]
    rfl
  have hnone : shown c.listbuffer = [] := if_pos rfl
  refine .send rfl (.go rfl ?_)
  change Plays move _ .client ⟨false, Client.goto
    { c with reports := c.reports ++ (shown c.listbuffer).map .fileName } (.listRecv c.listbuffer), _⟩
  rw [hnone, List.map_nil, List.append_nil]
  exact c.plays_listRecv hnames hlen

theorem szbuffer_ne_nil (op : Op) : c.szbuffer op ≠ [] := ne_nil_of_length (c.length_szbuffer op)

/-- The loop of `GetFileFromServer`. -/
theorem plays_getData {r : Fileinfo} {content : List Byte} (hname : cstr r.filename = name.chars)
    (hsize : longOfWord r.filelenth = content.length) :
    Plays move (· = c.ended (c.dir.write name.chars content) [.downloaded]) .client
      ⟨false, c.afterGetRecord name r, andThen .server content [(.server, .close)]⟩ := by
  let rcv := fun done : List Byte => ({ c with
    «at» := .getData r (content.length - done.length) done
    dir := c.dir.write name.chars done } : Client)
  have hstart : c.afterGetRecord name r = rcv [] := by
    rw [afterGetRecord, if_pos hname, hname, hsize]
    simp [rcv]
  rw [hstart]
  refine Plays.takes (.inr trivial) ?_ ?_
  · intro done rest hall hrest
    have hleft : (content.length : Int) - done.length = rest.length := by
      rw [← hall, List.length_append]
      omega
    have hpos : 0 < rest.length := List.length_pos_iff.2 hrest
    have hmore : (0 : Int) < content.length - done.length := by omega
    refine ⟨_, _, ?_, if_pos hmore, ?_⟩
    · -- it asks for something
      rw [hleft]
      split
      · decide
      · omega
    · intro n _ hn
      have hgot : (rest.take n).length = n := List.length_take_of_le hn
      simp only [rcv, hgot, hname, Directory.write_write, List.length_append]
      rw [Int.sub_sub, Int.natCast_add]
  · have hdone : ¬ (0 : Int) < content.length - content.length := by omega
    refine .go (if_neg hdone) (.stops rfl ?_ (by simp [Side.peer]))
    rfl

/-- A download. -/
theorem plays_get {r : Fileinfo} {content : List Byte} (hname : cstr r.filename = name.chars)
    (hsize : longOfWord r.filelenth = content.length) :
    Plays move (· = c.ended (c.dir.write name.chars content) [.downloaded]) .client
      ⟨false, c.goto (.command (.get name)),
        (.client, .message (c.head (.get name))) :: (.server, .message (c.szbuffer (.get name))) ::
          (.client, .message (c.array filenameLength name.chars)) :: (.server, .message r.toBytes) ::
          andThen .server content [(.server, .close)]⟩ := by
  have hecho := c.length_szbuffer (.get name)
  have hrecord := r.length_toBytes
  refine .send rfl (.hear requestLength rfl (c.szbuffer_ne_nil _) hecho.le (.inl hecho) (.send rfl ?_))
  refine .hear sizeofFileinfo rfl (ne_nil_of_length hrecord) hrecord.le (.inl hrecord) ?_
  have hoverlay : (c.record.overlay r.toBytes) = r := c.record.overlay_toBytes r
  have hdata := c.plays_getData hname hsize
  rw [← hoverlay] at hdata
  exact hdata

/-- A download of a file that is not there. -/
theorem plays_get_missing {text : List Byte} (htext : text.length = filenameLength)
    (hname : cstr text ≠ name.chars) :
    Plays move (· = c.ended c.dir [.noFileOnServer]) .client
      ⟨false, c.goto (.command (.get name)),
        [(.client, .message (c.head (.get name))), (.server, .message (c.szbuffer (.get name))),
          (.client, .message (c.array filenameLength name.chars)), (.server, .message text),
          (.server, .close)]⟩ := by
  have hecho := c.length_szbuffer (.get name)
  refine .send rfl (.hear requestLength rfl (c.szbuffer_ne_nil _) hecho.le (.inl hecho) (.send rfl ?_))
  refine .hear sizeofFileinfo rfl (ne_nil_of_length htext) (htext.trans_le (by decide)) (.inr (.inr trivial)) ?_
  have hother : ¬ cstr (c.record.overlay text).filename = name.chars := by
    rwa [Fileinfo.filename_overlay _ htext]
  change Plays move _ .client ⟨false, (c.goto (.getRecord name)).afterGetRecord name
    (c.record.overlay text), _⟩
  rw [afterGetRecord, if_neg hother]
  exact .stops rfl rfl (by simp [Side.peer])

/-- An upload. -/
theorem plays_put {content : List Byte} (hfind : c.dir.content name.chars = some content)
    (hsent : SentOnce content) :
    Plays move (· = c.ended c.dir [.uploaded]) .client
      ⟨false, c.goto (.command (.put name)),
        (.client, .message (c.head (.put name))) :: (.server, .message (c.szbuffer (.put name))) ::
          (.client, .message (clientFile c.record name content.length).toBytes) ::
          andThen .client content [(.server, .close)]⟩ := by
  have hecho : putHeadLength < (c.szbuffer (.put name)).length := by
    rw [c.length_szbuffer]
    decide
  have hlong : longOfWord (clientFile c.record name content.length).filelenth = content.length :=
    longOfWord_size hsent.1
  have hafter : (c.goto (.putFile name)).afterPutFile name = c.goto (.putRecord name content) := by
    have hfind' : (c.goto (.putFile name)).dir.content name.chars = some content := hfind
    rw [afterPutFile, hfind']
    rfl
  refine .send rfl (.hearPart putHeadLength rfl (by decide) hecho (.go rfl ?_))
  change Plays move _ .client ⟨true, (c.goto (.putFile name)).afterPutFile name, _⟩
  rw [hafter]
  have hrecord : (c.goto (.putRecord name content)).move =
      .send (clientFile c.record name content.length).toBytes (c.goto (.putData content.length content)) := by
    rw [← hlong]
    rfl
  refine .send hrecord (plays_putData _ content hsent.2 fun sizeleft hneg => ?_)
  exact .go (if_neg (Int.not_le.2 hneg)) (.stops rfl rfl (by simp [Side.peer]))

/-- An upload of a file that is not there. -/
theorem plays_put_missing (hfind : c.dir.content name.chars = none) :
    Plays move (· = c.ended c.dir [.noFileHere]) .client
      ⟨false, c.goto (.command (.put name)),
        [(.client, .message (c.head (.put name))), (.server, .message (c.szbuffer (.put name)))]⟩ := by
  have hecho : putHeadLength < (c.szbuffer (.put name)).length := by
    rw [c.length_szbuffer]
    decide
  have hafter : (c.goto (.putFile name)).afterPutFile name = c.ended c.dir [.noFileHere] := by
    have hfind' : (c.goto (.putFile name)).dir.content name.chars = none := hfind
    rw [afterPutFile, hfind']
    rfl
  refine .send rfl (.hearPart putHeadLength rfl (by decide) hecho (.go rfl ?_))
  change Plays move _ .client ⟨true, (c.goto (.putFile name)).afterPutFile name, _⟩
  rw [hafter]
  exact .stops rfl rfl (by simp)

/-- What begins two arrays also begins the second one with the first one written over its start. -/
theorem prefix_take_append_drop {p a b : List Byte} (ha : p <+: a) (hb : p <+: b) (n : Nat) :
    p <+: a.take n ++ b.drop n := by
  obtain ⟨x, rfl⟩ := ha
  obtain ⟨y, rfl⟩ := hb
  rw [List.take_append, List.drop_append]
  rcases Nat.le_total p.length n with h | h
  · rw [List.take_of_length_le h, List.append_assoc]
    exact List.prefix_append _ _
  · rw [Nat.sub_eq_zero_of_le h, List.take_zero, List.append_nil, List.drop_zero, ← List.append_assoc,
      List.take_append_drop]
    exact List.prefix_append _ _

/-- The four bytes of the answer are the ones that the record begins with. -/
theorem cstr_overlay_deleteRecord :
    cstr ((c.deleteRecord name).overlay ((charArray filenameLength name.chars).take 4)).filename =
      name.chars := by
  have hanswer : ((charArray filenameLength name.chars).take 4).length = 4 := by
    rw [List.length_take, length_charArray]
    rfl
  have harray : name.chars ++ [0] <+: charArray filenameLength name.chars := by
    apply (readCstr_eq_some name.isText).1
    have hzero : (0 : Byte) ∈ charArray filenameLength name.chars := by
      rw [zero_mem_iff, cstr_charArray name.isText name.short, length_charArray]
      exact name.short
    rw [readCstr, if_pos hzero, cstr_charArray name.isText name.short]
  have hrecord : name.chars ++ [0] <+: (c.deleteRecord name).toBytes :=
    ⟨_, by simp only [Fileinfo.toBytes, deleteRecord, strcpy, List.append_assoc]; rfl⟩
  have hover := prefix_take_append_drop harray hrecord 4
  have hfilename : name.chars ++ [0] <+:
      ((c.deleteRecord name).overlay ((charArray filenameLength name.chars).take 4)).filename := by
    refine List.prefix_take_iff.2 ⟨?_, ?_⟩
    · rw [hanswer]
      exact hover.trans (List.prefix_append _ _)
    · rw [List.length_append]
      exact name.short
  obtain ⟨rest, hrest⟩ := hfilename
  rw [← hrest, List.append_assoc]
  exact cstr_append_zero name.isText

/-- A deletion. -/
theorem plays_delete :
    Plays move (· = c.ended c.dir [.deleted]) .client
      ⟨false, c.goto (.command (.delete name)),
        [(.client, .message (c.head (.delete name))), (.server, .message (c.szbuffer (.delete name))),
          (.client, .message (c.deleteRecord name).toBytes),
          (.server, .message ((charArray filenameLength name.chars).take 4)), (.server, .close)]⟩ := by
  have hecho := c.length_szbuffer (.delete name)
  have hanswer : ((charArray filenameLength name.chars).take 4).length = 4 := by
    rw [List.length_take, length_charArray]
    rfl
  refine .send rfl (.hear requestLength rfl (c.szbuffer_ne_nil _) hecho.le (.inl hecho) (.send rfl ?_))
  refine .hear sizeofFileinfo rfl (ne_nil_of_length hanswer) (hanswer.trans_le (by decide))
    (.inr (.inr trivial)) ?_
  change Plays move _ .client ⟨false, (c.goto (.deleteAnswer name)).afterDeleteAnswer name
    ((c.deleteRecord name).overlay _), _⟩
  rw [afterDeleteAnswer, if_pos c.cstr_overlay_deleteRecord]
  exact .stops rfl rfl (by simp [Side.peer])

/-- A deletion of a file that is not there. -/
theorem plays_delete_missing (hname : name.chars ≠ []) :
    Plays move (· = c.ended c.dir [.notExist]) .client
      ⟨false, c.goto (.command (.delete name)),
        [(.client, .message (c.head (.delete name))), (.server, .message (c.szbuffer (.delete name))),
          (.client, .message (c.deleteRecord name).toBytes),
          (.server, .message (charArray filenameLength [])), (.server, .close)]⟩ := by
  have hecho := c.length_szbuffer (.delete name)
  have hanswer := length_charArray filenameLength []
  refine .send rfl (.hear requestLength rfl (c.szbuffer_ne_nil _) hecho.le (.inl hecho) (.send rfl ?_))
  refine .hear sizeofFileinfo rfl (ne_nil_of_length hanswer) (hanswer.trans_le (by decide))
    (.inr (.inr trivial)) ?_
  have hother : ¬ cstr ((c.deleteRecord name).overlay (charArray filenameLength [])).filename =
      name.chars := by
    rw [Fileinfo.filename_overlay _ hanswer, cstr_charArray (by decide) (by decide)]
    exact Ne.symm hname
  change Plays move _ .client ⟨false, (c.goto (.deleteAnswer name)).afterDeleteAnswer name
    ((c.deleteRecord name).overlay _), _⟩
  rw [afterDeleteAnswer, if_neg hother]
  exact .hearEnd rfl (.stops rfl rfl (by simp [Side.peer]))

/-- A deletion that fails: the client waits for an answer. -/
theorem plays_delete_failed :
    Plays move (· = c.goto (.deleteAnswer name)) .client
      ⟨false, c.goto (.command (.delete name)),
        [(.client, .message (c.head (.delete name))), (.server, .message (c.szbuffer (.delete name))),
          (.client, .message (c.deleteRecord name).toBytes)]⟩ := by
  have hecho := c.length_szbuffer (.delete name)
  exact .send rfl (.hear requestLength rfl (c.szbuffer_ne_nil _) hecho.le (.inl hecho)
    (.send rfl (.waits rfl rfl)))

end Functions

end Client

end Build1
end FileTransfer
