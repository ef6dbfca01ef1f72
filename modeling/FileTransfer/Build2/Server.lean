import FileTransfer.Assign3.Programs
import FileTransfer.Build2.Endpoint
import FileTransfer.Lib.Run

/-!
# The server's loop and its socket (`Server/server.cpp`)

`TcpServer::run` serves every command over the one socket `s1`.  The functions it calls for GET, PUT and
DEL were written for a connection of their own and close the socket they are given at their end, on each of
their paths; `listFiles` does not.  A step is the return of one `udpsend`, `udprecv` or `closesocket`.
-/

namespace FileTransfer
namespace Build2

open Udp
open Assign3 (listText getText putText delText doneText missingText FileSending)

/-! ## The program -/

/-- The answer of `PutFileToClient` when it does not have the file. -/
def noSuchFileText : List Byte := ascii "No such a file\r"

/-- Where the server stands. -/
inductive ServerAt where
  /-- the head of the loop of `run` -/
  | loop
  /-- GET, PUT and DEL are sent back -/
  | echo (command : Buffer)
  /-- `listFiles`: the names still to be sent, then the end mark -/
  | listing (names : List (List Byte))
  /-- `PutFileToClient` -/
  | putName
  | noSuchFile
  | announce (f : File)
  | sending (x : FileSending)
  /-- `GetFileFromClient` -/
  | getName
  | receiving (name : List Byte) (fsize : Int)
  /-- `delFiles` -/
  | delName
  | delAnswer (text : List Byte)
  /-- before the `closesocket` at the end of these three -/
  | closing

structure Server where
  «at» : ServerAt
  dir : Dir
  stack : List Byte
  /-- `s1` has not been closed -/
  isOpen : Bool
  /-- the texts received at the head of the loop; history -/
  commands : List (List Byte)

/-- What the server does with `s1` next. -/
inductive Use where
  | udpsend (m : Message)
  | udprecv
  | closesocket

namespace Server

variable (s : Server)

def goto (a : ServerAt) : Server := { s with «at» := a }

def text (t : List Byte) : Message := .whole (textBuffer t s.stack)

/-- The message of a pass of the sending loop; the last one has a length. -/
def chunk (x : FileSending) : Message :=
  if x.sizeleft > bufferLength then .whole x.fread
  else ⟨x.fread, min bufferLength x.sizeleft.toNat, Nat.min_le_left _ _⟩

def use : Use :=
  match s.at with
  | .loop => .udprecv
  | .echo command => .udpsend (.whole command)
  | .listing (name :: _) => .udpsend (s.text name)
  | .listing [] => .udpsend (s.text doneText)
  | .putName => .udprecv
  | .noSuchFile => .udpsend (s.text noSuchFileText)
  | .announce f => .udpsend (s.text (announcement f.name f.content.length))
  | .sending x => .udpsend (chunk x)
  | .getName => .udprecv
  | .receiving _ _ => .udprecv
  | .delName => .udprecv
  | .delAnswer t => .udpsend (s.text t)
  | .closing => .closesocket

/-- The tests of `run`, after a packet has arrived. -/
def dispatch (p : Udppacket) : Server :=
  let command := cstr p.data.bytes
  let s' := { s with commands := s.commands ++ [command] }
  if command = listText then s'.goto (.listing s.dir.listed)
  else if command = getText ∨ command = putText ∨ command = delText then s'.goto (.echo p.data)
  else s'.goto .loop

/-- The function called for a command that was sent back. -/
def handler (command : Buffer) : Server :=
  if cstr command.bytes = getText then s.goto .putName
  else if cstr command.bytes = putText then s.goto .getName
  -- `dispatch` lets no other text through
  else s.goto .delName

/-- The head of the sending loop of `PutFileToClient`. -/
def sendLoop (x : FileSending) : Server :=
  if x.sizeleft ≥ 0 then s.goto (.sending x) else s.goto .closing

/-- The head of the receiving loop of `GetFileFromClient`. -/
def recvLoop (name : List Byte) (fsize : Int) : Server :=
  if fsize > 0 then s.goto (.receiving name fsize) else s.goto .closing

/-- `PutFileToClient` has the name. -/
def afterPutName (p : Udppacket) : Server :=
  match s.dir.find? (cstr p.data.bytes) with
  | none => s.goto .noSuchFile
  | some f => s.goto (.announce f)

/-- `GetFileFromClient` has the announcement. -/
def afterGetName (p : Udppacket) : Server :=
  let parsed := parseAnnouncement (cstr p.data.bytes)
  ({ s with dir := s.dir.create parsed.1 } : Server).recvLoop parsed.1 parsed.2

/-- `GetFileFromClient` has a chunk of the file. -/
def afterChunk (name : List Byte) (fsize : Int) (p : Udppacket) : Server :=
  let nrbyte := if fsize > bufferLength then bufferLength else fsize.toNat
  ({ s with dir := s.dir.append name (p.data.bytes.take nrbyte) } : Server).recvLoop name
    (fsize - nrbyte)

/-- `delFiles` has the name. -/
def afterDelName (p : Udppacket) : Server :=
  let filename := cstr p.data.bytes
  match s.dir.find? filename with
  | none => s.goto (.delAnswer missingText)
  | some f =>
      if f.deletable then
        ({ s with dir := s.dir.delete filename } : Server).goto (.delAnswer doneText)
      -- `DeleteFile` fails: the attributes are cleared, and nothing is sent
      else ({ s with dir := s.dir.clearAttributes filename } : Server).goto .closing

/-- `udprecv` has returned this packet. -/
def received (p : Udppacket) : Server :=
  match s.at with
  | .loop => s.dispatch p
  | .putName => s.afterPutName p
  | .getName => s.afterGetName p
  | .receiving name fsize => s.afterChunk name fsize p
  | .delName => s.afterDelName p
  | _ => s

/-- `udpsend` has returned. -/
def sent : Server :=
  match s.at with
  | .echo command => s.handler command
  | .listing (_ :: names) => s.goto (.listing names)
  | .listing [] => s.goto .loop
  | .noSuchFile => s.goto .closing
  | .announce f => s.sendLoop ⟨f.content, f.content.length, .ofBytes s.stack⟩
  | .sending x => s.sendLoop x.next
  | .delAnswer _ => s.goto .closing
  | _ => s

/-- The server goes on with what its call returned.  On a closed socket `recvfrom` and `select` fail: the
loop of `udprecv` finds `current_Recv_Seq` as it was, that of `udpsend` never sees `outfds` at one, and
neither returns. -/
def step (r : Ret) : Option Server :=
  match s.use, r with
  | .udprecv, .udprecv p => if s.isOpen then some (s.received p) else none
  | .udpsend _, .udpsend _ => if s.isOpen then some s.sent else none
  | .closesocket, .done => some (({ s with isOpen := false } : Server).goto .loop)
  | _, _ => none

/-- The server after its `bind`. -/
def start (dir : Dir) (stack : List Byte) : Server := ⟨.loop, dir, stack, true, []⟩

end Server

/-! ## One step -/

/-- The commands whose functions close the socket. -/
def Closes (command : List Byte) : Prop :=
  command = getText ∨ command = putText ∨ command = delText

instance (command : List Byte) : Decidable (Closes command) :=
  inferInstanceAs (Decidable (_ ∨ _ ∨ _))

/-- The places between such a command and its `closesocket`. -/
def ServerAt.closes : ServerAt → Bool
  | .loop => false
  | .listing _ => false
  | _ => true

/-- The socket is open just as long as no such command has been served. -/
structure SocketInv (s : Server) : Prop where
  serving : s.at ≠ .loop → s.isOpen = true
  during : s.at.closes = true → ∃ c ∈ s.commands, Closes c
  between : s.at.closes = false → (s.isOpen = true ↔ ∀ c ∈ s.commands, ¬ Closes c)

/-- What a function that closes the socket does before. -/
structure Serving (s t : Server) : Prop where
  place : t.at.closes = true
  isOpen : t.isOpen = s.isOpen
  commands : t.commands = s.commands

variable {s t : Server}

theorem serving_sendLoop (s : Server) (x : FileSending) : Serving s (s.sendLoop x) := by
  unfold Server.sendLoop
  split <;> exact ⟨rfl, rfl, rfl⟩

theorem serving_recvLoop {s t : Server} (h : Serving s t) (name : List Byte) (fsize : Int) :
    Serving s (t.recvLoop name fsize) := by
  unfold Server.recvLoop
  split <;> exact ⟨rfl, h.isOpen, h.commands⟩

theorem serving_received (h : s.at.closes = true) (p : Udppacket) : Serving s (s.received p) := by
  unfold Server.received
  split
  · rename_i hat
    rw [hat] at h
    cases h
  · unfold Server.afterPutName
    split <;> exact ⟨rfl, rfl, rfl⟩
  · apply serving_recvLoop
    exact ⟨h, rfl, rfl⟩
  · apply serving_recvLoop
    exact ⟨h, rfl, rfl⟩
  · unfold Server.afterDelName
    dsimp only
    split
    · exact ⟨rfl, rfl, rfl⟩
    · split <;> exact ⟨rfl, rfl, rfl⟩
  · exact ⟨h, rfl, rfl⟩

theorem serving_sent (h : s.at.closes = true) : Serving s s.sent := by
  unfold Server.sent
  split
  · unfold Server.handler
    split_ifs <;> exact ⟨rfl, rfl, rfl⟩
  · rename_i hat
    rw [hat] at h
    cases h
  · rename_i hat
    rw [hat] at h
    cases h
  · exact ⟨rfl, rfl, rfl⟩
  · exact serving_sendLoop _ _
  · exact serving_sendLoop _ _
  · exact ⟨rfl, rfl, rfl⟩
  · exact ⟨h, rfl, rfl⟩

/-- A listing is sent to its end on the socket as it is. -/
theorem sent_listing {names : List (List Byte)} (hat : s.at = .listing names) :
    s.sent.at.closes = false ∧ s.sent.isOpen = s.isOpen ∧ s.sent.commands = s.commands := by
  unfold Server.sent
  rw [hat]
  cases names with
  | nil => exact ⟨rfl, rfl, rfl⟩
  | cons name names => exact ⟨rfl, rfl, rfl⟩

/-- `run` tells the commands apart that it has functions for. -/
theorem dispatch_cases (s : Server) (p : Udppacket) :
    let t := s.dispatch p
    (t.at.closes = true ↔ Closes (cstr p.data.bytes)) ∧ t.isOpen = s.isOpen ∧
      t.commands = s.commands ++ [cstr p.data.bytes] := by
  dsimp only
  unfold Server.dispatch
  dsimp only
  split
  · rename_i hlist
    have hnot : ¬ Closes listText := by decide
    rw [hlist]
    exact ⟨iff_of_false (by simp [Server.goto, ServerAt.closes]) hnot, rfl, rfl⟩
  · split
    · rename_i hcommand
      exact ⟨iff_of_true rfl hcommand, rfl, rfl⟩
    · rename_i hother
      exact ⟨iff_of_false (by simp [Server.goto, ServerAt.closes]) hother, rfl, rfl⟩

theorem SocketInv.of_serving (h : SocketInv s) (hs : s.at.closes = true) (hserving : Serving s t) :
    SocketInv t where
  serving _ := by
    rw [hserving.isOpen]
    exact h.serving fun hloop => absurd hs (by rw [hloop]; decide)
  during _ := by
    rw [hserving.commands]
    exact h.during hs
  between hnot := by
    rw [hserving.place] at hnot
    cases hnot

/-- A command arrives. -/
theorem SocketInv.dispatch (h : SocketInv s) (hs : s.at = .loop) (hopen : s.isOpen = true)
    (p : Udppacket) : SocketInv (s.dispatch p) := by
  obtain ⟨hplace, hsame, hcommands⟩ := dispatch_cases s p
  have hbefore : ∀ c ∈ s.commands, ¬ Closes c := (h.between (by rw [hs]; rfl)).1 hopen
  constructor
  · intro _
    rw [hsame]
    exact hopen
  · intro hcloses
    rw [hcommands]
    exact ⟨_, by simp, hplace.1 hcloses⟩
  · intro hnot
    have hlast : ¬ Closes (cstr p.data.bytes) := by
      rw [← hplace, hnot]
      decide
    rw [hsame, hcommands]
    refine iff_of_true hopen ?_
    intro c hc
    rcases List.mem_append.1 hc with hc | hc
    · exact hbefore c hc
    · rw [List.mem_singleton.1 hc]
      exact hlast

/-- A packet arrives, for the loop of `run` or for a function that reads. -/
theorem SocketInv.received (h : SocketInv s) (huse : s.use = .udprecv) (hopen : s.isOpen = true)
    (p : Udppacket) : SocketInv (s.received p) := by
  by_cases hs : s.at.closes = true
  · exact h.of_serving hs (serving_received hs p)
  · cases hat : s.at with
    | loop =>
        have hdispatch : s.received p = s.dispatch p := by
          unfold Server.received
          rw [hat]
        rw [hdispatch]
        exact h.dispatch hat hopen p
    | listing names =>
        -- a listing receives nothing
        rw [Server.use, hat] at huse
        cases names <;> cases huse
    | _ =>
        rw [hat] at hs
        exact absurd rfl hs

/-- A message of a listing is sent, or one of another function. -/
theorem SocketInv.sent (h : SocketInv s) {m : Message} (huse : s.use = .udpsend m)
    (hopen : s.isOpen = true) : SocketInv s.sent := by
  by_cases hs : s.at.closes = true
  · exact h.of_serving hs (serving_sent hs)
  · cases hat : s.at with
    | loop =>
        -- the loop of `run` sends nothing
        rw [Server.use, hat] at huse
        cases huse
    | listing names =>
        obtain ⟨hplace, hsame, hcommands⟩ := sent_listing hat
        have hbetween := h.between (by rw [hat]; rfl)
        constructor
        · intro _
          rw [hsame]
          exact hopen
        · intro hcloses
          rw [hplace] at hcloses
          cases hcloses
        · intro _
          rw [hsame, hcommands]
          exact hbetween
    | _ =>
        rw [hat] at hs
        exact absurd rfl hs

theorem closes_of_closesocket (huse : s.use = .closesocket) : s.at.closes = true := by
  cases hat : s.at with
  | loop =>
      rw [Server.use, hat] at huse
      cases huse
  | listing names =>
      rw [Server.use, hat] at huse
      cases names <;> cases huse
  | _ => rfl

/-- A function ends with `closesocket`, and the loop goes on. -/
theorem SocketInv.closed (h : SocketInv s) (huse : s.use = .closesocket) :
    SocketInv (({ s with isOpen := false } : Server).goto .loop) := by
  obtain ⟨c, hc, hcloses⟩ := h.during (closes_of_closesocket huse)
  constructor
  · intro hloop
    exact absurd rfl hloop
  · intro hplace
    cases hplace
  · intro _
    refine iff_of_false (by simp [Server.goto]) ?_
    intro hnone
    exact hnone c hc hcloses

/-- Each step keeps the invariant. -/
theorem SocketInv.step {r : Ret} (h : SocketInv s) (hstep : s.step r = some t) : SocketInv t := by
  unfold Server.step at hstep
  split at hstep
  · rename_i p huse
    split at hstep
    · rename_i hopen
      cases hstep
      exact h.received huse hopen p
    · cases hstep
  · rename_i huse
    split at hstep
    · rename_i hopen
      cases hstep
      exact h.sent huse hopen
    · cases hstep
  · rename_i huse
    cases hstep
    exact h.closed huse
  · cases hstep

/-! ## Whole runs -/

theorem socketInv_start (dir : Dir) (stack : List Byte) : SocketInv (.start dir stack) where
  serving _ := rfl
  during h := by cases h
  between _ := iff_of_true rfl fun c hc => absurd hc List.not_mem_nil

/-- Whatever the clients send: inside the functions for the commands the socket is open, and at the head of
the loop it is open exactly when no GET, PUT or DEL has been received so far. -/
theorem open_iff (dir : Dir) (stack : List Byte) (rs : List Ret) (s : Server)
    (hrun : Run Server.step anyStep (.start dir stack) rs s) :
    (s.at ≠ .loop → s.isOpen = true) ∧
      (s.at = .loop → (s.isOpen = true ↔ ∀ c ∈ s.commands, ¬ Closes c)) := by
  have hinv : SocketInv s :=
    hrun.invariant (fun _ _ _ h _ hstep => h.step hstep) (socketInv_start dir stack)
  refine ⟨hinv.serving, ?_⟩
  intro hloop
  exact hinv.between (by rw [hloop]; rfl)

/-- At the head of the loop with the socket closed, `udprecv` does not return. -/
theorem stuck (hat : s.at = .loop) (hclosed : s.isOpen = false) (r : Ret) : s.step r = none := by
  unfold Server.step
  have huse : s.use = .udprecv := by
    rw [Server.use, hat]
  rw [huse]
  cases r <;> simp [hclosed]

/-- A packet with this text. -/
def packetOf (text : List Byte) : Udppacket := ⟨0, .ofBytes text⟩

/-- Two files, of which one is hidden. -/
def sampleDir : Dir := [⟨ascii "a", [1, 2], true, true⟩, ⟨ascii "b", [], false, true⟩]

/-- Two listings of a file: its name and the end mark. -/
def listTwice : List Ret :=
  [.udprecv (packetOf listText), .udpsend (packetOf []), .udpsend (packetOf []),
    .udprecv (packetOf listText), .udpsend (packetOf []), .udpsend (packetOf [])]

theorem open_listTwice :
    ∃ s, Run Server.step anyStep (.start sampleDir []) listTwice s ∧ s.at = .loop ∧
      (s.isOpen = true ↔ ∀ c ∈ s.commands, ¬ Closes c) := by
  have hexec : exec Server.step (.start sampleDir []) listTwice =
      some ⟨.loop, sampleDir, [], true, [listText, listText]⟩ := rfl
  have hrun := run_of_exec_any hexec
  exact ⟨_, hrun, rfl, (open_iff sampleDir [] listTwice _ hrun).2 rfl⟩

/-- A client deletes a file that the server does not have. -/
def deleteMissing : List Ret :=
  [.udprecv (packetOf delText), .udpsend (packetOf []), .udprecv (packetOf (ascii "a")),
    .udpsend (packetOf []), .done]

/-- The server is back at the head of its loop, and its socket is closed. -/
theorem closed_deleteMissing :
    ∃ s, Run Server.step anyStep (.start [] []) deleteMissing s ∧ s.at = .loop ∧
      s.isOpen = false ∧ s.step (.udprecv (packetOf listText)) = none := by
  have hexec : exec Server.step (.start [] []) deleteMissing =
      some ⟨.loop, [], [], false, [delText]⟩ := rfl
  exact ⟨_, run_of_exec_any hexec, rfl, rfl, stuck rfl rfl _⟩

end Build2
end FileTransfer
