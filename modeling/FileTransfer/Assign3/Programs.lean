import FileTransfer.Assign3.Endpoint
import FileTransfer.Udp.Files

/-!
# The client's menu and the server's loop

The two programs of `Assign3_zcl` as sequences of calls, each with its working directory.  What happens
between two calls (files, the user's input) happens when the first one returns.  `stack` is what lies
behind the strings in the buffers that are sent.
-/

namespace FileTransfer
namespace Assign3

open Udp

/-! ## Texts -/

def listText : List Byte := ascii "LIST\r"
def getText : List Byte := ascii "GET\r"
def putText : List Byte := ascii "PUT\r"
def delText : List Byte := ascii "DEL\r"

/-- `"@\r"`, the end of a listing and the answer to a deletion -/
def doneText : List Byte := ascii "@\r"

/-- `"#\r"`, the answer when the file to be deleted does not exist -/
def missingText : List Byte := ascii "#\r"

/-- Whether the server has the announced file already. -/
def sameText : List Byte := ascii "S"
def createText : List Byte := ascii "C"

/-! ## Sending and receiving the content of a file -/

/-- The state of a sending loop: the bytes not read yet, `sizeleft`, and the buffer. -/
structure FileSending where
  rest : List Byte
  sizeleft : Int
  filebuffer : Buffer

namespace FileSending

/-- The buffer after `fread`. -/
def fread (x : FileSending) : Buffer :=
  -- what lay in the buffer before stays behind a short read
  x.filebuffer.overlay
    (x.rest.take (if x.sizeleft > bufferLength then bufferLength else x.sizeleft.toNat))

/-- A pass of the loop: a pair while more than a buffer is left, then the final chunk. -/
def call (x : FileSending) : Call :=
  if x.sizeleft > bufferLength then .udpsend x.fread
  else .udplastsend ⟨x.fread, min x.sizeleft.toNat bufferLength, Nat.min_le_right _ _⟩

def next (x : FileSending) : FileSending :=
  ⟨x.rest.drop bufferLength, x.sizeleft - bufferLength, x.fread⟩

end FileSending

/-- The state of a receiving loop: the file that is written, and how much is missing. -/
structure FileReceiving where
  name : List Byte
  fsize : Int

namespace FileReceiving

def call (x : FileReceiving) : Call :=
  if x.fsize > bufferLength then .udprecv else .udplastrecv

/-- What a pass of the loop writes, and the state after it. -/
def next (x : FileReceiving) : Ret → List Byte × FileReceiving
  -- a pair that was not accepted writes nothing, and `fsize` stays
  | .udprecv (some chunk) => (chunk.bytes, ⟨x.name, x.fsize - bufferLength⟩)
  | .udplastrecv p => (p.data.bytes.take x.fsize.toNat, ⟨x.name, 0⟩)
  | _ => ([], x)

end FileReceiving

/-! ## The client -/

/-- A choice from the menu, with what the user types then.  `newName` is asked for only when the first
name is taken. -/
inductive Op where
  | list
  | get (name newName : FileName)
  | put (name newName : FileName)
  | del (name : FileName)

/-- What the client tells the user: the names that `listServerFiles` prints, and the end of an operation. -/
inductive Report where
  | fileName (szbuffer : List Byte)
  | listed
  | downloaded
  | noFileOnServer
  | uploaded
  | noFileHere
  | deleted
  | notExist
  deriving DecidableEq

inductive ClientAt where
  | menu
  /-- the numbers are reset; the command is sent next -/
  | command (op : Op)
  | echo (op : Op)
  /-- `listServerFiles` reads names -/
  | names
  /-- `GetFileFromServer` and `DeleteServerFiles` send the name -/
  | name (op : Op)
  /-- `PutFileToServer` announces the file -/
  | announce (name newName : FileName) (content : List Byte)
  | answer (op : Op)
  /-- `PutFileToServer` waits for `S` or `C`, and announces again -/
  | taken (name newName : FileName) (content : List Byte)
  | again (filename content : List Byte)
  | sending (x : FileSending)
  | receiving (x : FileReceiving)

structure Client where
  ops : List Op
  «at» : ClientAt
  dir : Dir
  reports : List Report
  stack : List Byte

namespace Client

variable (c : Client)

/-- A message without a length that holds a string. -/
def text (s : List Byte) : Message := .whole (textBuffer s c.stack)

def goto (a : ClientAt) : Client := { c with «at» := a }

/-- The operation ends with this report. -/
def report (r : Report) : Client := { c with «at» := .menu, reports := c.reports ++ [r] }

/-- The names are printed. -/
def printed (names : List (List Byte)) : Client :=
  { c with reports := c.reports ++ names.map .fileName }

theorem printed_printed (names names' : List (List Byte)) :
    (c.printed names).printed names' = c.printed (names ++ names') := by
  simp only [printed, List.map_append, List.append_assoc]

/-- A pass of the loop of `listServerFiles`. -/
def prints (szbuffer : List Byte) : Client :=
  -- `if(szbuffer[0] == '\0');`
  c.printed (if szbuffer.take 1 = [0] then [] else [cstr szbuffer])

/-- The head of the sending loop of `PutFileToServer`. -/
def sendLoop (x : FileSending) : Client :=
  if x.sizeleft > 0 then c.goto (.sending x) else c.report .uploaded

/-- The head of the receiving loop of `GetFileFromServer`. -/
def recvLoop (x : FileReceiving) : Client :=
  if x.fsize > 0 then c.goto (.receiving x) else c.report .downloaded

def commandText : Op → List Byte
  | .list => listText
  | .get _ _ => getText
  | .put _ _ => putText
  | .del _ => delText

def call : Option Call :=
  match c.at with
  | .menu =>
      match c.ops with
      | [] => none
      | .get _ _ :: _ => some (.reset .getFile)
      | .put _ _ :: _ => some (.reset .putFileToServer)
      | op :: _ => some (.udplastsend (c.text (commandText op)))
  | .command op => some (.udplastsend (c.text (commandText op)))
  | .echo _ => some .udplastrecv
  | .names => some .udplastrecv
  | .name (.get name _) => some (.udplastsend (c.text name.chars))
  | .name (.del name) => some (.udplastsend (c.text name.chars))
  | .name _ => none
  | .announce name _ content =>
      some (.udplastsend (c.text (announcement name.chars content.length)))
  | .answer _ => some .udplastrecv
  | .taken _ _ _ => some .udplastrecv
  | .again filename content =>
      some (.udplastsend (c.text (announcement filename content.length)))
  | .sending x => some x.call
  | .receiving x => some x.call

/-- After the echo of the command. -/
def afterEcho : Op → Client
  | .list => c.goto .names
  | .get name newName => c.goto (.name (.get name newName))
  | .del name => c.goto (.name (.del name))
  | .put name newName =>
      match c.dir.find? name.chars with
      | none => c.report .noFileHere
      | some f => c.goto (.announce name newName f.content)

/-- The announcement, or what stands in its place, has arrived in `GetFileFromServer`. -/
def afterAnnouncement (name newName : FileName) (p : Udppacket) : Client :=
  let parsed := parseAnnouncement (cstr p.data.bytes)
  -- `strcmp` with the name asked for; the server sends the bare name when it has no such file
  if parsed.1 = name.chars then
    let target := if (c.dir.find? name.chars).isSome then newName.chars else name.chars
    ({ c with dir := c.dir.create target } : Client).recvLoop ⟨target, parsed.2⟩
  else c.report .noFileOnServer

/-- The answer to the announcement has arrived in `PutFileToServer`: the file is announced again, under
a new name when it is taken, and otherwise with its size written twice. -/
def afterTaken (name newName : FileName) (content : List Byte) (p : Udppacket) : Client :=
  -- `memcmp(tempclient,"S",sizeof("S"))==0`
  if p.data.bytes.take 2 = sameText ++ [0] then c.goto (.again newName.chars content)
  else c.goto (.again (announcement name.chars content.length) content)

def resume (r : Ret) : Client :=
  match c.at, r with
  | .menu, .done =>
      match c.ops with
      | [] => c
      | op :: ops => ({ c with ops := ops } : Client).goto (.command op)
  | .menu, .udplastsend _ =>
      match c.ops with
      | [] => c
      | op :: ops => ({ c with ops := ops } : Client).goto (.echo op)
  | .command op, .udplastsend _ => c.goto (.echo op)
  -- what came back is not looked at
  | .echo op, .udplastrecv _ => c.afterEcho op
  -- names until the end mark
  | .names, .udplastrecv p =>
      if p.data.bytes.take 1 = ascii "@" then c.report .listed else c.prints p.data.bytes
  | .name op, .udplastsend _ => c.goto (.answer op)
  | .announce name newName content, .udplastsend _ => c.goto (.taken name newName content)
  | .answer (.get name newName), .udplastrecv p => c.afterAnnouncement name newName p
  | .answer _, .udplastrecv p =>
      c.report (if p.data.bytes.take 1 = ascii "#" then .notExist else .deleted)
  | .taken name newName content, .udplastrecv p => c.afterTaken name newName content p
  -- the answer has been `S` or `C`, and the content follows
  | .again _ content, .udplastsend _ => c.sendLoop ⟨content, content.length, .ofBytes c.stack⟩
  | .sending x, _ => c.sendLoop x.next
  | .receiving x, r =>
      let written := x.next r
      ({ c with dir := c.dir.append x.name written.1 } : Client).recvLoop written.2
  | _, _ => c

end Client

/-! ## The server -/

inductive ServerAt where
  /-- the loop of `run` reads a command -/
  | loop
  /-- the command is sent back -/
  | echo (command : Buffer)
  /-- `listFiles`: the names still to be sent, then the end mark -/
  | listing (names : List (List Byte))
  /-- `PutFileToClient` -/
  | putReset
  | putName
  | noSuchFile (filename : List Byte)
  | announce (f : File)
  | sending (x : FileSending)
  /-- `GetFileFromClient` -/
  | getReset
  | getName
  | answer (text : List Byte)
  | getAgain
  | receiving (x : FileReceiving)
  /-- `delFiles` -/
  | delName
  | delAnswer (text : List Byte)

structure Server where
  «at» : ServerAt
  dir : Dir
  stack : List Byte

namespace Server

variable (s : Server)

def text (t : List Byte) : Message := .whole (textBuffer t s.stack)

def goto (a : ServerAt) : Server := { s with «at» := a }

/-- The head of the sending loop of `PutFileToClient`. -/
def sendLoop (x : FileSending) : Server :=
  if x.sizeleft ≥ 0 then s.goto (.sending x) else s.goto .loop

/-- The head of the receiving loop of `GetFileFromClient`. -/
def recvLoop (x : FileReceiving) : Server :=
  if x.fsize > 0 then s.goto (.receiving x) else s.goto .loop

/-- What a name that was received is in a cleared `char[260]`. -/
def nameBuffer (filename : List Byte) : Buffer := .ofBytes filename

def call : Call :=
  match s.at with
  | .loop => .udplastrecv
  | .echo command => .udplastsend (.whole command)
  | .listing (name :: _) => .udplastsend (s.text name)
  | .listing [] => .udplastsend (s.text doneText)
  | .putReset => .reset .putFileToClient
  | .putName => .udplastrecv
  | .noSuchFile filename => .udpsend (nameBuffer filename)
  | .announce f => .udplastsend (s.text (announcement f.name f.content.length))
  | .sending x => x.call
  | .getReset => .reset .getFile
  | .getName => .udplastrecv
  | .answer t => .udplastsend (.whole (.ofBytes t))
  | .getAgain => .udplastrecv
  | .receiving x => x.call
  | .delName => .udplastrecv
  | .delAnswer t => .udplastsend (s.text t)

/-- The tests of `run`, after a packet has arrived. -/
def dispatch (command : Buffer) : Server :=
  if cstr command.bytes = listText ∨ cstr command.bytes = getText ∨ cstr command.bytes = putText ∨
      cstr command.bytes = delText then
    s.goto (.echo command)
  else s.goto .loop

/-- The function that a command calls. -/
def handler (command : Buffer) : Server :=
  if cstr command.bytes = listText then
    s.goto (.listing s.dir.listed)
  else if cstr command.bytes = getText then s.goto .putReset
  else if cstr command.bytes = putText then s.goto .getReset
  -- `dispatch` lets no other text through
  else s.goto .delName

/-- `PutFileToClient` has the name. -/
def afterPutName (p : Udppacket) : Server :=
  let filename := cstr p.data.bytes
  match s.dir.find? filename with
  | none => s.goto (.noSuchFile filename)
  | some f => s.goto (.announce f)

/-- `GetFileFromClient` has the first announcement. -/
def afterGetName (p : Udppacket) : Server :=
  let name := (parseAnnouncement (cstr p.data.bytes)).1
  s.goto (.answer (if (s.dir.find? name).isSome then sameText else createText))

/-- `GetFileFromClient` has the second announcement. -/
def afterGetAgain (p : Udppacket) : Server :=
  let parsed := parseAnnouncement (cstr p.data.bytes)
  ({ s with dir := s.dir.create parsed.1 } : Server).recvLoop ⟨parsed.1, parsed.2⟩

/-- `delFiles` has the name. -/
def afterDelName (p : Udppacket) : Server :=
  let filename := cstr p.data.bytes
  match s.dir.find? filename with
  | none => s.goto (.delAnswer missingText)
  | some f =>
      if f.deletable then
        ({ s with dir := s.dir.delete filename } : Server).goto (.delAnswer doneText)
      -- `DeleteFile` fails: the attributes are cleared, and nothing is sent
      else ({ s with dir := s.dir.clearAttributes filename } : Server).goto .loop

def resume (r : Ret) : Server :=
  match s.at, r with
  | .loop, .udplastrecv p => s.dispatch p.data
  | .echo command, .udplastsend _ => s.handler command
  | .listing (_ :: names), .udplastsend _ => s.goto (.listing names)
  | .listing [], .udplastsend _ => s.goto .loop
  | .putReset, .done => s.goto .putName
  | .putName, .udplastrecv p => s.afterPutName p
  -- the bare name, sent as a pair, stands in the place of the announcement
  | .noSuchFile _, .udpsend _ => s.goto .loop
  | .announce f, .udplastsend _ => s.sendLoop ⟨f.content, f.content.length, .ofBytes s.stack⟩
  | .sending x, _ => s.sendLoop x.next
  | .getReset, .done => s.goto .getName
  | .getName, .udplastrecv p => s.afterGetName p
  | .answer _, .udplastsend _ => s.goto .getAgain
  | .getAgain, .udplastrecv p => s.afterGetAgain p
  | .receiving x, r =>
      let written := x.next r
      ({ s with dir := s.dir.append x.name written.1 } : Server).recvLoop written.2
  | .delName, .udplastrecv p => s.afterDelName p
  | .delAnswer _, .udplastsend _ => s.goto .loop
  | _, _ => s

end Server

/-! ## Both -/

/-- What one of the two machines runs. -/
inductive Program where
  | client (c : Client)
  | server (s : Server)

def ftpApp : App Program where
  call
    | .client c => c.call
    | .server s => some s.call
  resume
    | .client c, r => .client (c.resume r)
    | .server s, r => .server (s.resume r)

end Assign3
end FileTransfer
