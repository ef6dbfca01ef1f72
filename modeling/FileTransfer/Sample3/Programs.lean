import FileTransfer.Sample3.Endpoint
import FileTransfer.Lib.CString

/-!
# The client and the server (`Client/client.cpp`, `Server/server.cpp`)

The two programs as sequences of calls.  What a program finds outside the network while it runs (the
values of `rand`, files, the memory behind the records it sends) is part of its state: `Start` for one call
of `SockClient::start`, `Handle` for one call of `SockServer::client_handler`.
-/

namespace FileTransfer
namespace Sample3

/-- `DEFAULT_WINDOWSIZE` -/
def defaultWindowSize : Nat := 7

/-- `sizeof(MSGHEADER)`: one byte, three bytes of padding, one word. -/
def sizeofMsgHeader : Int := 8

/-- `sizeof(MSGREQUEST)` -/
def sizeofMsgRequest : Int := 64

/-- `FILENAME_LENGTH` and `HOSTNAME_LENGTH` -/
def filenameLength : Nat := 32
def hostnameLength : Nat := 32

/-- `MSGTYPE_REQ_GET` and `MSGTYPE_REQ_PUT` -/
def msgTypeReqGet : Byte := 1
def msgTypeReqPut : Byte := 2

/-- `MSGTYPE_RESP_*` -/
def msgTypeRespFailToGetHeader : Byte := 1
def msgTypeRespWrongHeader : Byte := 2
def msgTypeRespUnknownType : Byte := 3
def msgTypeRespFailToGetInfo : Byte := 4
def msgTypeRespFailToRecvFile : Byte := 5
def msgTypeRespNoFile : Byte := 6
def msgTypeRespOk : Byte := 101

/-- A word as the `int` parameter of a function. -/
def toInt (x : UInt32) : Int := x.toInt32.toInt

/-- `ftell` at the end of a file of this size, as a `long` of 32 bits; a larger size is an error. -/
def ftell (size : Nat) : UInt32 := if size < 2 ^ 31 then UInt32.ofNat size else -1

/-- `MSGHEADER` in memory. -/
def msgHeader (type : Byte) (padding : List Byte) (len : UInt32) : List Byte :=
  type :: padding.takeD 3 0 ++ leBytes len

def headerType (bytes : List Byte) : Byte := bytes.getD 0 0
def headerLen (bytes : List Byte) : UInt32 := leWord (bytes.drop 4)

/-! ## The client -/

/-- The direction of a transfer; `put` carries what `fopen` finds. -/
inductive Op where
  | get
  | put (file : Option (List Byte))
  | other

/-- What one call of `SockClient::start` finds. -/
structure Start where
  clientSeq : UInt32
  op : Op
  request : Payload
  stack : List Byte
  canOpen : Bool

inductive ClientPc where
  /-- `main` asks for a request, and creates a `SockClient` for it -/
  | main
  | handshake (i : Start)
  | header (i : Start)
  | request (i : Start)
  | file (i : Start) (content : List Byte)
  | response (i : Start)
  | recvFile (i : Start) (len : Int)
  | linger
  | halted

structure Client where
  /-- the static flag of `start` -/
  ifHandShake : Bool
  /-- the memory of the objects still to be created -/
  objects : List SockLib
  starts : List Start
  pc : ClientPc

namespace Client

variable (c : Client)

/-- `start` returns an error, and `main` goes on with a new object. -/
def fail : Client := { c with pc := .main }

/-- `start` after the handshake. -/
def sendRequest (i : Start) : Client :=
  match i.op with
  | .get => { c with pc := .header i }
  | .put (some _) => { c with pc := .header i }
  | .put none => c.fail
  | .other => c.fail

/-- The next call of `start` on the same object. -/
def start : Client :=
  match c.starts with
  | [] => { c with pc := .halted }
  | i :: rest =>
      let c' := { c with starts := rest }
      if c.ifHandShake then { c' with pc := .handshake i } else c'.sendRequest i

/-- The request header: `header.len` counts the request record and the file. -/
def requestHeader (i : Start) : Payload :=
  let bytes := match i.op with
    | .put (some content) =>
        msgHeader msgTypeReqPut [] (htonl (64 + ftell content.length))
    | _ => msgHeader msgTypeReqGet [] (htonl 64)
  .ofBytes (bytes ++ i.stack)

def call : Option Call :=
  match c.pc with
  | .main =>
      match c.starts, c.objects with
      | _ :: _, memory :: _ => some (.udpInit defaultWindowSize memory)
      | _, _ => none
  | .handshake i => some (.clientHandshake i.clientSeq i.stack)
  | .header i => some (.sockSendtoEx (requestHeader i) false)
  | .request i => some (.sockSendtoEx i.request false)
  | .file _ content => some (.sendFile (some content))
  | .response _ => some (.sockRecvfrom sizeofMsgHeader)
  | .recvFile i len => some (.recvFile i.canOpen len)
  | .linger => some (.srvWait4cnn 2)
  | .halted => none

def resume (r : Ret) : Client :=
  match c.pc, r with
  | .main, .code r =>
      let c' := { c with objects := c.objects.tail }
      if r = 0 then c'.start else c'.fail
  -- `ifHandShake` is static: later objects do not shake hands
  | .handshake i, .handshake r _ _ =>
      if r = 0 then { c with ifHandShake := false }.sendRequest i else c.fail
  | .header i, .code r => if r = 0 then { c with pc := .request i } else c.fail
  | .request i, .code r =>
      if r = 0 then
        match i.op with
        | .put (some content) => { c with pc := .file i content }
        | _ => { c with pc := .response i }
      else c.fail
  | .file i _, .code r => if r = 0 then { c with pc := .response i } else c.fail
  -- the type is looked at before the length
  | .response i, .received r bytes =>
      if r ≠ 0 then c.fail
      else if headerType bytes ≠ msgTypeRespOk then c.fail
      else if 0 < headerLen bytes then { c with pc := .recvFile i (toInt (headerLen bytes)) }
      else { c with pc := .linger }
  | .recvFile _ _, .file r _ => if r = 0 then { c with pc := .linger } else c.fail
  | .linger, .code _ => c.start
  | _, _ => c

end Client

/-! ## The server -/

/-- What one call of `SockServer::client_handler` finds. -/
structure Handle where
  /-- whether `fopen` opens the file of this name for writing -/
  canOpen : List Byte → Bool
  /-- the file of a GET -/
  file : Option (List Byte)
  padding : List Byte
  stack : List Byte

/-- `request.filename`, as far as it stands in the record. -/
def recordFilename (record : List Byte) : List Byte := cstr (record.drop hostnameLength)

/-- `fopen` of the target of a PUT.  Without a name the path is the directory `FILE_DIR_ROOT`, which cannot be
opened. -/
def Handle.opens (h : Handle) (record : List Byte) : Bool :=
  recordFilename record ≠ [] && h.canOpen (recordFilename record)

inductive ServerPc where
  | handshake
  | header (h : Handle)
  | request (h : Handle) (type : Byte) (len : UInt32)
  | recvFile (h : Handle) (record : List Byte) (len : Int)
  | linger (h : Handle)
  /-- `client_handler` after `recv_data`: the type of the request and the result -/
  | respond (h : Handle) (type resp : Byte)
  | sendFile (content : List Byte)
  | halted

structure Server where
  serverSeq : UInt32
  handles : List Handle
  pc : ServerPc

namespace Server

variable (s : Server)

/-- The next call of `client_handler`. -/
def clientHandler : Server :=
  match s.handles with
  | [] => { s with pc := .halted }
  | h :: rest => { s with handles := rest, pc := .header h }

/-- The response and the file that follows it. -/
def response (h : Handle) (type resp : Byte) : Byte × UInt32 :=
  if type = msgTypeReqGet then
    match h.file with
    | none => (msgTypeRespNoFile, 0)
    | some content => (resp, ftell content.length)
  else (resp, 0)

/-- The response header; its length is not converted to network byte order. -/
def responseHeader (h : Handle) (type resp : Byte) : Payload :=
  let r := response h type resp
  .ofBytes (msgHeader r.1 h.padding r.2 ++ h.stack)

/-- `recv_data` after the request record. -/
def receiveFile (h : Handle) (record : List Byte) (type : Byte) (len : UInt32) : Server :=
  if type = msgTypeReqPut then { s with pc := .recvFile h record (toInt (len - 64)) }
  else { s with pc := .respond h type msgTypeRespOk }

def call : Option Call :=
  match s.pc with
  | .handshake => some (.serverHandshake s.serverSeq)
  | .header _ => some (.sockRecvfrom sizeofMsgHeader)
  | .request _ _ _ => some (.sockRecvfrom sizeofMsgRequest)
  | .recvFile h record len => some (.recvFile (h.opens record) len)
  | .linger _ => some (.srvWait4cnn 25)
  | .respond h type resp => some (.sockSendtoEx (responseHeader h type resp) false)
  | .sendFile content => some (.sendFile (some content))
  | .halted => none

def resume (r : Ret) : Server :=
  match s.pc, r with
  | .handshake, .handshake r _ _ => if r = 0 then s.clientHandler else { s with pc := .halted }
  -- `recv_data`: the header, the request record, and the file of a PUT
  | .header h, .received r bytes =>
      let type := headerType bytes
      let len := htonl (headerLen bytes)
      if r ≠ 0 then { s with pc := .respond h 0 msgTypeRespFailToGetHeader }
      else if type = msgTypeReqGet ∧ len ≠ 64 then
        { s with pc := .respond h type msgTypeRespWrongHeader }
      else if type = msgTypeReqGet ∨ type = msgTypeReqPut then
        if 0 < len then { s with pc := .request h type len }
        -- the record is still what `memset` left
        else s.receiveFile h (List.replicate sizeofMsgRequest.toNat 0) type len
      else { s with pc := .respond h type msgTypeRespUnknownType }
  | .request h type len, .received r record =>
      if r ≠ 0 then { s with pc := .respond h type msgTypeRespFailToGetInfo }
      else s.receiveFile h record type len
  | .recvFile h _ _, .file r _ =>
      if r = 0 then { s with pc := .linger h }
      else { s with pc := .respond h msgTypeReqPut msgTypeRespFailToRecvFile }
  | .linger h, .code _ => { s with pc := .respond h msgTypeReqPut msgTypeRespOk }
  -- after the response a GET sends the file, when there is one
  | .respond h type resp, .code r =>
      match h.file with
      | some content =>
          if r = 0 ∧ type = msgTypeReqGet ∧ resp = msgTypeRespOk then
            { s with pc := .sendFile content }
          else s.clientHandler
      | none => s.clientHandler
  | .sendFile _, .code _ => s.clientHandler
  | _, _ => s

end Server

/-! ## Both -/

inductive Program where
  | client (c : Client)
  | server (s : Server)

/-- The programs of the two sides. -/
def ftpApp : App Program where
  call
    | .client c => c.call
    | .server s => s.call
  resume
    | .client c, r => .client (c.resume r)
    | .server s, r => .server (s.resume r)

/-- A client process that has created its first object and calls `start`, and a server process. -/
def ftpPrograms (c : Client) (s : Server) : Side → Program
  | .client => .client c.start
  | .server => .server s

/-- Both processes after `udp_init`. -/
def ftpStart (memory : Side → SockLib) (c : Client) (s : Server) : Net (Endpoint Program) Datagram :=
  sessionStart (fun t => (memory t).udpInit defaultWindowSize) (ftpPrograms c s)

/-- A call of `start` that asks for the file `a`, and a call of `client_handler`; nothing is behind the
records they send. -/
def sampleStart (op : Op) : Start :=
  ⟨5, op, .ofBytes (List.replicate hostnameLength 0 ++ [97]), [], true⟩
def sampleHandle (file : Option (List Byte)) : Handle := ⟨fun _ => true, file, [], []⟩

/-- A client that makes these calls of `start`, with a new object after each failure, against a server
that handles each of them. -/
def sampleSession (ops : List Op) (files : List (Option (List Byte))) :
    Net (Endpoint Program) Datagram :=
  ftpStart (fun _ => .zero) ⟨true, ops.map fun _ => .zero, ops.map sampleStart, .main⟩
    ⟨9, files.map sampleHandle, .handshake⟩

def handshakeEvents : List (FifoEvent Act Oracle) :=
  [runs .client, runs .server, arrives .server, arrives .client]

/-- The request header and the request record. -/
def recordEvents : List (FifoEvent Act Oracle) :=
  [runs .client, runs .client, runs .server, arrives .server, arrives .client,
    runs .client, runs .client, runs .server, arrives .server, arrives .client]

/-- The handshake, the request header and the request record of the first call of `start`. -/
def requestEvents : List (FifoEvent Act Oracle) := handshakeEvents ++ recordEvents

/-- The same when the first call of `start` has not found its file, so that `main` has created another object
for the second one. -/
def secondObjectEvents : List (FifoEvent Act Oracle) := handshakeEvents ++ runs .client :: recordEvents

end Sample3
end FileTransfer
