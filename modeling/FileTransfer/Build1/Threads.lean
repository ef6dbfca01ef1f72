import FileTransfer.Build1.Upload
import FileTransfer.Lib.Run
import Mathlib.Logic.Function.Basic

/-!
# The threaded server (`Server/Server.cpp`)

`TcpServer::start` accepts connections and starts a `TcpThread` for each; the threads share the globals
`s1` (the socket accepted last) and `szbuffer`.  A step of the server is one `accept`, `memset`, `recv`,
`send`, `strcmp` or call of one thread.  Sockets are named by the order in which their connections were
accepted; the values returned by failing socket calls are left out.
-/

namespace FileTransfer
namespace Build1

/-- The commands `TcpThread::run` compares with, in this order. -/
inductive Command where
  | list
  | get
  | put
  | delete
  deriving DecidableEq, Repr

/-- The texts of the commands: `LIST`, `GET`, `PUT` and `DELETE` with a carriage return. -/
def Command.text : Command → List Byte
  | .list => [76, 73, 83, 84, 13]
  | .get => [71, 69, 84, 13]
  | .put => [80, 85, 84, 13]
  | .delete => [68, 69, 76, 69, 84, 69, 13]

structure File where
  name : List Byte
  content : List Byte
  /-- the attribute is `_A_ARCH`, so that `listFiles` shows the file -/
  archive : Bool
  deriving DecidableEq

/-- The files of a directory, in the order of `_findnext`. -/
abbrev Directory := List File

namespace Directory

variable (dir : Directory)

def content (name : List Byte) : Option (List Byte) :=
  (dir.find? fun f => f.name == name).map File.content

def remove (name : List Byte) : Directory := dir.filter fun f => f.name != name

/-- `fopen(name,"wb")` and the bytes written so far: an old file keeps its place, a new one comes last. -/
def write (name content : List Byte) : Directory :=
  match dir.content name with
  | none => dir ++ [⟨name, content, true⟩]
  | some _ => dir.map fun f => if f.name = name then ⟨name, content, true⟩ else f

/-- The names `listFiles` sends. -/
def listed : List (List Byte) := (dir.filter File.archive).map File.name

end Directory

/-- A character array of this size that holds a string and then zeros. -/
def charArray (size : Nat) (text : List Byte) : List Byte :=
  (text ++ List.replicate size 0).take size

/-- Where one of the functions that serve a command stands, with its live locals. -/
inductive Handler where
  /-- `listFiles`: the names still to be sent; the end mark follows -/
  | listFiles (names : List (List Byte))
  /-- `PutFileToClient` before its `recv` -/
  | putName
  /-- `PutFileToClient` before the `send` of the record or of the error text -/
  | putHead (name : List Byte)
  /-- the loop of `PutFileToClient` -/
  | putData (name : List Byte) (sizeleft : Int) (offset : Nat)
  /-- at the head of that loop behind its `fclose` -/
  | putClosed (sizeleft : Int)
  /-- `GetFileFromClient` before a `recv` -/
  | getFile (g : GetFile)
  /-- `DeleteServerFiles` before its `recv` -/
  | deleteName (filenames : Fileinfo)
  /-- `DeleteServerFiles` before its `send` -/
  | deleteReply (data : List Byte)
  | closing
  | returned

/-- What a handler does next. -/
inductive Action where
  /-- `recv` of at most so many bytes, and how it goes on -/
  | recv (want : Nat) (next : Directory → List Byte → Handler × Directory)
  | send (data : List Byte) (next : Handler)
  | closesocket
  | leave
  /-- what comes next is undefined -/
  | undefined

/-- `PutFileToClient` has received a name: the record of the file, or an error text. -/
def Handler.putHeadAction (dir : Directory) (name : List Byte) : Action :=
  match dir.content name with
  | none =>
      -- "No such a file"
      let text := [78, 111, 32, 115, 117, 99, 104, 32, 97, 32, 102, 105, 108, 101]
      .send (charArray filenameLength text) .closing
  | some content =>
      let record := charArray filenameLength name ++ leBytes (UInt32.ofNat content.length)
      let sizeleft := toLong content.length
      .send record (if 0 ≤ sizeleft then .putData name sizeleft 0 else .closing)

/-- The next action of a handler; `removeFails` is the result of `remove`. -/
def Handler.action (removeFails : Bool) (dir : Directory) : Handler → Action
  | .listFiles [] => .send (charArray filenameLength [64]) .returned
  | .listFiles (name :: names) => .send (charArray filenameLength name) (.listFiles names)
  | .putName => .recv filenameLength fun dir got =>
      (.putHead (cstr (charArray filenameLength got)), dir)
  | .putHead name => putHeadAction dir name
  | .putData name sizeleft offset =>
      let rest := ((dir.content name).getD []).drop offset
      let next := sizeleft - bufferLength
      if bufferLength < sizeleft then
        .send (rest.take bufferLength) (.putData name next (offset + bufferLength))
      else .send (rest.take sizeleft.toNat) (.putClosed next)
  -- `while (sizeleft >= 0)`: behind a last buffer that is full the file is read and closed again
  | .putClosed sizeleft => if 0 ≤ sizeleft then .undefined else .closesocket
  | .getFile g =>
      match g.finished with
      | some _ => .closesocket
      | none => .recv g.want fun dir got =>
          match g.take got with
          | .data info fsize written =>
              (.getFile (.data info fsize written), dir.write (cstr info.filename) written)
          | .record mem => (.getFile (.record mem), dir)
  -- the path that `getcwd` and `strcat` make is not used
  | .deleteName filenames => .recv sizeofFileinfo fun dir got =>
      let name := cstr (filenames.overlay got).filename
      match dir.content name with
      | some _ =>
          if removeFails then (.returned, dir)
          else (.deleteReply ((charArray filenameLength name).take 4), dir.remove name)
      | none => (.deleteReply (charArray filenameLength []), dir)
  | .deleteReply data => .send data .closing
  | .closing => .closesocket
  | .returned => .leave

/-- The handler `run` calls for a command; `mem` is what its record holds. -/
def Command.handler (dir : Directory) (mem : Fileinfo) : Command → Handler
  -- `_findfirst` finds `.` in any directory
  | .list => .listFiles dir.listed
  | .get => .putName
  | .put => .getFile (.record mem)
  | .delete => .deleteName mem

/-- Where `TcpThread::run` stands. -/
inductive Pc where
  | memset
  | recv
  /-- before the `strcmp` with this command -/
  | compare (c : Command)
  /-- before the `send` that repeats the command -/
  | reply (c : Command)
  | call (c : Command)
  /-- inside the function called for this command, with its socket argument -/
  | handler (c : Command) (sock : Nat) (h : Handler)
  | returned

/-- Where `run` goes on after the `if` of this command. -/
def Command.next : Command → Pc
  | .list => .compare .get
  | .get => .compare .put
  | .put => .compare .delete
  | .delete => .returned

/-- A `TcpThread`.  `request` is what its `recv` in `run` returned; it is history. -/
structure Thread where
  cs : Nat
  pc : Pc
  request : List Byte

/-- A connection: what the client has sent so far, and what of it is still to be received. -/
structure Conn where
  sent : List Byte
  incoming : List Byte
  closed : Bool

/-- What a thread did to a socket, and which function it called with it. -/
inductive Io where
  | recv (thread sock : Nat) (got : List Byte)
  | send (thread sock : Nat) (data : List Byte)
  | call (thread : Nat) (c : Command) (sock : Nat)
  | close (thread sock : Nat)
  deriving DecidableEq

/-- The length of `szbuffer`. -/
def requestLength : Nat := 128

structure Server where
  s1 : Nat
  szbuffer : List Byte
  conns : Nat → Conn
  threads : List Thread
  dir : Directory
  trace : List Io

/-- The server before the first connection. -/
def Server.start (dir : Directory) : Server where
  s1 := 0
  szbuffer := List.replicate requestLength 0
  conns _ := ⟨[], [], false⟩
  threads := []
  dir := dir
  trace := []

/-- `accept` in `TcpServer::start`, a client, or the next step of a thread: `n` is the number of bytes
a `recv` returns, `mem` what the record of a function called holds, and `removeFails` the result of
`remove`. -/
inductive Event where
  | accept
  | clientSends (i : Nat) (data : List Byte)
  | clientCloses (i : Nat)
  | thread (t n : Nat) (mem : Fileinfo) (removeFails : Bool)

namespace Server

variable (s : Server)

/-- `recv` on this socket returns `n` bytes; none only when the client has closed. -/
def recv (t sock want n : Nat) : Option (List Byte × Server) :=
  let conn := s.conns sock
  if n ≤ want ∧ n ≤ conn.incoming.length ∧ (n = 0 → conn.incoming = [] ∧ conn.closed = true) then
    let got := conn.incoming.take n
    some (got, { s with
      conns := Function.update s.conns sock { conn with incoming := conn.incoming.drop n }
      trace := s.trace ++ [.recv t sock got] })
  else none

def goto (t : Nat) (th : Thread) (pc : Pc) : Server :=
  { s with threads := s.threads.set t { th with pc := pc } }

def note (io : Io) : Server := { s with trace := s.trace ++ [io] }

/-- One step of a function that serves a command. -/
def handlerStep (t : Nat) (th : Thread) (c : Command) (sock : Nat) (n : Nat) :
    Action → Option Server
  | .recv want next =>
      (s.recv t sock want n).map fun (got, s') =>
        let (h, dir) := next s'.dir got
        ({ s' with dir := dir } : Server).goto t th (.handler c sock h)
  | .send data next => some ((s.note (.send t sock data)).goto t th (.handler c sock next))
  | .closesocket => some ((s.note (.close t sock)).goto t th (.handler c sock .returned))
  | .leave => some (s.goto t th c.next)
  | .undefined => none

/-- The next step of the thread `t`. -/
def threadStep (t : Nat) (th : Thread) (n : Nat) (mem : Fileinfo) (removeFails : Bool) :
    Option Server :=
  match th.pc with
  | .memset =>
      some (({ s with szbuffer := List.replicate requestLength 0 } : Server).goto t th .recv)
  -- the global socket, not the one the thread was created with
  | .recv =>
      (s.recv t s.s1 requestLength n).map fun (got, s') =>
        ({ s' with szbuffer := got ++ s'.szbuffer.drop got.length } : Server).goto t
          { th with request := got } (.compare .list)
  | .compare c =>
      -- the global buffer, which another thread may have filled
      let equal := cstr s.szbuffer = c.text
      some (s.goto t th (if equal then (if c = .list then .call c else .reply c) else c.next))
  | .reply c => some ((s.note (.send t s.s1 s.szbuffer)).goto t th (.call c))
  | .call c =>
      some ((s.note (.call t c s.s1)).goto t th (.handler c s.s1 (c.handler s.dir mem)))
  | .handler c sock h => s.handlerStep t th c sock n (h.action removeFails s.dir)
  | .returned => none

/-- The server and its clients. -/
def step : Event → Option Server
  -- `s1 = accept(...)`, and the thread keeps a copy in `cs`
  | .accept =>
      some { s with
        s1 := s.threads.length
        threads := s.threads ++ [⟨s.threads.length, .memset, []⟩] }
  | .clientSends i data =>
      let conn := { s.conns i with
        sent := (s.conns i).sent ++ data
        incoming := (s.conns i).incoming ++ data }
      some { s with conns := Function.update s.conns i conn }
  | .clientCloses i =>
      some { s with conns := Function.update s.conns i { s.conns i with closed := true } }
  | .thread t n mem removeFails => s.threads[t]?.bind fun th => s.threadStep t th n mem removeFails

end Server

end Build1
end FileTransfer
