import FileTransfer.Lib.Network
import FileTransfer.Udp.Packet

/-!
# One endpoint of `build 2`

`TcpClient` and `TcpServer` send everything with `udpsend` and receive everything with `udprecv`: one
packet at a time, numbered with one bit.  `udpsend` repeats its packet until anything at all arrives.

That the server closes its socket at the end of some commands is not part of the endpoint: from then on
it takes no datagram and sends none, as in a run in which every datagram to it is lost.
-/

namespace FileTransfer
namespace Build2

open Udp

/-- The members that the two functions use. -/
structure Members where
  sendmsg : Udppacket
  recvmsg : Udppacket
  sendSeq : Int
  nextRecSeq : Int
  prevRecvSeq : Int
  currentRecvSeq : Int

/-- The calls a program makes. -/
inductive Call where
  /-- the assignments at the head of the client's `PutFileToServer` -/
  | reset
  | udpsend (m : Message)
  | udprecv
  deriving DecidableEq

/-- What a call returned. -/
inductive Ret where
  | done
  | udpsend (sendmsg : Udppacket)
  | udprecv (recvmsg : Udppacket)

/-- A program: the call it makes next, and how it goes on with what the call returned. -/
structure App (π : Type*) where
  call : π → Option Call
  resume : π → Ret → π

inductive Control where
  /-- between two calls -/
  | idle
  /-- `udpsend`: the loop that waits for the acknowledgement -/
  | udpsend (m : Message)
  | udprecv
  deriving DecidableEq

/-- What happened at an endpoint. -/
structure History where
  /-- messages passed to `udpsend` -/
  passed : List Message
  /-- number of calls of `udpsend` that have returned -/
  completed : Nat
  /-- packets returned by `udprecv`, each with the origin of the datagram it was read from -/
  returned : List (Udppacket × Origin)

def History.empty : History := ⟨[], 0, []⟩

structure Endpoint (π : Type*) where
  side : Side
  mem : Members
  ctl : Control
  app : π
  hist : History

/-- `Send_Seq= abs(Send_Seq-1)`, and the same for `next_Rec_Seq` -/
def flip (x : Int) : Int := (x - 1).natAbs

/-- What the texts of the acknowledgements start with. -/
def ackPrefix : Side → String
  | .client => "clientACK"
  | .server => "serverACK"

namespace Members

variable (x : Members)

def fill (m : Message) : Members := { x with sendmsg := ⟨x.sendSeq, m.data⟩ }

def read (d : Datagram) : Members × Int :=
  let got := recvfrom (x.recvmsg.clear bufferLength) sizeofUdppacket d
  ({ x with recvmsg := got.1 }, got.2)

/-- The number of the packet that carries an acknowledgement stays what it was. -/
def answer (who : String) (junk : List Byte) : Members :=
  { x with
    sendmsg := { x.sendmsg with
      data := x.sendmsg.data.overlay ((ackData who x.currentRecvSeq junk).take bufferLength) } }

def reset : Members := { x with sendSeq := 0, nextRecSeq := 0 }

end Members

namespace Endpoint

variable {π : Type*} (A : App π) (e : Endpoint π)

/-- Return from a call to the program. -/
def finish (r : Ret) : Endpoint π := { e with ctl := .idle, app := A.resume e.app r }

/-- The datagrams of a message: a message with a length is sent as that many bytes, only the client's
first copy is whole. -/
def sendFirst (m : Message) : Datagram :=
  match e.side with
  | .client => ⟨e.mem.sendmsg, sizeofUdppacket, .message m⟩
  | .server => ⟨e.mem.sendmsg, if m.sendflag = 0 then sizeofUdppacket else m.sendflag, .message m⟩

def sendAgain (m : Message) : Datagram :=
  ⟨e.mem.sendmsg, if m.sendflag = 0 then sizeofUdppacket else m.sendflag, .message m⟩

def beginUdpsend (m : Message) : Endpoint π × List Datagram :=
  let e' : Endpoint π :=
    { e with
      mem := e.mem.fill m
      ctl := .udpsend m
      hist := { e.hist with passed := e.hist.passed ++ [m] } }
  (e', [e'.sendFirst m])

/-- Anything that arrives ends the loop of `udpsend`. -/
def recvInUdpsend (d : Datagram) : Endpoint π :=
  let mem := (e.mem.read d).1
  -- whatever it was, it counts as the acknowledgement
  ({ e with
    mem := { mem with sendSeq := flip mem.sendSeq }
    hist := { e.hist with completed := e.hist.completed + 1 } } : Endpoint π).finish A
      (.udpsend mem.sendmsg)

/-- The test at the end of the loop of `udprecv`, and its return. -/
def udprecvLoop (o : Origin) : Endpoint π :=
  let x := e.mem
  -- `while(current_Recv_Seq==prev_Recv_Seq)`
  if x.currentRecvSeq = x.prevRecvSeq then e
  else
    ({ e with
      mem := { x with prevRecvSeq := x.currentRecvSeq, nextRecSeq := flip x.nextRecSeq }
      hist := { e.hist with returned := e.hist.returned ++ [(x.recvmsg, o)] } } :
        Endpoint π).finish A (.udprecv x.recvmsg)

/-- Both branches of the test of `next_Rec_Seq` send the same answer. -/
def recvInUdprecv (junk : List Byte) (d : Datagram) : Endpoint π × List Datagram :=
  let got := e.mem.read d
  -- an empty datagram is not answered
  if 0 < got.2 then
    let x := ({ got.1 with currentRecvSeq := got.1.recvmsg.seqNo } : Members).answer
      (ackPrefix e.side) junk
    (({ e with mem := x } : Endpoint π).udprecvLoop A d.origin,
      [.whole x.sendmsg (.ack x.currentRecvSeq)])
  else (({ e with mem := got.1 } : Endpoint π).udprecvLoop A d.origin, [])

/-- Begin a call. -/
def begin : Call → Endpoint π × List Datagram
  | .reset => (({ e with mem := e.mem.reset } : Endpoint π).finish A .done, [])
  | .udpsend m => e.beginUdpsend m
  | .udprecv => ({ e with ctl := .udprecv }, [])

/-- The call an idle endpoint makes next. -/
def nextCall : Option Call :=
  match e.ctl with
  | .idle => A.call e.app
  | _ => none

/-- `select` returns `0`. -/
def timeout : Option (Endpoint π × List Datagram) :=
  match e.ctl with
  | .udpsend m => some (e, [e.sendAgain m])
  | _ => none

/-- `recvfrom` returns a datagram. -/
def packet (junk : List Byte) (d : Datagram) : Option (Endpoint π × List Datagram) :=
  match e.ctl with
  | .idle => none
  | .udpsend _ => some (e.recvInUdpsend A d, [])
  | .udprecv => some (e.recvInUdprecv A junk d)

end Endpoint

/-- The steps an endpoint takes without a datagram. -/
inductive Act where
  | run
  | timeout
  deriving DecidableEq

/-- The endpoint as a party of a network; what lies behind the text of an acknowledgement comes with
the datagram. -/
def machine {π : Type*} (A : App π) : Machine (Endpoint π) Act (List Byte) Datagram where
  act e
    | .run => (e.nextCall A).map fun c => e.begin A c
    | .timeout => e.timeout
  recv e junk d := e.packet A junk d

end Build2
end FileTransfer
