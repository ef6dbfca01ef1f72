import FileTransfer.Lib.Network
import FileTransfer.Udp.Packet

/-!
# One endpoint of `Assign3_zcl`

`TcpClient` and `TcpServer` send and receive with the same four functions.  `udplastsend` and
`udplastrecv` carry commands, announcements and final chunks, one packet at a time; `udpsend` and
`udprecv` carry the chunks before the final one, in pairs of half-filled packets.  All four read
whatever arrives on the one socket.

`Control` says where an endpoint stands: between two calls, or in a wait (`select` or `recvfrom`) of
one of the four functions, with the local variables that are live there.  The two classes differ in a
few lengths and texts, which depend on the field `side`.  `History` records what the calls were given
and what they returned, for the statements about runs.
-/

namespace FileTransfer
namespace Assign3

open Udp

/-- The members that the four functions use. -/
structure Members where
  sendmsg : Udppacket
  sendmsg2 : Udppacket
  recvmsg : Udppacket
  recvmsg2 : Udppacket
  sendSeq : Int
  nextRecSeq : Int
  prevRecvSeq : Int
  currentRecvSeq : Int
  sendTempSeq : Int
  recTempSeq : Int

/-- The functions of the program that set numbers before their first packet. -/
inductive Reset where
  /-- the client's `PutFileToServer` -/
  | putFileToServer
  /-- the server's `PutFileToClient` -/
  | putFileToClient
  /-- `GetFileFromServer` and `GetFileFromClient` -/
  | getFile
  deriving DecidableEq

/-- The calls a program makes. -/
inductive Call where
  | reset (r : Reset)
  | udpsend (sbuffer : Buffer)
  | udprecv
  | udplastsend (m : Message)
  | udplastrecv
  deriving DecidableEq

/-- What a call returned. -/
inductive Ret where
  | done
  | udpsend (returnbuffer : Buffer)
  | udprecv (returnbuffer : Option Buffer)
  | udplastsend (sendmsg : Udppacket)
  | udplastrecv (recvmsg : Udppacket)

/-- A program: the call it makes next, and how it goes on with what the call returned. -/
structure App (π : Type*) where
  call : π → Option Call
  resume : π → Ret → π

inductive Control where
  /-- between two calls -/
  | idle
  /-- `udpsend`, first loop: the outer and the inner wait -/
  | udpsendFirst (resendcount : Nat) (slideid1 slideid2 : Bool)
  | udpsendSecond (resendcount : Nat) (slideid1 slideid2 : Bool)
  /-- `udpsend`, second loop: the outer and the inner wait -/
  | drainFirst (slideid1 slideid2 : Bool)
  | drainSecond (slideid1 slideid2 : Bool)
  /-- `udprecv`: the two reads; the second one knows what the first one returned -/
  | udprecvFirst
  | udprecvSecond (ibytesrecv : Int)
  /-- `udplastsend`: the loop that waits for the acknowledgement, and the wait behind it -/
  | udplastsendWait (m : Message) (resendcount : Nat)
  | udplastsendDrain
  | udplastrecv
  deriving DecidableEq

/-- What happened at an endpoint. -/
structure History where
  /-- messages passed to `udplastsend` -/
  passed : List Message
  /-- number of calls of `udplastsend` that have returned -/
  completed : Nat
  /-- packets returned by `udplastrecv`, each with the origin of the datagram it was read from -/
  returned : List (Udppacket × Origin)
  /-- chunks passed to `udpsend` -/
  chunks : List Buffer
  /-- number of calls of `udpsend` that have returned -/
  chunksSent : Nat
  /-- the results of `udprecv` other than `NULL` -/
  chunksAccepted : List Buffer

def History.empty : History := ⟨[], 0, [], [], 0, []⟩

structure Endpoint (π : Type*) where
  side : Side
  mem : Members
  ctl : Control
  app : π
  hist : History

/-- What lies in memory behind the texts of the acknowledgements. -/
structure Junk where
  first : List Byte
  second : List Byte

/-- `Send_Seq= abs(Send_Seq+1)%2`, and the same for `next_Rec_Seq` -/
def toggle (x : Int) : Int := ((x + 1).natAbs % 2 : Nat)

/-- What the texts of `udplastrecv` start with. -/
def ackPrefix : Side → String
  | .client => "clientACK"
  | .server => "serverACK"

/-- `memcmp(p.data,"A",1)==0&&p.seqNo == n` -/
def acknowledges (p : Udppacket) (n : Int) : Bool :=
  p.data.bytes.take 1 = ascii "A" && p.seqNo = n

/-- `memcpy` of the two halves -/
def joinHalves (p q : Udppacket) : Buffer :=
  .ofBytes (p.data.bytes.take packetLength ++ q.data.bytes.take packetLength)

namespace Members

variable (x : Members)

/-- The packet with another half in its data field. -/
def fill (p : Udppacket) (seqNo : Int) (half : List Byte) : Udppacket :=
  ⟨seqNo, p.data.overlay half⟩

/-- `sendmsg` and `sendmsg2` as `udpsend` fills them. -/
def fillPair (sbuffer : Buffer) : Members :=
  { x with
    sendmsg := fill x.sendmsg x.sendTempSeq (sbuffer.bytes.take packetLength)
    sendmsg2 := fill x.sendmsg2 (x.sendTempSeq + 1) (sbuffer.bytes.drop packetLength) }

/-- The pair on the wire. -/
def pair : List Datagram := [.whole x.sendmsg .pair, .whole x.sendmsg2 .pair]

/-- The outer wait of `udpsend` reads a datagram. -/
def readFirst (cap : Nat) (d : Datagram) : Members :=
  { x with recvmsg := (recvfrom (x.recvmsg.clear bufferLength) cap d).1 }

/-- The inner wait of `udpsend` reads a datagram; it clears the other packet. -/
def readSecond (d : Datagram) : Members :=
  { x with
    recvmsg := x.recvmsg.clear bufferLength
    recvmsg2 := (recvfrom x.recvmsg2 sizeofUdppacket d).1 }

/-- `udprecv` answers with a text in both packets that it sends. -/
def answerBoth (who : String) (j : Junk) : Members :=
  let text n junk := (ackData who n junk).take packetLength
  { x with
    sendmsg := fill x.sendmsg x.recvmsg.seqNo (text x.recvmsg.seqNo j.first)
    sendmsg2 := fill x.sendmsg2 x.recvmsg2.seqNo (text x.recvmsg2.seqNo j.second) }

/-- `udprecv` refuses: both texts go through `sendmsg`. -/
def refuseFirst (j : Junk) : Members :=
  { x with
    sendmsg := fill x.sendmsg x.recvmsg.seqNo
      ((ackData "NAK" x.recvmsg.seqNo j.first).take packetLength) }

def refuseSecond (j : Junk) : Members :=
  { x with
    sendmsg := fill x.sendmsg x.recvmsg2.seqNo
      ((ackData "NAK" x.recvmsg2.seqNo j.second).take packetLength) }

/-- `sendmsg` as `udplastsend` fills it. -/
def fillLast (m : Message) : Members := { x with sendmsg := ⟨x.sendSeq, m.data⟩ }

/-- `udplastrecv` answers.  The number of the packet it sends stays what it was. -/
def answerLast (who : String) (j : Junk) : Members :=
  { x with
    sendmsg := { x.sendmsg with
      data := x.sendmsg.data.overlay ((ackData who x.currentRecvSeq j.first).take bufferLength) } }

def reset : Reset → Members
  | .putFileToServer => { x with sendTempSeq := 0, sendSeq := 0, nextRecSeq := 0 }
  | .putFileToClient => { x with sendTempSeq := 0 }
  | .getFile => { x with recTempSeq := 0 }

end Members

namespace Endpoint

variable {π : Type*} (A : App π) (e : Endpoint π)

/-- Return from a call to the program. -/
def finish (r : Ret) : Endpoint π := { e with ctl := .idle, app := A.resume e.app r }

/-! ## `udpsend` -/

def beginUdpsend (sbuffer : Buffer) : Endpoint π × List Datagram :=
  let mem := e.mem.fillPair sbuffer
  ({ e with
    mem := mem
    ctl := .udpsendFirst 0 false false
    hist := { e.hist with chunks := e.hist.chunks ++ [sbuffer] } }, mem.pair)

/-- The test at the end of the first loop of `udpsend`. -/
def udpsendLoop (arrived : Bool) (resendcount : Nat) (slideid1 slideid2 : Bool) : Endpoint π :=
  -- `while((outfds!=1&&resendcount<=3)||!(slideid1&&slideid2))`
  if (arrived = false ∧ resendcount ≤ 3) ∨ ¬ (slideid1 ∧ slideid2) then
    { e with ctl := .udpsendFirst resendcount slideid1 slideid2 }
  else { e with ctl := .drainFirst slideid1 slideid2 }

/-- `udpsend` returns. -/
def finishUdpsend : Endpoint π :=
  ({ e with
    mem := { e.mem with sendTempSeq := e.mem.sendTempSeq + 2 }
    hist := { e.hist with chunksSent := e.hist.chunksSent + 1 } } : Endpoint π).finish A
      (.udpsend (joinHalves e.mem.sendmsg e.mem.sendmsg2))

/-- The test at the end of the second loop of `udpsend`, when a datagram has arrived. -/
def drainLoop (slideid1 slideid2 : Bool) : Endpoint π :=
  -- `while(outfds!=1||!(slideid1&&slideid2))`
  if ¬ (slideid1 ∧ slideid2) then { e with ctl := .drainFirst slideid1 slideid2 }
  else e.finishUdpsend A

/-- How much of a datagram the outer waits of `udpsend` read. -/
def firstCap : Nat :=
  match e.side with
  | .client => packetLength
  | .server => sizeofUdppacket

def drainCap : Nat :=
  match e.side with
  | .client => sizeofUdppacket
  | .server => packetLength

def recvInFirst (resendcount : Nat) (slideid1 slideid2 : Bool) (d : Datagram) : Endpoint π :=
  let mem := e.mem.readFirst e.firstCap d
  -- a flag that is set stays set
  let slideid1 := slideid1 || acknowledges mem.recvmsg mem.sendmsg.seqNo
  { e with mem := mem, ctl := .udpsendSecond resendcount slideid1 slideid2 }

def recvInSecond (resendcount : Nat) (slideid1 slideid2 : Bool) (d : Datagram) : Endpoint π :=
  let mem := e.mem.readSecond d
  let slideid2 := slideid2 || acknowledges mem.recvmsg2 mem.sendmsg2.seqNo
  ({ e with mem := mem } : Endpoint π).udpsendLoop true resendcount slideid1 slideid2

def recvInDrainFirst (slideid1 slideid2 : Bool) (d : Datagram) : Endpoint π :=
  let mem := e.mem.readFirst e.drainCap d
  let slideid1 := slideid1 || acknowledges mem.recvmsg mem.sendmsg.seqNo
  { e with mem := mem, ctl := .drainSecond slideid1 slideid2 }

def recvInDrainSecond (slideid1 slideid2 : Bool) (d : Datagram) : Endpoint π :=
  let mem := e.mem.readSecond d
  let slideid2 := slideid2 || acknowledges mem.recvmsg2 mem.sendmsg2.seqNo
  ({ e with mem := mem } : Endpoint π).drainLoop A slideid1 slideid2

/-! ## `udprecv` -/

def recvInPairFirst (d : Datagram) : Endpoint π :=
  let got := recvfrom (e.mem.recvmsg.clear packetLength) sizeofUdppacket d
  { e with mem := { e.mem with recvmsg := got.1 }, ctl := .udprecvSecond got.2 }

/-- The pair is the next one, or the one before it, or neither. -/
def answerPair (j : Junk) : Endpoint π × List Datagram :=
  let x := { e.mem with currentRecvSeq := e.mem.recvmsg.seqNo }
  if x.recvmsg.seqNo = x.recTempSeq ∧ x.recvmsg2.seqNo = x.recTempSeq + 1 then
    -- the next pair: acknowledged, and the chunk returned
    let chunk := joinHalves x.recvmsg x.recvmsg2
    let mem := x.answerBoth "ACK" j
    (({ e with
      mem := { mem with recTempSeq := mem.recTempSeq + 2 }
      hist := { e.hist with chunksAccepted := e.hist.chunksAccepted ++ [chunk] } } :
        Endpoint π).finish A (.udprecv (some chunk)),
      [.whole mem.sendmsg .pairAck, .whole mem.sendmsg2 .pairAck])
  else if x.recvmsg.seqNo = x.recTempSeq - 2 ∧ x.recvmsg2.seqNo = x.recTempSeq - 1 then
    -- the pair before it: acknowledged once more, and `NULL` returned
    let mem := x.answerBoth "ACK" j
    (({ e with mem := mem } : Endpoint π).finish A (.udprecv none),
      [.whole mem.sendmsg .pairAck, .whole mem.sendmsg2 .pairAck])
  else
    -- neither: the first text goes out before `sendmsg` is filled with the second
    let mem := x.refuseFirst j
    let mem' := mem.refuseSecond j
    (({ e with mem := mem' } : Endpoint π).finish A (.udprecv none),
      [.whole mem.sendmsg .pairNak, .whole mem'.sendmsg .pairNak])

def recvInPairSecond (j : Junk) (ibytesrecv : Int) (d : Datagram) : Endpoint π × List Datagram :=
  let got := recvfrom (e.mem.recvmsg2.clear packetLength) sizeofUdppacket d
  let e' : Endpoint π := { e with mem := { e.mem with recvmsg2 := got.1 } }
  -- `slideid` stays `0` when one of the two datagrams was empty, and both are read again
  if 0 < ibytesrecv ∧ 0 < got.2 then e'.answerPair A j else ({ e' with ctl := .udprecvFirst }, [])

/-! ## `udplastsend` -/

/-- The datagrams of a message: a message with a length is sent as that many bytes, only the client's
first copy is whole. -/
def lastFirst (m : Message) : Datagram :=
  match e.side with
  | .client => ⟨e.mem.sendmsg, sizeofUdppacket, .message m⟩
  | .server => ⟨e.mem.sendmsg, if m.sendflag = 0 then sizeofUdppacket else m.sendflag, .message m⟩

def lastAgain (m : Message) : Datagram :=
  ⟨e.mem.sendmsg, if m.sendflag = 0 then sizeofUdppacket else m.sendflag, .message m⟩

def beginUdplastsend (m : Message) : Endpoint π × List Datagram :=
  let e' : Endpoint π :=
    { e with
      mem := e.mem.fillLast m
      ctl := .udplastsendWait m 0
      hist := { e.hist with passed := e.hist.passed ++ [m] } }
  (e', [e'.lastFirst m])

/-- A timeout in the first loop: send again, and give up after the fourth time. -/
def resendLast (m : Message) (resendcount : Nat) : Endpoint π × List Datagram :=
  let ctl := if resendcount + 1 ≤ 3 then .udplastsendWait m (resendcount + 1) else .udplastsendDrain
  ({ e with ctl := ctl }, [e.lastAgain m])

/-- Anything that arrives ends the first loop. -/
def recvInLastWait (d : Datagram) : Endpoint π :=
  { e with mem := e.mem.readFirst sizeofUdppacket d, ctl := .udplastsendDrain }

/-- `udplastsend` returns. -/
def finishUdplastsend : Endpoint π :=
  -- the number changes whether or not an acknowledgement has come
  ({ e with
    mem := { e.mem with sendSeq := toggle e.mem.sendSeq }
    hist := { e.hist with completed := e.hist.completed + 1 } } : Endpoint π).finish A
      (.udplastsend e.mem.sendmsg)

def recvInLastDrain (d : Datagram) : Endpoint π :=
  ({ e with mem := e.mem.readFirst sizeofUdppacket d } : Endpoint π).finishUdplastsend A

/-! ## `udplastrecv` -/

/-- The test at the end of the loop of `udplastrecv`, and its return. -/
def udplastrecvLoop (o : Origin) : Endpoint π :=
  let x := e.mem
  -- `while(current_Recv_Seq==prev_Recv_Seq)`
  if x.currentRecvSeq = x.prevRecvSeq then e
  else
    ({ e with
      mem := { x with prevRecvSeq := x.currentRecvSeq, nextRecSeq := toggle x.nextRecSeq }
      hist := { e.hist with returned := e.hist.returned ++ [(x.recvmsg, o)] } } :
        Endpoint π).finish A (.udplastrecv x.recvmsg)

theorem udplastrecvLoop_same (o : Origin) (h : e.mem.currentRecvSeq = e.mem.prevRecvSeq) :
    e.udplastrecvLoop A o = e :=
  if_pos h

theorem udplastrecvLoop_new (o : Origin) (h : e.mem.currentRecvSeq ≠ e.mem.prevRecvSeq) :
    e.udplastrecvLoop A o =
      ({ e with
        mem := { e.mem with
          prevRecvSeq := e.mem.currentRecvSeq, nextRecSeq := toggle e.mem.nextRecSeq }
        hist := { e.hist with returned := e.hist.returned ++ [(e.mem.recvmsg, o)] } } :
          Endpoint π).finish A (.udplastrecv e.mem.recvmsg) :=
  if_neg h

/-- Both branches of the test of `next_Rec_Seq` send the same answer. -/
def recvInLast (j : Junk) (d : Datagram) : Endpoint π × List Datagram :=
  let got := recvfrom (e.mem.recvmsg.clear bufferLength) sizeofUdppacket d
  let x := { e.mem with recvmsg := got.1 }
  -- an empty datagram is not answered, and leaves `current_Recv_Seq` as it was
  if 0 < got.2 then
    let x := ({ x with currentRecvSeq := x.recvmsg.seqNo } : Members).answerLast (ackPrefix e.side) j
    (({ e with mem := x } : Endpoint π).udplastrecvLoop A d.origin,
      [.whole x.sendmsg (.ack x.currentRecvSeq)])
  else (({ e with mem := x } : Endpoint π).udplastrecvLoop A d.origin, [])

/-! ## Steps -/

/-- Begin a call. -/
def begin : Call → Endpoint π × List Datagram
  | .reset r => (({ e with mem := e.mem.reset r } : Endpoint π).finish A .done, [])
  | .udpsend sbuffer => e.beginUdpsend sbuffer
  | .udprecv => ({ e with ctl := .udprecvFirst }, [])
  | .udplastsend m => e.beginUdplastsend m
  | .udplastrecv => ({ e with ctl := .udplastrecv }, [])

/-- The call an idle endpoint makes next. -/
def nextCall : Option Call :=
  match e.ctl with
  | .idle => A.call e.app
  | _ => none

/-- `select` returns `0`. -/
def timeout : Option (Endpoint π × List Datagram) :=
  match e.ctl with
  -- both packets go out again
  | .udpsendFirst r slideid1 slideid2 =>
      some (e.udpsendLoop false (r + 1) slideid1 slideid2, e.mem.pair)
  -- `break` leaves the inner loop, with `outfds` still `1`
  | .udpsendSecond r slideid1 _ => some (e.udpsendLoop true r slideid1 false, [])
  -- nothing has come behind the acknowledgements, and `udpsend` returns
  | .drainFirst _ _ => some (e.finishUdpsend A, [])
  | .drainSecond slideid1 _ => some (e.drainLoop A slideid1 false, [])
  | .udplastsendWait m r => some (e.resendLast m r)
  | .udplastsendDrain => some (e.finishUdplastsend A, [])
  | _ => none

/-- `recvfrom` returns a datagram. -/
def packet (j : Junk) (d : Datagram) : Option (Endpoint π × List Datagram) :=
  match e.ctl with
  | .idle => none
  | .udpsendFirst r slideid1 slideid2 => some (e.recvInFirst r slideid1 slideid2 d, [])
  | .udpsendSecond r slideid1 slideid2 => some (e.recvInSecond r slideid1 slideid2 d, [])
  | .drainFirst slideid1 slideid2 => some (e.recvInDrainFirst slideid1 slideid2 d, [])
  | .drainSecond slideid1 slideid2 => some (e.recvInDrainSecond A slideid1 slideid2 d, [])
  | .udprecvFirst => some (e.recvInPairFirst d, [])
  | .udprecvSecond ibytesrecv => some (e.recvInPairSecond A j ibytesrecv d)
  | .udplastsendWait _ _ => some (e.recvInLastWait d, [])
  | .udplastsendDrain => some (e.recvInLastDrain A d, [])
  | .udplastrecv => some (e.recvInLast A j d)

end Endpoint

/-- The steps an endpoint takes without a datagram. -/
inductive Act where
  | run
  | timeout
  deriving DecidableEq

/-- The endpoint as a party of a network. -/
def machine {π : Type*} (A : App π) : Machine (Endpoint π) Act Junk Datagram where
  act e
    | .run => (e.nextCall A).map fun c => e.begin A c
    | .timeout => e.timeout A
  recv e j d := e.packet A j d

end Assign3
end FileTransfer
