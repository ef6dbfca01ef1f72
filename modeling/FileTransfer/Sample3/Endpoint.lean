import FileTransfer.Lib.Network
import FileTransfer.Sample3.Sender

/-!
# One endpoint of the sliding-window build

An endpoint is a `SockLib` object together with the program that calls it.  `Control` says where the
endpoint stands: between two calls, at the head of one of the loops of `common/socklib.cpp`, or
waiting in `lib_recvfrom` on behalf of one of its functions; each constructor carries the local
variables that are live there.  `machine` puts the pieces together: `run` executes the code up to the
next loop head or wait, `timeout` and `error` are the two ways `lib_recvfrom` returns without a packet,
and `recv` hands it a packet.

The endpoint also keeps a history of what it did (`Event`), for the statements about runs.
-/

namespace FileTransfer
namespace Sample3

/-- What a call returned to the program, with the data it handed back. -/
inductive Ret where
  /-- `udp_init`, `sock_sendtoEx`, `send_file` and `srv_wait4cnn` -/
  | code (r : Int)
  /-- `sock_recvfrom` and the bytes it wrote to the caller's buffer -/
  | received (r : Int) (bytes : List Byte)
  /-- `recv_file` and the content of the file it wrote -/
  | file (r : Int) (written : List Byte)
  /-- either `handshake`, with the object's `seq` and `hsData` at the return -/
  | handshake (r : Int) (seq : UInt32) (hsData : Handshake)
  deriving DecidableEq

/-- The calls a program makes. -/
inductive Call where
  /-- a new object and `udp_init`; `memory` is what the new object's memory holds -/
  | udpInit (windowSize : Nat) (memory : SockLib)
  /-- `SockClient::handshake` with this `rand()`; `junk` lies behind the record on the stack -/
  | clientHandshake (clientSeq : UInt32) (junk : List Byte)
  /-- `SockServer::handshake` with this `rand()` -/
  | serverHandshake (serverSeq : UInt32)
  | sockSendtoEx (buf : Payload) (flag : Bool)
  /-- `send_file`; `none` when `fopen` fails, otherwise the content -/
  | sendFile (file : Option (List Byte))
  | sockRecvfrom (length : Int)
  | recvFile (canOpen : Bool) (len : Int)
  | srvWait4cnn (sec : Int)

/-- A program: the call it makes next, and how it goes on with what the call returned. -/
structure App (π : Type*) where
  call : π → Option Call
  resume : π → Ret → π

/-- Who called `send_all_win_packets`. -/
inductive SendCaller where
  /-- `copy_2_winbuf` in the read loop of `send_file`: unread bytes and the end-of-file flag -/
  | sendFileCopy (rest : List Byte) (eof : Bool)
  | sendFileLast
  | sockSendtoExCopy (flag : Bool)
  | sockSendtoEx

/-- Who called `sock_recvfrom`. -/
inductive RecvCaller where
  | program
  /-- `recv_file`: the length of this piece, the bytes still missing (this piece included) and the
  file so far -/
  | recvFile (recvLen left : Int) (written : List Byte)

inductive Control where
  /-- between two calls -/
  | idle
  /-- head of the read loop of `send_file` -/
  | sendFile (rest : List Byte) (eof : Bool)
  /-- head of the last loop of `send_file` -/
  | sendFileLast
  /-- head of the loop of `sock_sendtoEx` -/
  | sockSendtoEx
  /-- head of the loop of `recv_file` -/
  | recvFile (left : Int) (written : List Byte)
  | udpSendtoEx (l : SendtoEx) (k : SendCaller)
  /-- `udp_sendto` on behalf of `SockClient::handshake` -/
  | udpSendto (udp : UdpPacket) (retryCnt : Nat) (hs : Handshake)
  /-- `sock_recvfrom` in data mode: bytes still missing and bytes written so far -/
  | sockRecvfrom (left : Int) (got : List Byte) (k : RecvCaller)
  /-- `sock_recvfrom` in handshake mode on behalf of `SockServer::handshake` -/
  | serverHandshake
  | srvWait4cnn (sec : Int)

/-- The history of an endpoint. -/
inductive Event where
  /-- `copy_2_winbuf` numbered this packet -/
  | numbered (udp : UdpPacket)
  /-- `sock_recvfrom` handed the payload of this datagram to its caller -/
  | handed (d : Datagram)
  /-- an `ACKTYPE_ACK` was sent in answer to this datagram, with its number -/
  | acked (d : Datagram)
  /-- `lastSeq` was set from this datagram -/
  | synced (d : Datagram)
  | returned (r : Ret)
  deriving DecidableEq

structure Endpoint (π : Type*) where
  lib : SockLib
  ctl : Control
  app : π
  log : List Event

/-! ## The receiver's functions -/

namespace SockLib

variable (s : SockLib)

/-- The object after `udp_init`, when its memory held `s` before. -/
def udpInit (windowSize : Nat) : SockLib :=
  { s with seq := 0, lastSeq := -1, wSize := windowSize, winBufPos := 0 }

/-- The first test of `chk_seqEx`: an unset `lastSeq` is taken from the packet. -/
def syncLastSeq (udp : UdpPacket) : SockLib :=
  if s.lastSeq = -1 then { s with lastSeq := UInt32.ofNat (udp.seq - 1).val } else s

/-- `chk_seqEx`: the new object, the acknowledgement it sends, and whether it returns `0`. -/
def chkSeqEx (udp : UdpPacket) : SockLib × Option Datagram × Bool :=
  let s := s.syncLastSeq udp
  match udp.ackType with
  | .request =>
      if seqField (s.lastSeq + 1) ≠ udp.seq then
        (s, some (ackPacket (s.lastSeq + 1) .nack), false)
      else
        ({ s with lastSeq := UInt32.ofNat (seqField (s.lastSeq + 1)).val },
          some (ackPacket (s.lastSeq + 1) .ack), true)
  -- a special request is answered with the number expected
  | .sack => (s, some (ackPacket (s.lastSeq + 1) .sack), false)
  | _ => (s, none, false)

/-- The answer to a handshake packet that reaches `sock_recvfrom` in data mode.  `resp.seq` is set
before the `memset`, so the number is lost. -/
def handshakeAck : Datagram :=
  ⟨{ UdpPacket.zero with data := .ofBytes s.hsData.toBytes }, .handshakeResponse⟩

/-- The answer to a handshake packet in handshake mode. -/
def handshakeReply (udp : UdpPacket) : Datagram :=
  ⟨{ UdpPacket.zero with seq := udp.seq, data := .ofBytes s.hsData.toBytes }, .handshakeResponse⟩

end SockLib

namespace Endpoint

variable {π : Type*} (A : App π) (e : Endpoint π)

/-- Return from a call to the program. -/
def finish (r : Ret) : Endpoint π :=
  { e with ctl := .idle, app := A.resume e.app r, log := e.log ++ [.returned r] }

/-- Go on after `send_all_win_packets` has returned `r`. -/
def afterSend (k : SendCaller) (r : Int) : Endpoint π :=
  match k with
  | .sendFileCopy rest eof =>
      -- after `copy_2_winbuf`, which returns `1` or what `send_all_win_packets` did
      if r < 0 then e.finish A (.code (-1)) else { e with ctl := .sendFile rest eof }
  | .sendFileLast =>
      -- the loop takes `0`, a window that is confirmed, for a failure
      if r ≤ 0 then e.finish A (.code (-1))
      else if 0 < e.lib.winBufPos then { e with ctl := .sendFileLast }
      else e.finish A (.code 0)
  | .sockSendtoExCopy flag =>
      if r < 0 then e.finish A (.code (-1))
      else if flag then e.finish A (.code 0)
      else { e with ctl := .sockSendtoEx }
  | .sockSendtoEx =>
      if r ≤ 0 then e.finish A (.code (if 0 ≤ r then 0 else -1))
      else if 0 < e.lib.winBufPos then { e with ctl := .sockSendtoEx }
      else e.finish A (.code 0)

/-- Go on where a function of the sender has stopped. -/
def settle (k : SendCaller) : Outcome → Endpoint π
  | .waits l => { e with ctl := .udpSendtoEx l k }
  | .returns r => e.afterSend A k r

/-- Enter `send_all_win_packets()`. -/
def enterSend (o : Oracle) (k : SendCaller) : Endpoint π × List Datagram :=
  let (out, oc) := e.lib.sendAllWinPackets o
  (e.settle A k oc, out)

/-- `copy_2_winbuf(buf)` on behalf of `k`. -/
def copyAndSend (o : Oracle) (buf : Payload) (k : SendCaller) : Endpoint π × List Datagram :=
  let (lib', full) := e.lib.copy2Winbuf buf
  let numbered := if e.lib.winBufPos < e.lib.wSize then
    [Event.numbered (e.lib.addUdpheader buf).2] else []
  let e' := { e with lib := lib', log := e.log ++ numbered }
  -- the window is sent only when it is full
  if full then e'.enterSend A o k else (e'.afterSend A k 1, [])

/-- One pass of the read loop of `send_file`.  `fread` sets end-of-file only on a short read. -/
def readAndCopy (o : Oracle) (rest : List Byte) (eof : Bool) : Endpoint π × List Datagram :=
  if eof then ({ e with ctl := .sendFileLast }, [])
  else
    e.copyAndSend A o (.ofBytes (rest.take bufferLength))
      (.sendFileCopy (rest.drop bufferLength) (rest.length < bufferLength))

/-- The head of the loop of `sock_recvfrom`, and its return. -/
def recvLoop (left : Int) (got : List Byte) (k : RecvCaller) : Endpoint π :=
  if 0 < left then { e with ctl := .sockRecvfrom left got k }
  else
    match k with
    | .program => e.finish A (.received 0 got)
    | .recvFile recvLen fleft written =>
        { e with ctl := .recvFile (fleft - recvLen) (written ++ got) }

/-- The failing return of `sock_recvfrom`. -/
def recvFailed (got : List Byte) : RecvCaller → Endpoint π
  | .program => e.finish A (.received (-1) got)
  | .recvFile _ _ written => e.finish A (.file (-1) written)

/-- One pass of the loop of `recv_file`. -/
def recvPiece (left : Int) (written : List Byte) : Endpoint π :=
  if 0 < left then
    let recvLen : Int := if bufferLength < left then bufferLength else left
    { e with ctl := .sockRecvfrom recvLen [] (.recvFile recvLen left written) }
  else e.finish A (.file 0 written)

/-- The loop test of `srv_wait4cnn`, `while (sec-- > 0)`. -/
def lingerLoop (sec : Int) : Endpoint π :=
  if 0 < sec then { e with ctl := .srvWait4cnn (sec - 1) } else e.finish A (.code 0)

/-- The handshake request of the client. -/
def handshakeRequest (clientSeq : UInt32) (junk : List Byte) : UdpPacket :=
  { (e.lib.addUdpheader (.ofBytes ((Handshake.mk clientSeq 0).toBytes ++ junk))).2 with
    ackType := .handshake }

/-- A handshake that returns `r`. -/
def finishHandshake (r : Int) : Endpoint π :=
  e.finish A (.handshake r e.lib.seq e.lib.hsData)

/-- `udp_sendto` sends the handshake request (again) and waits. -/
def sendHandshake (o : Oracle) (udp : UdpPacket) (retryCnt : Nat) (hs : Handshake) :
    Endpoint π × List Datagram :=
  if retryCnt = 0 then (e.finishHandshake A (-1), [])
  else
    match libSendto o [] ⟨udp, .handshakeRequest⟩ with
    | (out, true) => ({ e with ctl := .udpSendto udp retryCnt hs }, out)
    | (out, false) => (e.finishHandshake A (-1), out)

/-- Begin a call. -/
def begin (o : Oracle) : Call → Endpoint π × List Datagram
  | .udpInit windowSize memory =>
      (({ e with lib := memory.udpInit windowSize } : Endpoint π).finish A (.code 0), [])
  | .clientHandshake clientSeq junk =>
      let udp := e.handshakeRequest clientSeq junk
      -- `add_udpheader` has taken a number for the request
      let lib := { e.lib with hsData := ⟨0, 0⟩, seq := e.lib.seq + 1 }
      ({ e with lib := lib } : Endpoint π).sendHandshake A o udp 1000 ⟨clientSeq, 0⟩
  | .serverHandshake serverSeq =>
      ({ e with lib := { e.lib with hsData := ⟨0, serverSeq⟩ }, ctl := .serverHandshake }, [])
  | .sockSendtoEx buf flag => e.copyAndSend A o buf (.sockSendtoExCopy flag)
  | .sendFile none => (e.finish A (.code (-1)), [])
  | .sendFile (some content) => ({ e with ctl := .sendFile content false }, [])
  | .sockRecvfrom length => ({ e with ctl := .sockRecvfrom length [] .program }, [])
  | .recvFile canOpen len =>
      if canOpen then ({ e with ctl := .recvFile len [] }, []) else (e.finish A (.file (-1) []), [])
  | .srvWait4cnn sec => ({ e with ctl := .srvWait4cnn sec }, [])

/-- The call an idle endpoint makes next. -/
def nextCall : Option Call :=
  match e.ctl with
  | .idle => A.call e.app
  | _ => none

/-- Run the code from a loop head or from the program. -/
def run (o : Oracle) : Option (Endpoint π × List Datagram) :=
  match e.ctl with
  | .idle => (e.nextCall A).map fun c => e.begin A o c
  | .sendFile rest eof => some (e.readAndCopy A o rest eof)
  | .sendFileLast => some (e.enterSend A o .sendFileLast)
  | .sockSendtoEx => some (e.enterSend A o .sockSendtoEx)
  | .recvFile left written => some (e.recvPiece A left written, [])
  | _ => none

/-- `lib_recvfrom` returns `0`. -/
def timeout (o : Oracle) : Option (Endpoint π × List Datagram) :=
  match e.ctl with
  | .udpSendtoEx l k =>
      let (out, oc) := e.lib.udpSendtoExTimeout o l
      some (e.settle A k oc, out)
  | .udpSendto udp retryCnt hs => some (e.sendHandshake A o udp (retryCnt - 1) hs)
  | .sockRecvfrom left got k => some (e.recvLoop A left got k, [])
  | .serverHandshake => some (e, [])
  | .srvWait4cnn sec => some (e.lingerLoop A sec, [])
  | _ => none

/-- `lib_recvfrom` returns `-1`. -/
def error : Option (Endpoint π × List Datagram) :=
  match e.ctl with
  | .udpSendtoEx _ k => some (e.afterSend A k (-1), [])
  | .udpSendto _ _ _ => some (e.finishHandshake A (-1), [])
  | .sockRecvfrom _ got k => some (e.recvFailed A got k, [])
  | .serverHandshake => some (e.finishHandshake A (-1), [])
  | .srvWait4cnn _ => some (e.finish A (.code (-1)), [])
  | _ => none

/-- `udp_sendtoEx` takes a datagram in. -/
def recvInSend (o : Oracle) (l : SendtoEx) (k : SendCaller) (d : Datagram) :
    Endpoint π × List Datagram :=
  let (lib', out, oc) := e.lib.udpSendtoExPacket o l d.pkt
  let acked := match d.pkt.ackType with
    | .ack | .nack | .sack => []
    | _ => if e.lib.acksUnknown d.pkt then [Event.acked d] else []
  (({ e with lib := lib', log := e.log ++ acked } : Endpoint π).settle A k oc, out)

/-- `udp_sendto` takes a datagram in, and `SockClient::handshake` goes on. -/
def recvInHandshake (hs : Handshake) (d : Datagram) : Endpoint π :=
  let hsData := Handshake.ofPayload d.pkt.data
  let e' := { e with lib := { e.lib with hsData := hsData } }
  -- the answer to another handshake makes this one fail
  if hsData.clientSeq ≠ hs.clientSeq then e'.finishHandshake A (-1)
  else
    let lib := { e'.lib with seq := hsData.serverSeq, lastSeq := -1 }
    ({ e' with lib := lib } : Endpoint π).finishHandshake A 0

/-- `sock_recvfrom` in data mode takes a datagram in. -/
def recvInData (o : Oracle) (left : Int) (got : List Byte) (k : RecvCaller) (d : Datagram) :
    Endpoint π × List Datagram :=
  if d.pkt.ackType = .handshake then
    -- a late handshake packet is answered and discarded
    (e.recvLoop A left got k, (libSendto o [] e.lib.handshakeAck).1)
  else
    let (lib', ack, accepted) := e.lib.chkSeqEx d.pkt
    let out := match ack with
      | some a => (libSendto o [] a).1
      | none => []
    -- `chk_seqEx` sets an unset `last_seq` from any packet
    let synced := if e.lib.lastSeq = -1 then [Event.synced d] else []
    if accepted then
      let e' := { e with lib := lib', log := e.log ++ synced ++ [Event.acked d, Event.handed d] }
      let piece := d.pkt.data.bytes.take (min left bufferLength).toNat
      (e'.recvLoop A (left - bufferLength) (got ++ piece) k, out)
    else (({ e with lib := lib', log := e.log ++ synced } : Endpoint π).recvLoop A left got k, out)

/-- `sock_recvfrom` in handshake mode takes a datagram in, and `SockServer::handshake` goes on.  What
`chk_seq` stores in `lastSeq` is overwritten before the next wait. -/
def recvInServerHandshake (o : Oracle) (d : Datagram) : Endpoint π × List Datagram :=
  let tmp := Handshake.ofPayload d.pkt.data
  if tmp.serverSeq ≠ 0 ∧ (e.lib.hsData.clientSeq ≠ tmp.clientSeq ∨
      e.lib.hsData.serverSeq ≠ tmp.serverSeq) then
    (e.finishHandshake A (-1), [])
  else
    let hsData := if tmp.serverSeq = 0 then { e.lib.hsData with clientSeq := tmp.clientSeq }
      else e.lib.hsData
    let lib := { e.lib with hsData := hsData, seq := tmp.clientSeq, lastSeq := -1 }
    let e' := { e with lib := lib }
    (e'.finishHandshake A 0, (libSendto o [] (lib.handshakeReply d.pkt)).1)

/-- `srv_wait4cnn` takes a datagram in. -/
def recvInLinger (o : Oracle) (sec : Int) (d : Datagram) : Endpoint π × List Datagram :=
  let out := (libSendto o [] (SockLib.ackPacket (UInt32.ofNat d.pkt.seq.val) .ack)).1
  (({ e with log := e.log ++ [.acked d] } : Endpoint π).lingerLoop A sec, out)

/-- `lib_recvfrom` returns a packet. -/
def packet (o : Oracle) (d : Datagram) : Option (Endpoint π × List Datagram) :=
  match e.ctl with
  | .udpSendtoEx l k => some (e.recvInSend A o l k d)
  | .udpSendto _ _ hs => some (e.recvInHandshake A hs d, [])
  | .sockRecvfrom left got k => some (e.recvInData A o left got k d)
  | .serverHandshake => some (e.recvInServerHandshake A o d)
  | .srvWait4cnn sec => some (e.recvInLinger A o sec d)
  | _ => none

end Endpoint

/-- The steps an endpoint takes without a datagram. -/
inductive Act where
  | run (o : Oracle)
  | timeout (o : Oracle)
  | error

/-- The endpoint as a party of a network. -/
def machine {π : Type*} (A : App π) : Machine (Endpoint π) Act Oracle Datagram where
  act e
    | .run o => e.run A o
    | .timeout o => e.timeout A o
    | .error => e.error A
  recv e o d := e.packet A o d

/-- Both endpoints after `udp_init`, with nothing on the way. -/
def sessionStart {π : Type*} (lib : Side → SockLib) (app : Side → π) : Net (Endpoint π) Datagram where
  node t := { lib := lib t, ctl := .idle, app := app t, log := [] }
  wire _ := []

/-- Events in a reliable environment. -/
def runs (s : Side) : FifoEvent Act Oracle := .act s (.run .reliable)
def timesOut (s : Side) : FifoEvent Act Oracle := .act s (.timeout .reliable)
def arrives (s : Side) : FifoEvent Act Oracle := .deliver s .reliable

end Sample3
end FileTransfer
