import FileTransfer.Sample3.Window

/-!
# Sending the window and waiting for acknowledgements

`send_all_win_packets` and `udp_sendtoEx` of `common/socklib.cpp`.  A call of `udp_sendtoEx` is a
sequence of waits in `lib_recvfrom`; between two waits the code runs without input.  `SendtoEx` holds
the local variables of the call, and each function below runs from one wait to the next: it returns
the packets handed to `lib_sendto`, oldest first, and either the locals at the next wait or the value
the call returns.
-/

namespace FileTransfer
namespace Sample3

/-- The local variables of `udp_sendtoEx`; `buf` is the index of the window slot the pointer `buf`
points at. -/
structure SendtoEx where
  buf : Nat
  retryCnt : Nat
  waitForACK : Bool
  arrACK : AckMarks

/-- Where `udp_sendtoEx` stops: at its next wait, or with a return value. -/
inductive Outcome where
  | waits (l : SendtoEx)
  | returns (r : Int)

/-- `lib_sendto`, after the packets `out` of the same step. -/
def libSendto (o : Oracle) (out : List Datagram) (d : Datagram) : List Datagram × Bool :=
  if o.sendOk out.length then (out ++ [d], true) else (out, false)

namespace SockLib

variable (s : SockLib)

/-- A slot of the window on its way to `lib_sendto`. -/
def slotDatagram (i : Nat) : Datagram := ⟨s.winBuf i, .window⟩

/-- The loop of `send_all_win_packets` over the first `n` slots. -/
def sendSlots (o : Oracle) : Nat → List Datagram → List Datagram × Bool
  | 0, out => (out, true)
  | n + 1, out =>
      match sendSlots o n out with
      | (out, true) => libSendto o out (s.slotDatagram n)
      | (out, false) => (out, false)

/-- `send_all_win_packets(1)`.  The loop stops before the last packet, and the packet sent after it is
the one `buf` was left at: the last of the loop, or the first slot when the loop did not run. -/
def resendAll (o : Oracle) : List Datagram × Bool :=
  match s.sendSlots o (s.winBufPos - 1) [] with
  | (out, true) => libSendto o out (s.slotDatagram (s.winBufPos - 2))
  | (out, false) => (out, false)

/-- `send_special_request` -/
def specialRequest : Datagram :=
  ⟨{ UdpPacket.zero with seq := seqField s.seq, ackType := .sack }, .specialRequest⟩

/-- `send_ack` -/
def ackPacket (seq : UInt32) (type : AckType) : Datagram :=
  ⟨{ UdpPacket.zero with seq := seqField seq, ackType := type }, .sendAck⟩

/-- The head of the loop of `udp_sendtoEx`: leave, send `buf`, or just wait. -/
def sendtoExLoop (o : Oracle) (l : SendtoEx) (out : List Datagram) : List Datagram × Outcome :=
  -- `while (retryCnt > 0)`
  if l.retryCnt = 0 then (out, .returns (-1))
  else if l.waitForACK then (out, .waits l)
  else
    match libSendto o out (s.slotDatagram l.buf) with
    | (out, true) => (out, .waits l)
    | (out, false) => (out, .returns (-1))

/-- `udp_sendtoEx`, up to its first wait. -/
def udpSendtoEx (o : Oracle) (buf : Nat) (out : List Datagram) : List Datagram × Outcome :=
  s.sendtoExLoop o { buf := buf, retryCnt := 1000, waitForACK := false, arrACK := .zero } out

/-- `send_all_win_packets()`, up to its first wait. -/
def sendAllWinPackets (o : Oracle) : List Datagram × Outcome :=
  match s.sendSlots o (s.winBufPos - 1) [] with
  | (out, true) => s.udpSendtoEx o (s.winBufPos - 1) out
  | (out, false) => (out, .returns (-1))

/-- `lib_recvfrom` timed out: everything is sent again, and the last time a special request follows. -/
def udpSendtoExTimeout (o : Oracle) (l : SendtoEx) : List Datagram × Outcome :=
  let retryCnt := l.retryCnt - 1
  match s.resendAll o with
  | (out, false) => (out, .returns (-1))
  | (out, true) =>
      -- the marks of earlier acknowledgements are forgotten
      match if retryCnt = 0 then libSendto o out s.specialRequest else (out, true) with
      | (out, false) => (out, .returns (-1))
      | (out, true) => s.sendtoExLoop o { l with retryCnt := retryCnt, arrACK := .zero } out

/-- The branch of `udp_sendtoEx` for `ACKTYPE_ACK`. -/
def udpSendtoExAck (o : Oracle) (l : SendtoEx) (n : SeqNum) :
    SockLib × List Datagram × Outcome :=
  match s.getMaxSeq n l.arrACK with
  -- the window is empty, and `get_max_seq` fails
  | none => (s, [], .returns (-1))
  | some (arr, none) => (s, s.sendtoExLoop o { l with waitForACK := true, arrACK := arr } [])
  | some (arr, some biggestACK) =>
      let (s', arr') := s.removePacketsFromWin o.beyond biggestACK arr
      -- everything is confirmed, or the call waits for the rest
      if s'.winBufPos = 0 then (s', [], .returns 0)
      else (s', s'.sendtoExLoop o { l with waitForACK := true, arrACK := arr' } [])

/-- The branch of `udp_sendtoEx` for `ACKTYPE_NACK` and `ACKTYPE_SACK`. -/
def udpSendtoExNack (beyond : UdpPacket) (l : SendtoEx) (n : SeqNum) :
    SockLib × List Datagram × Outcome :=
  -- the peer asks for packet `n`, so it has the one before it; the call returns what is left
  let s' := (s.removePacketsFromWin beyond (n - 1) l.arrACK).1
  (s', [], .returns s'.winBufPos)

/-- The unknown-type branch of `udp_sendtoEx` acknowledges this packet. -/
def acksUnknown (udp : UdpPacket) : Bool := udp.seq == seqField (s.lastSeq + 1)

/-- The unknown-type branch of `udp_sendtoEx`. -/
def udpSendtoExUnknown (o : Oracle) (l : SendtoEx) (udp : UdpPacket) : List Datagram × Outcome :=
  if s.acksUnknown udp then
    let out := (libSendto o [] (ackPacket (UInt32.ofNat udp.seq.val) .ack)).1
    s.sendtoExLoop o { l with waitForACK := true } out
  else s.sendtoExLoop o l []

/-- `udp_sendtoEx` takes a packet in. -/
def udpSendtoExPacket (o : Oracle) (l : SendtoEx) (udp : UdpPacket) :
    SockLib × List Datagram × Outcome :=
  match udp.ackType with
  | .ack => s.udpSendtoExAck o l udp.seq
  | .nack => s.udpSendtoExNack o.beyond l udp.seq
  | .sack => s.udpSendtoExNack o.beyond l udp.seq
  | _ => (s, s.udpSendtoExUnknown o l udp)

end SockLib

end Sample3
end FileTransfer
