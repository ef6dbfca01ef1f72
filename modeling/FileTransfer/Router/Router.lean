import FileTransfer.Lib.Bytes
import Mathlib.Logic.Function.Basic

/-!
# The router (`Router/Router.cpp`)

`Router::Run` waits for packets of the two peers with `select`, and for each packet decides at random
whether it is delayed, dropped or forwarded.  One `EVENT_LIST` holds the delayed packet of both
directions.  `cycle` is one pass of the loop; the random decisions and the results of the socket calls
are its input, and the trace output is left out.
-/

namespace FileTransfer
namespace Router

/-- `MAXBUFSIZE` -/
def maxBufSize : Nat := 2048

/-- The peer hosts; also the values of `destination`. -/
inductive Peer where
  | host1
  | host2
  deriving DecidableEq, Repr

def Peer.other : Peer → Peer
  | .host1 => .host2
  | .host2 => .host1

/-- `char Buffer[MAXBUFSIZE]` -/
structure Buffer where
  bytes : List Byte
  length_eq : bytes.length = maxBufSize
  deriving DecidableEq

/-- What `recvfrom` leaves in a buffer that held `b`; the bytes behind the packet stay. -/
def Buffer.overlay (b : Buffer) (packet : List Byte) : Buffer where
  bytes := packet.take maxBufSize ++ b.bytes.drop (packet.take maxBufSize).length
  length_eq := by
    have hb := b.length_eq
    simp only [List.length_append, List.length_take, List.length_drop]
    omega

/-- `EVENT_LIST`.  `index` counts the packets of the direction like `count`, but without wrapping; it
is history for the statements below, and no function of the program reads it. -/
structure EventList where
  empty : Bool
  count : UInt32
  destination : Peer
  len : Nat
  buffer : Buffer
  index : Nat

/-- The packet `sendto` takes from an `EVENT_LIST`. -/
def EventList.packet (ev : EventList) : List Byte := ev.buffer.bytes.take ev.len

/-- The results of the socket calls of one pass. -/
structure Calls where
  select : Bool
  recvfrom : Bool
  sendto : Bool
  /-- the `sendto` in `SendProc` -/
  sendProc : Bool
  deriving DecidableEq

/-- Every call succeeds. -/
def Calls.succeed : Calls := ⟨true, true, true, true⟩

/-- The router with the locals of `Run`, the packets that wait at its two sockets, and what it did so
far for each destination. -/
structure State where
  fileBuf : EventList
  temp : EventList
  /-- `count1` and `count2`, by the peer the packets come from -/
  count : Peer → UInt32
  waitCount : Nat
  /-- what has arrived from this peer and waits at `Sock1` or `Sock2` -/
  sock : Peer → List (List Byte)
  /-- the packets received for this destination, in order -/
  received : Peer → List (List Byte)
  /-- the indices of those that were dropped -/
  dropped : Peer → List Nat
  /-- what was sent to this peer: the index and the packet -/
  sent : Peer → List (Nat × List Byte)

/-- An `EVENT_LIST` before it is first used. -/
def EventList.fresh (b : Buffer) : EventList := ⟨true, 0, .host1, 0, b, 0⟩

/-- The router when `Run` begins; `b` and `b'` are what the two buffers hold. -/
def start (b b' : Buffer) : State where
  fileBuf := .fresh b
  temp := .fresh b'
  count _ := 0
  waitCount := 0
  sock _ := []
  received _ := []
  dropped _ := []
  sent _ := []

/-- What the environment does: a packet arrives from a peer, or one pass of the loop runs. -/
inductive Event where
  | arrive (source : Peer) (packet : List Byte)
  | cycle (delayed damaged : Bool) (calls : Calls)

namespace State

variable (s : State)

/-- A `sendto` of this `EVENT_LIST` to its destination that succeeds. -/
def sendto (ev : EventList) : State :=
  let sent := s.sent ev.destination ++ [(ev.index, ev.packet)]
  { s with sent := Function.update s.sent ev.destination sent }

/-- `SendProc` -/
def sendProc (ok : Bool) : State :=
  let s' := if ok then s.sendto s.fileBuf else s
  { s' with fileBuf := { s'.fileBuf with empty := true } }

/-- Forward `temp`, and then the delayed packet of the same direction. -/
def forward (calls : Calls) : State :=
  if calls.sendto then
    let s' := s.sendto s.temp
    -- the delayed packet of the other direction stays where it is
    if !s'.fileBuf.empty && s'.fileBuf.destination = s'.temp.destination then
      ({ s' with waitCount := 0 } : State).sendProc calls.sendProc
    else s'
  else s

/-- The packet in `temp` is delayed, dropped or forwarded. -/
def dispatch (delayed damaged : Bool) (calls : Calls) : State :=
  -- one packet at a time can be delayed
  if s.fileBuf.empty && delayed then { s with fileBuf := { s.temp with empty := false } }
  else if damaged then
    let dropped := s.dropped s.temp.destination ++ [s.temp.index]
    { s with dropped := Function.update s.dropped s.temp.destination dropped }
  else s.forward calls

/-- `recvfrom` on the socket of this peer, and what is noted in `temp`. -/
def receive (source : Peer) (packet : List Byte) : State :=
  { s with
    temp :=
      { s.temp with
        count := s.count source
        destination := source.other
        len := packet.length
        buffer := s.temp.buffer.overlay packet
        index := (s.received source.other).length }
    count := Function.update s.count source (s.count source + 1)
    received := Function.update s.received source.other (s.received source.other ++ [packet]) }

/-- A packet is ready at the socket of `source`.  A packet that does not fit makes `recvfrom` fail. -/
def incoming (source : Peer) (packet : List Byte) (delayed damaged : Bool) (calls : Calls) : State :=
  let s' := { s with
    waitCount := if s.fileBuf.empty then s.waitCount else s.waitCount + 1
    sock := Function.update s.sock source (s.sock source).tail }
  if calls.recvfrom && packet.length ≤ maxBufSize then
    (s'.receive source packet).dispatch delayed damaged calls
  else { s' with temp := { s'.temp with buffer := s'.temp.buffer.overlay packet } }

/-- `select` timed out. -/
def idle (calls : Calls) : State :=
  if s.fileBuf.empty then s
  else
    let s' := { s with waitCount := s.waitCount + 1 }
    -- the delayed packet goes out when it has waited for three passes
    if 3 ≤ s'.waitCount then { s'.sendProc calls.sendProc with waitCount := 0 } else s'

/-- One pass of the loop of `Run`.  `Sock1` is served first. -/
def cycle (delayed damaged : Bool) (calls : Calls) : State :=
  if calls.select then
    match s.sock .host1, s.sock .host2 with
    | packet :: _, _ => s.incoming .host1 packet delayed damaged calls
    | [], packet :: _ => s.incoming .host2 packet delayed damaged calls
    | [], [] => s.idle calls
  else s

end State

/-- The router and its environment. -/
def step (s : State) : Event → Option State
  | .arrive source packet =>
      some { s with sock := Function.update s.sock source (s.sock source ++ [packet]) }
  | .cycle delayed damaged calls => some (s.cycle delayed damaged calls)

/-- The socket calls of a pass succeed; the packets waiting fit into the buffer. -/
def CallsSucceed (s : State) : Event → Prop
  | .arrive _ _ => True
  | .cycle _ _ calls => calls = .succeed ∧
      ∀ source, ∀ packet ∈ (s.sock source).head?, packet.length ≤ maxBufSize

end Router
end FileTransfer
