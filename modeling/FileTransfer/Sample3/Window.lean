import FileTransfer.Sample3.Packet
import Mathlib.Logic.Function.Basic

/-!
# The window buffer of a `SockLib` object

The sender's half of `common/socklib.cpp` that works on memory only: numbering a packet, putting it
into the window, removing confirmed packets, and the bookkeeping of acknowledgements.
-/

namespace FileTransfer
namespace Sample3

/-- The fields of a `SockLib` object that the transfer functions read and write.  `winBuf` is the
memory at `winBuf`: slots `0, …, wSize - 1` belong to the object. -/
structure SockLib where
  seq : UInt32
  lastSeq : UInt32
  hsData : Handshake
  wSize : Nat
  winBuf : Nat → UdpPacket
  winBufPos : Nat

/-- What the environment decides while the program runs: the result of the `k`-th `lib_sendto` of the
step, and the packet that the memory past the end of `winBuf` looks like. -/
structure Oracle where
  sendOk : Nat → Bool
  beyond : UdpPacket

/-- Every `lib_sendto` succeeds, and zeros lie behind `winBuf`. -/
def Oracle.reliable : Oracle := ⟨fun _ => true, UdpPacket.zero⟩

/-- The acknowledgement marks of one call of `udp_sendtoEx` (`char arrACK[SEQUENCE_NUM_MAX]`). -/
abbrev AckMarks := Nat → Bool

/-- `memset(arrACK, 0, SEQUENCE_NUM_MAX)` -/
def AckMarks.zero : AckMarks := fun _ => false

namespace SockLib

/-- An object in zeroed memory. -/
def zero : SockLib where
  seq := 0
  lastSeq := 0
  hsData := ⟨0, 0⟩
  wSize := 0
  winBuf _ := UdpPacket.zero
  winBufPos := 0

variable (s : SockLib)

/-- Read a slot; the slots past the buffer yield whatever lies there. -/
def slot (beyond : UdpPacket) (i : Nat) : UdpPacket :=
  if i < s.wSize then s.winBuf i else beyond

/-- `add_udpheader` -/
def addUdpheader (buf : Payload) : SockLib × UdpPacket :=
  ({ s with seq := s.seq + 1 }, { seq := seqField s.seq, ackType := .request, data := buf })

/-- `copy_2_winbuf` up to its call of `send_all_win_packets`: the packet is appended when there is
room, and the result says whether the window is sent now. -/
def copy2Winbuf (buf : Payload) : SockLib × Bool :=
  let s' :=
    if s.winBufPos < s.wSize then
      let (s₁, udp) := s.addUdpheader buf
      { s₁ with
        winBuf := Function.update s₁.winBuf s₁.winBufPos udp
        winBufPos := s₁.winBufPos + 1 }
    else s
  (s', s'.winBufPos == s'.wSize)

/-- Index of the first window slot with this sequence number. -/
def findSeq (n : SeqNum) : Option Nat :=
  (List.range s.winBufPos).find? fun i => (s.winBuf i).seq == n

/-- `remove_packets_from_win`.  The test of the second branch is written
`p->seq == (recvSeq - 1) & SEQUENCE_NUM_MASK` and binds as `(p->seq == recvSeq - 1) & 0x1F`: the
subtraction is on 32 bits and the mask does nothing. -/
def removePacketsFromWin (beyond : UdpPacket) (recvSeq : SeqNum) (arrAck : AckMarks) :
    SockLib × AckMarks :=
  match s.findSeq recvSeq with
  | some i =>
      let left := s.winBufPos - (i + 1)
      -- the packets behind slot `i` move to the front, with their marks
      if 0 < left ∧ left < s.wSize then
        ({ s with
            winBufPos := left
            winBuf := fun j => if j < left then s.winBuf (i + 1 + j) else s.winBuf j },
          fun j => if j < left then arrAck (i + 1 + j) else false)
      else ({ s with winBufPos := left }, arrAck)
  | none =>
      -- the slot behind the window, whatever it holds
      if UInt32.ofNat (s.slot beyond s.winBufPos).seq.val = UInt32.ofNat recvSeq.val - 1 then
        ({ s with winBufPos := 0 }, arrAck)
      else (s, arrAck)

/-- The loop of `get_max_seq` that tags the acknowledged slot. -/
def tagAck (n : SeqNum) (arrAck : AckMarks) : AckMarks :=
  match s.findSeq n with
  | some i => Function.update arrAck i true
  | none => arrAck

/-- The number of tagged slots at the front of the window. -/
def taggedPrefix (arrAck : AckMarks) : Nat :=
  ((List.range s.winBufPos).takeWhile arrAck).length

/-- `get_max_seq`: `none` for `-1`, and otherwise the new tags together with the largest number of
the consecutive acknowledged packets, if there is one. -/
def getMaxSeq (n : SeqNum) (arrAck : AckMarks) : Option (AckMarks × Option SeqNum) :=
  if s.winBufPos = 0 then none
  else
    let arr := s.tagAck n arrAck
    let j := s.taggedPrefix arr
    some (arr, if 0 < j then some (s.winBuf (j - 1)).seq else none)

/-! ## What the window functions leave alone -/

variable {s}

@[simp] theorem addUdpheader_fst (buf : Payload) :
    (s.addUdpheader buf).1 = { s with seq := s.seq + 1 } := rfl

theorem copy2Winbuf_of_lt {buf : Payload} (h : s.winBufPos < s.wSize) :
    (s.copy2Winbuf buf).1 =
      { s with
        seq := s.seq + 1
        winBuf := Function.update s.winBuf s.winBufPos ⟨seqField s.seq, .request, buf⟩
        winBufPos := s.winBufPos + 1 } := by
  simp [copy2Winbuf, addUdpheader, h]

theorem copy2Winbuf_of_not_lt {buf : Payload} (h : ¬ s.winBufPos < s.wSize) :
    (s.copy2Winbuf buf).1 = s := by
  simp [copy2Winbuf, h]

theorem findSeq_eq_some {n : SeqNum} {i : Nat} :
    s.findSeq n = some i ↔
      i < s.winBufPos ∧ (s.winBuf i).seq = n ∧ ∀ j < i, (s.winBuf j).seq ≠ n := by
  simp only [findSeq, List.find?_range_eq_some, beq_iff_eq, List.mem_range, Bool.not_eq_eq_eq_not,
    Bool.not_true, beq_eq_false_iff_ne, ne_eq]
  tauto

theorem findSeq_eq_none {n : SeqNum} :
    s.findSeq n = none ↔ ∀ i < s.winBufPos, (s.winBuf i).seq ≠ n := by
  simp [findSeq]

end SockLib

end Sample3
end FileTransfer
