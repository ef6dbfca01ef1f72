import FileTransfer.Sample3.Sender
import Mathlib.Data.List.TakeWhile

/-!
# What the sender's functions do

One lemma for each function of `Sender.lean` and `Window.lean` that says everything later proofs need:
which slots a function hands to `lib_sendto`, what it leaves in the window, and how a call goes on.
-/

namespace FileTransfer
namespace Sample3

/-- The types that have a branch of their own in `udp_sendtoEx`. -/
def AckType.IsAnswer : AckType → Prop
  | .ack => True
  | .nack => True
  | .sack => True
  | _ => False

namespace SockLib

variable {s : SockLib} {o : Oracle} {l : SendtoEx} {out : List Datagram}

/-! ## Removing packets -/

/-- `removePacketsFromWin` never touches the fields outside the window. -/
theorem removePacketsFromWin_frame (beyond : UdpPacket) (n : SeqNum) (arr : AckMarks) :
    let s' := (s.removePacketsFromWin beyond n arr).1
    s'.seq = s.seq ∧ s'.lastSeq = s.lastSeq ∧ s'.hsData = s.hsData ∧ s'.wSize = s.wSize := by
  unfold removePacketsFromWin
  split
  · dsimp only
    split <;> exact ⟨rfl, rfl, rfl, rfl⟩
  · split <;> exact ⟨rfl, rfl, rfl, rfl⟩

/-- The confirmed packet is in the window: what stays is what came after it, with its marks. -/
theorem removePacketsFromWin_found (beyond : UdpPacket) {n : SeqNum} (arr : AckMarks) {i : Nat}
    (hle : s.winBufPos ≤ s.wSize) (hfind : s.findSeq n = some i) :
    let r := s.removePacketsFromWin beyond n arr
    r.1.winBufPos = s.winBufPos - (i + 1) ∧
      (∀ j < r.1.winBufPos, r.1.winBuf j = s.winBuf (i + 1 + j) ∧ r.2 j = arr (i + 1 + j)) ∧
      (r.1.winBufPos = 0 → r.1.winBuf = s.winBuf) := by
  have hi : i < s.winBufPos := (findSeq_eq_some.1 hfind).1
  have hlt : s.winBufPos - (i + 1) < s.wSize := by omega
  unfold removePacketsFromWin
  rw [hfind]
  by_cases hpos : 0 < s.winBufPos - (i + 1)
  · simp only [hpos, hlt, and_self, if_true]
    refine ⟨trivial, ?_, ?_⟩
    · intro j hj
      simp [hj]
    · intro h0
      omega
  · simp only [hpos, false_and, if_false]
    refine ⟨trivial, ?_, fun _ => trivial⟩
    intro j hj
    omega

/-- The second branch of `remove_packets_from_win` empties the window without having found the
confirmed packet in it. -/
def clearsUnfound (s : SockLib) (beyond : UdpPacket) (n : SeqNum) : Bool :=
  s.findSeq n == none &&
    UInt32.ofNat (s.slot beyond s.winBufPos).seq.val == UInt32.ofNat n.val - 1

/-- The confirmed packet is not in the window, and the second branch does not empty it. -/
theorem removePacketsFromWin_missing {beyond : UdpPacket} {n : SeqNum} {arr : AckMarks}
    (hfind : s.findSeq n = none) (hclear : s.clearsUnfound beyond n = false) :
    s.removePacketsFromWin beyond n arr = (s, arr) := by
  have hne : ¬ UInt32.ofNat (s.slot beyond s.winBufPos).seq.val = UInt32.ofNat n.val - 1 := by
    simpa [clearsUnfound, hfind] using hclear
  unfold removePacketsFromWin
  rw [hfind]
  simp only [if_neg hne]

/-- With an empty window nothing changes at all. -/
theorem removePacketsFromWin_empty {beyond : UdpPacket} {n : SeqNum} {arr : AckMarks}
    (h0 : s.winBufPos = 0) : s.removePacketsFromWin beyond n arr = (s, arr) := by
  have hfind : s.findSeq n = none := by
    rw [findSeq_eq_none]
    intro i hi
    omega
  simp only [removePacketsFromWin, hfind]
  split
  · rw [← h0]
  · rfl

/-! ## Acknowledgement marks -/

theorem tagAck_eq_true {n : SeqNum} {arr : AckMarks} {i : Nat} (h : s.tagAck n arr i = true) :
    arr i = true ∨ (i < s.winBufPos ∧ (s.winBuf i).seq = n) := by
  cases hfind : s.findSeq n with
  | none =>
      simp only [tagAck, hfind] at h
      exact Or.inl h
  | some j =>
      simp only [tagAck, hfind] at h
      by_cases hij : i = j
      · subst hij
        have := findSeq_eq_some.1 hfind
        exact Or.inr ⟨this.1, this.2.1⟩
      · rw [Function.update_of_ne hij] at h
        exact Or.inl h

theorem taggedPrefix_le (arr : AckMarks) : s.taggedPrefix arr ≤ s.winBufPos := by
  have h := (List.takeWhile_prefix arr (l := List.range s.winBufPos)).length_le
  simpa [taggedPrefix] using h

theorem marked_of_lt_taggedPrefix {arr : AckMarks} {i : Nat} (hi : i < s.taggedPrefix arr) :
    arr i = true := by
  have hpre := List.takeWhile_prefix arr (l := List.range s.winBufPos)
  have hlt : i < ((List.range s.winBufPos).takeWhile arr).length := hi
  have hmem : i ∈ (List.range s.winBufPos).takeWhile arr := by
    refine List.mem_iff_getElem?.2 ⟨i, ?_⟩
    rw [List.getElem?_eq_getElem hlt, hpre.getElem hlt, List.getElem_range]
  simpa using List.mem_takeWhile_imp hmem

/-- The packet `get_max_seq` names is in the window, and marked. -/
theorem getMaxSeq_some {n m : SeqNum} {arr arr' : AckMarks}
    (h : s.getMaxSeq n arr = some (arr', some m)) :
    arr' = s.tagAck n arr ∧ ∃ i, s.findSeq m = some i ∧ s.tagAck n arr i = true := by
  unfold getMaxSeq at h
  split at h
  · cases h
  · simp only [Option.some.injEq, Prod.mk.injEq] at h
    obtain ⟨harr, hm⟩ := h
    split at hm
    · rename_i hpos
      have hle := taggedPrefix_le (s := s) (s.tagAck n arr)
      have hlast : (s.winBuf (s.taggedPrefix (s.tagAck n arr) - 1)).seq = m := by
        simpa using hm
      refine ⟨harr.symm, ?_⟩
      cases hfind : s.findSeq m with
      | none => exact absurd hlast (findSeq_eq_none.1 hfind _ (by omega))
      | some i =>
          -- the first slot with this number is not behind the last tagged one
          have hi : i ≤ s.taggedPrefix (s.tagAck n arr) - 1 := by
            by_contra hlt
            exact (findSeq_eq_some.1 hfind).2.2 _ (by omega) hlast
          exact ⟨i, rfl, marked_of_lt_taggedPrefix (s := s) (by omega)⟩
    · cases hm

theorem getMaxSeq_none {n : SeqNum} {arr arr' : AckMarks}
    (h : s.getMaxSeq n arr = some (arr', none)) : arr' = s.tagAck n arr := by
  unfold getMaxSeq at h
  split at h
  · cases h
  · simp only [Option.some.injEq, Prod.mk.injEq] at h
    exact h.1.symm

theorem getMaxSeq_eq_none {n : SeqNum} {arr : AckMarks} :
    s.getMaxSeq n arr = none ↔ s.winBufPos = 0 := by
  simp [getMaxSeq]

/-! ## What goes on the wire -/

theorem mem_libSendto {d x : Datagram} (h : x ∈ (libSendto o out d).1) : x ∈ out ∨ x = d := by
  unfold libSendto at h
  split at h
  · simpa using h
  · exact Or.inl h

/-- A window slot that may be sent: one that holds a packet, or the first slot, which
`send_all_win_packets` also sends when the window is empty. -/
def IsSendable (s : SockLib) (d : Datagram) : Prop :=
  ∃ i, (i < s.winBufPos ∨ i = 0) ∧ d = s.slotDatagram i

theorem mem_sendSlots {n : Nat} {x : Datagram} (h : x ∈ (s.sendSlots o n out).1) :
    x ∈ out ∨ ∃ i < n, x = s.slotDatagram i := by
  induction n generalizing out with
  | zero => exact Or.inl (by simpa [sendSlots] using h)
  | succ n ih =>
      unfold sendSlots at h
      split at h
      · rename_i out' heq
        rcases mem_libSendto h with h | h
        · rcases ih (by rw [heq]; exact h) with h | ⟨i, hi, h⟩
          · exact Or.inl h
          · exact Or.inr ⟨i, by omega, h⟩
        · exact Or.inr ⟨n, by omega, h⟩
      · rename_i out' heq
        rcases ih (by rw [heq]; exact h) with h | ⟨i, hi, h⟩
        · exact Or.inl h
        · exact Or.inr ⟨i, by omega, h⟩

theorem isSendable_of_mem_sendSlots {x : Datagram}
    (h : x ∈ (s.sendSlots o (s.winBufPos - 1) []).1) : s.IsSendable x := by
  rcases mem_sendSlots h with h | ⟨i, hi, rfl⟩
  · cases h
  · exact ⟨i, by omega, rfl⟩

theorem isSendable_of_mem_resendAll {x : Datagram} (h : x ∈ (s.resendAll o).1) :
    s.IsSendable x := by
  unfold resendAll at h
  split at h
  · rename_i out' heq
    rcases mem_libSendto h with h | rfl
    · exact isSendable_of_mem_sendSlots (o := o) (by rw [heq]; exact h)
    · exact ⟨s.winBufPos - 2, by omega, rfl⟩
  · rename_i out' heq
    exact isSendable_of_mem_sendSlots (o := o) (by rw [heq]; exact h)

/-- The head of the loop sends at most `buf`, and only while no acknowledgement has arrived. -/
theorem mem_sendtoExLoop {x : Datagram} (h : x ∈ (s.sendtoExLoop o l out).1) :
    x ∈ out ∨ (l.waitForACK = false ∧ x = s.slotDatagram l.buf) := by
  unfold sendtoExLoop at h
  split at h
  · exact Or.inl h
  · split at h
    · exact Or.inl h
    · rename_i hwait
      have hmem : x ∈ (libSendto o out (s.slotDatagram l.buf)).1 := by
        split at h <;> rename_i heq <;> rw [heq] <;> exact h
      rcases mem_libSendto hmem with h | h
      · exact Or.inl h
      · exact Or.inr ⟨by simpa using hwait, h⟩

/-- The head of the loop waits with the locals it was given, or the call fails. -/
theorem sendtoExLoop_outcome :
    (s.sendtoExLoop o l out).2 = .waits l ∨ (s.sendtoExLoop o l out).2 = .returns (-1) := by
  unfold sendtoExLoop
  split
  · exact Or.inr rfl
  · split
    · exact Or.inl rfl
    · split
      · exact Or.inl rfl
      · exact Or.inr rfl

theorem isSendable_of_mem_sendAllWinPackets {x : Datagram}
    (h : x ∈ (s.sendAllWinPackets o).1) : s.IsSendable x := by
  unfold sendAllWinPackets at h
  split at h
  · rename_i out' heq
    rcases mem_sendtoExLoop h with h | ⟨-, rfl⟩
    · exact isSendable_of_mem_sendSlots (o := o) (by rw [heq]; exact h)
    · exact ⟨s.winBufPos - 1, by omega, rfl⟩
  · rename_i out' heq
    exact isSendable_of_mem_sendSlots (o := o) (by rw [heq]; exact h)

/-- The locals with which `send_all_win_packets` first waits. -/
def freshLocals (s : SockLib) : SendtoEx :=
  { buf := s.winBufPos - 1, retryCnt := 1000, waitForACK := false, arrACK := .zero }

theorem sendAllWinPackets_outcome :
    (s.sendAllWinPackets o).2 = .waits s.freshLocals ∨
      (s.sendAllWinPackets o).2 = .returns (-1) := by
  unfold sendAllWinPackets
  split
  · exact sendtoExLoop_outcome
  · exact Or.inr rfl

theorem mem_udpSendtoExTimeout {x : Datagram} (h : x ∈ (s.udpSendtoExTimeout o l).1) :
    s.IsSendable x ∨ x = s.specialRequest ∨
      (l.waitForACK = false ∧ x = s.slotDatagram l.buf) := by
  -- the timeout that leaves no retries adds the special request to what is resent
  have hspecial : ∀ out' : List Datagram, (∀ y ∈ out', s.IsSendable y) →
      ∀ y ∈ (if l.retryCnt - 1 = 0 then libSendto o out' s.specialRequest else (out', true)).1,
        s.IsSendable y ∨ y = s.specialRequest := by
    intro out' hout y hy
    split at hy
    · rcases mem_libSendto hy with hy | hy
      · exact Or.inl (hout y hy)
      · exact Or.inr hy
    · exact Or.inl (hout y hy)
  unfold udpSendtoExTimeout at h
  dsimp only at h
  split at h
  · rename_i out' heq
    exact Or.inl (isSendable_of_mem_resendAll (o := o) (by rw [heq]; exact h))
  · rename_i out' heq
    have hout : ∀ y ∈ out', s.IsSendable y := by
      intro y hy
      exact isSendable_of_mem_resendAll (o := o) (by rw [heq]; exact hy)
    split at h
    · rename_i out'' heq'
      rcases hspecial out' hout x (by rw [heq']; exact h) with h | h
      · exact Or.inl h
      · exact Or.inr (Or.inl h)
    · rename_i out'' heq'
      rcases mem_sendtoExLoop h with h | ⟨hw, rfl⟩
      · rcases hspecial out' hout x (by rw [heq']; exact h) with h | h
        · exact Or.inl h
        · exact Or.inr (Or.inl h)
      · exact Or.inr (Or.inr ⟨hw, rfl⟩)

theorem udpSendtoExTimeout_outcome :
    (s.udpSendtoExTimeout o l).2 =
        .waits { l with retryCnt := l.retryCnt - 1, arrACK := .zero } ∨
      (s.udpSendtoExTimeout o l).2 = .returns (-1) := by
  unfold udpSendtoExTimeout
  dsimp only
  split
  · exact Or.inr rfl
  · split
    · exact Or.inr rfl
    · exact sendtoExLoop_outcome

/-! ## Taking a packet in -/

/-- `udp_sendtoEx` leaves the object as it is, or removes packets from the window. -/
theorem udpSendtoExPacket_lib (s : SockLib) (o : Oracle) (l : SendtoEx) (udp : UdpPacket) :
    (s.udpSendtoExPacket o l udp).1 = s ∨
      ∃ n arr, (s.udpSendtoExPacket o l udp).1 = (s.removePacketsFromWin o.beyond n arr).1 := by
  unfold udpSendtoExPacket
  split
  · unfold udpSendtoExAck
    split
    · exact Or.inl rfl
    · exact Or.inl rfl
    · dsimp only
      split <;> exact Or.inr ⟨_, _, rfl⟩
  · exact Or.inr ⟨_, _, rfl⟩
  · exact Or.inr ⟨_, _, rfl⟩
  · exact Or.inl rfl

/-- `udp_sendtoEx` changes nothing outside the window. -/
theorem udpSendtoExPacket_frame (s : SockLib) (o : Oracle) (l : SendtoEx) (udp : UdpPacket) :
    let s' := (s.udpSendtoExPacket o l udp).1
    s'.seq = s.seq ∧ s'.lastSeq = s.lastSeq ∧ s'.hsData = s.hsData ∧ s'.wSize = s.wSize := by
  dsimp only
  rcases udpSendtoExPacket_lib s o l udp with h | ⟨n, arr, h⟩ <;> rw [h]
  · exact ⟨rfl, rfl, rfl, rfl⟩
  · exact removePacketsFromWin_frame o.beyond n arr

/-- How `udp_sendtoEx`, called on the object `s`, goes on after a packet that has made it `t`. -/
inductive AfterPacket (s : SockLib) (l : SendtoEx) (t : SockLib) : Outcome → Prop
  | fails : AfterPacket s l t (.returns (-1))
  /-- the call returns the number of packets left -/
  | returns {r : Int} : r = t.winBufPos → AfterPacket s l t (.returns r)
  /-- nothing was acknowledged -/
  | ignores : t = s → AfterPacket s l t (.waits l)
  | waits {l' : SendtoEx} : l'.waitForACK = true → (t = s ∨ 0 < t.winBufPos) →
      AfterPacket s l t (.waits l')

theorem udpSendtoExPacket_outcome (s : SockLib) (o : Oracle) (l : SendtoEx) (udp : UdpPacket) :
    AfterPacket s l (s.udpSendtoExPacket o l udp).1 (s.udpSendtoExPacket o l udp).2.2 := by
  -- the head of the loop fails, or waits with the locals it was given
  have hloop : ∀ {t : SockLib} {l' : SendtoEx} {out : List Datagram},
      AfterPacket s l t (.waits l') → AfterPacket s l t (t.sendtoExLoop o l' out).2 := by
    intro t l' out hwaits
    have hcases : (t.sendtoExLoop o l' out).2 = .waits l' ∨
        (t.sendtoExLoop o l' out).2 = .returns (-1) := sendtoExLoop_outcome
    rcases hcases with h | h <;> rw [h]
    · exact hwaits
    · exact .fails
  unfold udpSendtoExPacket
  split
  · unfold udpSendtoExAck
    split
    · exact .fails
    · exact hloop (.waits rfl (Or.inl rfl))
    · dsimp only
      split <;> rename_i hleft
      · exact .returns (by rw [hleft]; rfl)
      · exact hloop (.waits rfl (Or.inr (Nat.pos_of_ne_zero hleft)))
  · exact .returns rfl
  · exact .returns rfl
  · unfold udpSendtoExUnknown
    split
    · exact hloop (.waits rfl (Or.inl rfl))
    · exact hloop (.ignores rfl)

/-- What goes on the wire when `udp_sendtoEx` takes a packet in. -/
theorem mem_udpSendtoExPacket {udp : UdpPacket} {x : Datagram}
    (h : x ∈ (s.udpSendtoExPacket o l udp).2.1) :
    (l.waitForACK = false ∧ x = s.slotDatagram l.buf) ∨
      (¬ udp.ackType.IsAnswer ∧ s.acksUnknown udp = true ∧
        x = ackPacket (UInt32.ofNat udp.seq.val) .ack) := by
  -- a call that waits for an acknowledgement sends nothing in its loop
  have hloop : ∀ {t : SockLib} {l' : SendtoEx}, l'.waitForACK = true →
      x ∉ (t.sendtoExLoop o l' []).1 := by
    intro t l' hwait hx
    rcases mem_sendtoExLoop hx with hx | ⟨hw, -⟩
    · cases hx
    · rw [hwait] at hw
      cases hw
  -- a packet of no known type is acknowledged, and the slot in `buf` sent again
  have hunknown : ¬ udp.ackType.IsAnswer → x ∈ (s.udpSendtoExUnknown o l udp).1 →
      (l.waitForACK = false ∧ x = s.slotDatagram l.buf) ∨
      (¬ udp.ackType.IsAnswer ∧ s.acksUnknown udp = true ∧
        x = ackPacket (UInt32.ofNat udp.seq.val) .ack) := by
    intro htype hx
    unfold udpSendtoExUnknown at hx
    split at hx
    · rename_i hacks
      rcases mem_sendtoExLoop hx with hx | ⟨hw, -⟩
      · rcases mem_libSendto hx with hx | hx
        · cases hx
        · exact Or.inr ⟨htype, hacks, hx⟩
      · cases hw
    · rcases mem_sendtoExLoop hx with hx | hx
      · cases hx
      · exact Or.inl hx
  cases htype : udp.ackType with
  | ack =>
      simp only [udpSendtoExPacket, htype, udpSendtoExAck] at h
      split at h
      · cases h
      · exact absurd h (hloop rfl)
      · split at h
        · cases h
        · exact absurd h (hloop rfl)
  | nack =>
      simp only [udpSendtoExPacket, htype, udpSendtoExNack] at h
      cases h
  | sack =>
      simp only [udpSendtoExPacket, htype, udpSendtoExNack] at h
      cases h
  | _ =>
      rw [htype] at hunknown
      simp only [udpSendtoExPacket, htype] at h
      exact hunknown (by simp [AckType.IsAnswer]) h

end SockLib
end Sample3
end FileTransfer
