import FileTransfer.Sample3.SenderSpec

/-!
# Removing confirmed packets

`remove_packets_from_win` and the `ACKTYPE_ACK` branch of `udp_sendtoEx`, for a window of consecutive
numbers.  A confirmed number that is in the window takes its packet and the ones before it out;
`removes_confirmed_iff` says that the function does what it should exactly for those numbers, and
`unconfirmed_removed` shows what the other branch can do.  `ack_bookkeeping` is the specification of the
branch for `ACKTYPE_ACK`, whatever order the acknowledgements arrive in.
-/

namespace FileTransfer
namespace Sample3

/-! ## Prefixes of a range -/

section

variable {p : Nat → Bool} {n k i : Nat}

theorem takeWhile_range_spec (p : Nat → Bool) (n : Nat) :
    let k := ((List.range n).takeWhile p).length
    k ≤ n ∧ (∀ i < k, p i = true) ∧ (k < n → p k = false) := by
  -- on the range: its last number counts just when the prefix is the whole of it so far
  induction n with
  | zero => simp
  | succ n ih =>
      obtain ⟨hle, hall, hnext⟩ := ih
      rw [List.range_succ]
      by_cases hfull : ((List.range n).takeWhile p).length = n
      · -- the prefix so far is the whole range, and `n` decides
        have hpass : ∀ i ∈ List.range n, p i = true := by
          intro i hi
          exact hall i (by rw [hfull]; exact List.mem_range.1 hi)
        rw [List.takeWhile_append_of_pos hpass]
        cases hn : p n with
        | true =>
            simp only [List.takeWhile_cons, hn, if_true, List.takeWhile_nil, List.length_append,
              List.length_range, List.length_singleton]
            refine ⟨le_rfl, ?_, fun h => absurd h (lt_irrefl _)⟩
            intro i hi
            rcases Nat.lt_succ_iff_lt_or_eq.1 hi with h | rfl
            · exact hpass i (List.mem_range.2 h)
            · exact hn
        | false =>
            simp only [List.takeWhile_cons, hn, Bool.false_eq_true, if_false, List.append_nil,
              List.length_range]
            exact ⟨Nat.le_succ n, fun i hi => hpass i (List.mem_range.2 hi), fun _ => trivial⟩
      · -- the prefix ends before `n`, so `n` does not change it
        have hsame : (List.range n ++ [n]).takeWhile p = (List.range n).takeWhile p := by
          rw [List.takeWhile_append]
          simp [hfull]
        rw [hsame]
        exact ⟨by omega, hall, fun _ => hnext (by omega)⟩

/-- The length of the longest prefix of `0, …, n - 1` with the property `p`. -/
theorem takeWhile_range_length (hk : k ≤ n) (hall : ∀ i < k, p i = true)
    (hnext : k < n → p k = false) : ((List.range n).takeWhile p).length = k := by
  obtain ⟨hle, hall', hnext'⟩ := takeWhile_range_spec p n
  rcases Nat.lt_trichotomy ((List.range n).takeWhile p).length k with h | h | h
  · have h1 := hall _ h
    rw [hnext' (by omega)] at h1
    cases h1
  · exact h
  · have h1 := hall' _ h
    rw [hnext (by omega)] at h1
    cases h1

end

namespace SockLib

/-! ## Windows of consecutive numbers -/

/-- The numbers in the window are consecutive modulo 32, and few enough to differ. -/
structure Consecutive (s : SockLib) : Prop where
  pos_le : s.winBufPos ≤ s.wSize
  size_le : s.wSize ≤ 31
  seq : ∀ i < s.winBufPos, (s.winBuf i).seq.val = ((s.winBuf 0).seq.val + i) % 32

/-- The slots that `remove_packets_from_win` reads: those it compares with `recvSeq`, and those it moves to
the front, or the one behind the window when it has not found `recvSeq`. -/
def slotsRead (s : SockLib) (recvSeq : SeqNum) : List Nat :=
  match s.findSeq recvSeq with
  | some i => List.range (i + 1) ++ (List.range (s.winBufPos - (i + 1))).map (i + 1 + ·)
  | none => List.range s.winBufPos ++ [s.winBufPos]

/-- What `remove_packets_from_win` should do. -/
structure RemovesConfirmed (s : SockLib) (beyond : UdpPacket) (recvSeq : SeqNum) (arrAck : AckMarks) :
    Prop where
  reads : ∀ i ∈ s.slotsRead recvSeq, i < s.winBufPos
  found : ∀ i < s.winBufPos, (s.winBuf i).seq = recvSeq →
    let r := s.removePacketsFromWin beyond recvSeq arrAck
    r.1.winBufPos = s.winBufPos - (i + 1) ∧
      ∀ j < r.1.winBufPos, r.1.winBuf j = s.winBuf (i + 1 + j) ∧ r.2 j = arrAck (i + 1 + j)
  missing : (∀ i < s.winBufPos, (s.winBuf i).seq ≠ recvSeq) →
    let r := s.removePacketsFromWin beyond recvSeq arrAck
    r.1.winBufPos = s.winBufPos ∧ ∀ j < s.winBufPos, r.1.winBuf j = s.winBuf j

section

variable {s s' : SockLib} {o : Oracle} {l l' : SendtoEx} {n m : SeqNum} {arr arr' : AckMarks}
  {beyond : UdpPacket} {acks : List SeqNum} {i j : Nat}

theorem Consecutive.inj (h : s.Consecutive) (hi : i < s.winBufPos) (hj : j < s.winBufPos)
    (heq : (s.winBuf i).seq = (s.winBuf j).seq) : i = j := by
  have hval : ((s.winBuf 0).seq.val + i) % 32 = ((s.winBuf 0).seq.val + j) % 32 := by
    calc
      ((s.winBuf 0).seq.val + i) % 32 = (s.winBuf i).seq.val := (h.seq i hi).symm
      _ = (s.winBuf j).seq.val := by rw [heq]
      _ = ((s.winBuf 0).seq.val + j) % 32 := h.seq j hj
  have h1 := h.pos_le
  have h2 := h.size_le
  omega

theorem Consecutive.findSeq (h : s.Consecutive) (hi : i < s.winBufPos)
    (heq : (s.winBuf i).seq = n) : s.findSeq n = some i := by
  rw [findSeq_eq_some]
  refine ⟨hi, heq, ?_⟩
  intro k hk hseq
  have := h.inj (i := k) (j := i) (by omega) hi (hseq.trans heq.symm)
  omega

/-- `remove_packets_from_win` does what it should exactly when the confirmed number is in the window. -/
theorem removes_confirmed_iff (h : s.Consecutive) (beyond : UdpPacket) (n : SeqNum) (arr : AckMarks) :
    s.RemovesConfirmed beyond n arr ↔ ∃ i < s.winBufPos, (s.winBuf i).seq = n := by
  constructor
  · intro hr
    by_contra hnone
    push Not at hnone
    -- the second branch reads the slot behind the window
    have hread : s.winBufPos ∈ s.slotsRead n := by
      simp [slotsRead, findSeq_eq_none.2 hnone]
    exact lt_irrefl _ (hr.reads _ hread)
  · rintro ⟨i, hi, heq⟩
    have hfind := h.findSeq hi heq
    refine ⟨?_, ?_, ?_⟩
    · intro k hk
      simp only [slotsRead, hfind, List.mem_append, List.mem_range, List.mem_map] at hk
      rcases hk with hk | ⟨k', hk', rfl⟩ <;> omega
    · intro i' hi' heq'
      have hfind' := h.findSeq hi' heq'
      obtain ⟨hpos, hslots, -⟩ := removePacketsFromWin_found beyond arr h.pos_le hfind'
      exact ⟨hpos, hslots⟩
    · intro hnone
      exact absurd heq (hnone i hi)

/-- A window with the numbers 3, 4 and 5, and slots behind it that have not been used. -/
def sampleWindow : SockLib :=
  { SockLib.zero with
    wSize := 7
    winBuf := fun i => ⟨Fin.ofNat 32 (if i < 3 then 3 + i else 0), .request, .ofBytes []⟩
    winBufPos := 3 }

theorem removes_confirmed_second :
    sampleWindow.RemovesConfirmed .zero 4 .zero := by
  refine (removes_confirmed_iff ⟨by decide, by decide, by decide⟩ .zero 4 .zero).2 ?_
  exact ⟨1, by decide, by decide⟩

/-- A NACK of the number 2, which is not in the window: the unused slot behind the window holds 0, and
the window with its three unconfirmed packets is emptied. -/
theorem unconfirmed_removed : sampleWindow.Consecutive ∧
    (sampleWindow.removePacketsFromWin .zero 1 .zero).1.winBufPos = 0 ∧
    ¬ sampleWindow.RemovesConfirmed .zero 1 .zero := by
  have hempty : (sampleWindow.removePacketsFromWin .zero 1 .zero).1.winBufPos = 0 := by decide
  refine ⟨⟨by decide, by decide, by decide⟩, hempty, fun hr => ?_⟩
  have hkept := (hr.missing (by decide)).1
  rw [hempty] at hkept
  exact absurd hkept (by decide)

/-! ## A list of acknowledgements -/

/-- Take in acknowledgements with these numbers, one after the other, until the call returns: `none` are
the local variables of a call that has returned. -/
def ackRun (o : Oracle) : SockLib → SendtoEx → List SeqNum → SockLib × Option SendtoEx
  | s, l, [] => (s, some l)
  | s, l, n :: ns =>
      match s.udpSendtoExAck o l n with
      | (s', _, .waits l') => ackRun o s' l' ns
      | (s', _, .returns _) => (s', none)

/-- The length of the longest prefix of the window whose numbers are all acknowledged. -/
def confirmed (s : SockLib) (acks : List SeqNum) : Nat :=
  ((List.range s.winBufPos).takeWhile fun i => (s.winBuf i).seq ∈ acks).length

/-- The specification of the acknowledgements `acks`, in any order, for a call that starts with the
window of `s` and no marks. -/
structure AckSpec (s : SockLib) (acks : List SeqNum) (r : SockLib × Option SendtoEx) : Prop where
  pos : r.1.winBufPos = s.winBufPos - s.confirmed acks
  slots : ∀ j < r.1.winBufPos, r.1.winBuf j = s.winBuf (s.confirmed acks + j)
  ended : r.2 = none ↔ r.1.winBufPos = 0
  marks : ∀ l, r.2 = some l → ∀ j,
    l.arrACK j = true ↔ j < r.1.winBufPos ∧ (r.1.winBuf j).seq ∈ acks

/-- The state of a call that has taken in the acknowledgements `acks` and still waits. -/
structure AckState (s : SockLib) (acks : List SeqNum) (s' : SockLib) (l : SendtoEx) : Prop where
  size : s'.wSize = s.wSize
  left : 0 < s'.winBufPos
  pos : s'.winBufPos + s.confirmed acks = s.winBufPos
  slots : ∀ j < s'.winBufPos, s'.winBuf j = s.winBuf (s.confirmed acks + j)
  marks : ∀ j, l.arrACK j = true ↔ j < s'.winBufPos ∧ (s'.winBuf j).seq ∈ acks
  retry : 0 < l.retryCnt

theorem confirmed_le (s : SockLib) (acks : List SeqNum) : s.confirmed acks ≤ s.winBufPos :=
  (takeWhile_range_spec _ _).1

theorem mem_of_lt_confirmed (hi : i < s.confirmed acks) : (s.winBuf i).seq ∈ acks := by
  have := (takeWhile_range_spec (fun i => decide ((s.winBuf i).seq ∈ acks)) s.winBufPos).2.1 i hi
  exact of_decide_eq_true this

theorem not_mem_of_confirmed_lt (hlt : s.confirmed acks < s.winBufPos) :
    (s.winBuf (s.confirmed acks)).seq ∉ acks := by
  have := (takeWhile_range_spec (fun i => decide ((s.winBuf i).seq ∈ acks)) s.winBufPos).2.2 hlt
  exact of_decide_eq_false this

theorem confirmed_eq {k : Nat} (hk : k ≤ s.winBufPos) (hall : ∀ i < k, (s.winBuf i).seq ∈ acks)
    (hnext : k < s.winBufPos → (s.winBuf k).seq ∉ acks) : s.confirmed acks = k :=
  takeWhile_range_length hk (fun i hi => decide_eq_true (hall i hi))
    fun hlt => decide_eq_false (hnext hlt)

/-- Only the members of the list count. -/
theorem confirmed_congr {acks' : List SeqNum} (hmem : ∀ n, n ∈ acks ↔ n ∈ acks') :
    s.confirmed acks = s.confirmed acks' := by
  refine confirmed_eq (confirmed_le s acks') ?_ ?_
  · intro i hi
    exact (hmem _).2 (mem_of_lt_confirmed hi)
  · intro hlt hin
    exact not_mem_of_confirmed_lt hlt ((hmem _).1 hin)

theorem AckState.seq (h : AckState s acks s' l) (hj : j < s'.winBufPos) :
    (s'.winBuf j).seq = (s.winBuf (s.confirmed acks + j)).seq := by
  rw [h.slots j hj]

theorem AckState.consecutive (hs : s.Consecutive) (h : AckState s acks s' l) : s'.Consecutive := by
  have hpos := h.pos
  refine ⟨?_, by rw [h.size]; exact hs.size_le, ?_⟩
  · rw [h.size]
    have := hs.pos_le
    omega
  · intro i hi
    rw [h.seq hi, h.seq h.left, hs.seq _ (by omega), hs.seq (s.confirmed acks + 0) (by omega)]
    omega

/-- The marks once the acknowledgement `n` is tagged. -/
theorem AckState.tagAck (hs : s.Consecutive) (h : AckState s acks s' l) (n : SeqNum) (j : Nat) :
    s'.tagAck n l.arrACK j = true ↔ j < s'.winBufPos ∧ (s'.winBuf j).seq ∈ acks ++ [n] := by
  have hmarks := h.marks j
  cases hfind : s'.findSeq n with
  | none =>
      have hnot := findSeq_eq_none.1 hfind
      simp only [SockLib.tagAck, hfind, hmarks, List.mem_append, List.mem_singleton]
      constructor
      · rintro ⟨hj, hin⟩
        exact ⟨hj, Or.inl hin⟩
      · rintro ⟨hj, hin | heq⟩
        · exact ⟨hj, hin⟩
        · exact absurd heq (hnot j hj)
  | some i =>
      obtain ⟨hi, hseq, -⟩ := findSeq_eq_some.1 hfind
      simp only [SockLib.tagAck, hfind, List.mem_append, List.mem_singleton]
      by_cases hij : j = i
      · subst hij
        simp [hi, hseq]
      · rw [Function.update_of_ne hij, hmarks]
        constructor
        · rintro ⟨hj, hin⟩
          exact ⟨hj, Or.inl hin⟩
        · rintro ⟨hj, hin | heq⟩
          · exact ⟨hj, hin⟩
          · -- two slots of the window with one number
            exact absurd ((h.consecutive hs).inj hj hi (heq.trans hseq.symm)) hij

/-- How far the marked prefix reaches. -/
theorem AckState.taggedPrefix (hs : s.Consecutive) (h : AckState s acks s' l) (n : SeqNum) :
    s'.taggedPrefix (s'.tagAck n l.arrACK) + s.confirmed acks = s.confirmed (acks ++ [n]) := by
  obtain ⟨hle, hall, hnext⟩ := takeWhile_range_spec (s'.tagAck n l.arrACK) s'.winBufPos
  have hpos := h.pos
  symm
  refine confirmed_eq ?_ ?_ ?_
  · have : s'.taggedPrefix (s'.tagAck n l.arrACK) ≤ s'.winBufPos := hle
    omega
  · intro i hi
    by_cases hold : i < s.confirmed acks
    · exact List.mem_append_left _ (mem_of_lt_confirmed hold)
    · have hmark := hall (i - s.confirmed acks) (by
        have : i < s'.taggedPrefix (s'.tagAck n l.arrACK) + s.confirmed acks := hi
        unfold SockLib.taggedPrefix at this
        omega)
      obtain ⟨hlt, hin⟩ := (h.tagAck hs n _).1 hmark
      rw [h.seq hlt] at hin
      have hback : s.confirmed acks + (i - s.confirmed acks) = i := by omega
      rwa [hback] at hin
  · intro hlt hin
    have hlt' : s'.taggedPrefix (s'.tagAck n l.arrACK) < s'.winBufPos := by omega
    have hmark := hnext hlt'
    have hback : s.confirmed acks + s'.taggedPrefix (s'.tagAck n l.arrACK) =
        s'.taggedPrefix (s'.tagAck n l.arrACK) + s.confirmed acks := Nat.add_comm _ _
    have htrue := (h.tagAck hs n _).2 ⟨hlt', by rw [h.seq hlt', hback]; exact hin⟩
    exact absurd (htrue.symm.trans hmark) (by simp)

/-- The marks behind the window that is left are cleared. -/
theorem removePacketsFromWin_marks (hle : s.winBufPos ≤ s.wSize) (hfind : s.findSeq n = some i)
    (hpos : 0 < s.winBufPos - (i + 1)) (hj : s.winBufPos - (i + 1) ≤ j) :
    (s.removePacketsFromWin beyond n arr).2 j = false := by
  have hi : i < s.winBufPos := (findSeq_eq_some.1 hfind).1
  have hlt : s.winBufPos - (i + 1) < s.wSize := by omega
  unfold removePacketsFromWin
  rw [hfind]
  simp only [hpos, hlt, and_self, if_true]
  exact if_neg (Nat.not_lt.2 hj)

/-- The marks of the first `k` packets were all there: they are removed, and the others stay marked. -/
theorem AckState.shift {t : SockLib} {marks : AckMarks} {k : Nat} (hs : s.Consecutive)
    (h : AckState s acks s' l) (n : SeqNum) (hgrows : k + s.confirmed acks = s.confirmed (acks ++ [n]))
    (hle : k ≤ s'.winBufPos) (hsize : t.wSize = s'.wSize) (hleft : t.winBufPos = s'.winBufPos - k)
    (hgo : t.winBufPos ≠ 0)
    (hslots : ∀ j < t.winBufPos, t.winBuf j = s'.winBuf (k + j) ∧
      marks j = s'.tagAck n l.arrACK (k + j))
    (hclear : ∀ j, t.winBufPos ≤ j → marks j = false) :
    AckState s (acks ++ [n]) t { l with waitForACK := true, arrACK := marks } := by
  have hpos := h.pos
  refine ⟨hsize.trans h.size, Nat.pos_iff_ne_zero.2 hgo, by omega, ?_, ?_, h.retry⟩
  · intro j hj
    rw [(hslots j hj).1, h.slots _ (by omega), ← hgrows]
    congr 1
    omega
  · intro j
    by_cases hj : j < t.winBufPos
    · have hmark : marks j = true ↔ k + j < s'.winBufPos ∧ (s'.winBuf (k + j)).seq ∈ acks ++ [n] := by
        rw [(hslots j hj).2]
        exact h.tagAck hs n (k + j)
      rw [(hslots j hj).1, hmark]
      constructor
      · rintro ⟨-, hin⟩
        exact ⟨hj, hin⟩
      · rintro ⟨-, hin⟩
        exact ⟨by omega, hin⟩
    · simp [hclear j (Nat.not_lt.1 hj), hj]

/-- One acknowledgement: the call returns with an empty window, or goes on. -/
theorem AckState.step (hs : s.Consecutive) (h : AckState s acks s' l) (n : SeqNum) :
    (∃ t out, s'.udpSendtoExAck o l n = (t, out, .returns 0) ∧ t.winBufPos = 0 ∧
        s.confirmed (acks ++ [n]) = s.winBufPos) ∨
      ∃ t out l', s'.udpSendtoExAck o l n = (t, out, .waits l') ∧ AckState s (acks ++ [n]) t l' := by
  have hcons := h.consecutive hs
  have hpos := h.pos
  have hretry : l.retryCnt ≠ 0 := Nat.pos_iff_ne_zero.1 h.retry
  have hne : s'.winBufPos ≠ 0 := Nat.pos_iff_ne_zero.1 h.left
  have htagged := h.tagAck hs n
  -- `k` packets at the front of the window are marked
  obtain ⟨k, hk⟩ : ∃ k, s'.taggedPrefix (s'.tagAck n l.arrACK) = k := ⟨_, rfl⟩
  have hgrows : k + s.confirmed acks = s.confirmed (acks ++ [n]) := hk ▸ h.taggedPrefix hs n
  have hle : k ≤ s'.winBufPos := hk ▸ taggedPrefix_le _
  by_cases h0 : k = 0
  · -- the first packet of the window is still unconfirmed
    right
    have hmax : s'.getMaxSeq n l.arrACK = some (s'.tagAck n l.arrACK, none) := by
      simp [getMaxSeq, hne, hk, h0]
    rw [h0, Nat.zero_add] at hgrows
    refine ⟨s', [], { l with waitForACK := true, arrACK := s'.tagAck n l.arrACK }, ?_, ?_⟩
    · simp [udpSendtoExAck, hmax, sendtoExLoop, hretry]
    · refine ⟨h.size, h.left, ?_, ?_, htagged, h.retry⟩
      · rw [← hgrows]
        exact hpos
      · rw [← hgrows]
        exact h.slots
  · -- the packets up to the last one of the marked prefix are removed
    have hmax : s'.getMaxSeq n l.arrACK =
        some (s'.tagAck n l.arrACK, some (s'.winBuf (k - 1)).seq) := by
      simp [getMaxSeq, hne, hk, Nat.pos_iff_ne_zero.2 h0]
    have hsucc : k - 1 + 1 = k := by omega
    have hfind : s'.findSeq (s'.winBuf (k - 1)).seq = some (k - 1) :=
      hcons.findSeq (by omega) rfl
    obtain ⟨hleft, hslots, -⟩ :=
      removePacketsFromWin_found o.beyond (s'.tagAck n l.arrACK) hcons.pos_le hfind
    have hsize := (removePacketsFromWin_frame (s := s') o.beyond (s'.winBuf (k - 1)).seq
      (s'.tagAck n l.arrACK)).2.2.2
    have hclear : ∀ j, 0 < s'.winBufPos - k → s'.winBufPos - k ≤ j →
        (s'.removePacketsFromWin o.beyond (s'.winBuf (k - 1)).seq (s'.tagAck n l.arrACK)).2 j =
          false := by
      intro j hlt hj
      rw [← hsucc] at hlt hj
      exact removePacketsFromWin_marks hcons.pos_le hfind hlt hj
    rw [hsucc] at hleft
    simp only [hsucc] at hslots
    have hrun : s'.udpSendtoExAck o l n =
        let r := s'.removePacketsFromWin o.beyond (s'.winBuf (k - 1)).seq (s'.tagAck n l.arrACK)
        if r.1.winBufPos = 0 then (r.1, [], .returns 0)
        else (r.1, r.1.sendtoExLoop o { l with waitForACK := true, arrACK := r.2 } []) := by
      simp only [udpSendtoExAck, hmax]
    generalize s'.removePacketsFromWin o.beyond (s'.winBuf (k - 1)).seq (s'.tagAck n l.arrACK) = r
      at hleft hslots hsize hclear hrun
    by_cases hend : s'.winBufPos - k = 0
    · left
      refine ⟨r.1, [], ?_, hleft.trans hend, by omega⟩
      rw [hrun]
      exact if_pos (hleft.trans hend)
    · right
      have hgo : r.1.winBufPos ≠ 0 := by
        rw [hleft]
        exact hend
      refine ⟨r.1, [], { l with waitForACK := true, arrACK := r.2 }, ?_, ?_⟩
      · rw [hrun]
        simp [hgo, sendtoExLoop, hretry]
      · refine h.shift hs n hgrows hle hsize hleft hgo hslots ?_
        intro j hj
        exact hclear j (by omega) (by omega)

/-- A call that still waits meets the specification. -/
theorem AckState.ackSpec (h : AckState s acks s' l) : AckSpec s acks (s', some l) := by
  have hpos := h.pos
  refine ⟨?_, h.slots, ?_, ?_⟩
  · show s'.winBufPos = s.winBufPos - s.confirmed acks
    omega
  · constructor
    · intro hnone
      cases hnone
    · intro hzero
      exact absurd hzero (Nat.pos_iff_ne_zero.1 h.left)
  · intro l' hl'
    cases hl'
    exact h.marks

/-- Acknowledgements after the ones a call has taken in. -/
theorem AckState.ackRun (hs : s.Consecutive) (ns : List SeqNum) :
    ∀ {acks s' l}, AckState s acks s' l → AckSpec s (acks ++ ns) (s'.ackRun o l ns) := by
  -- on the acknowledgements still to come, with those taken in as the invariant
  induction ns with
  | nil =>
      intro acks s' l h
      rw [List.append_nil]
      exact h.ackSpec
  | cons n ns ih =>
      intro acks s' l h
      have happend : acks ++ n :: ns = (acks ++ [n]) ++ ns := by simp
      rcases h.step (o := o) hs n with ⟨t, out, hstep, hzero, hall⟩ | ⟨t, out, l', hstep, hnext⟩
      · -- everything is confirmed, and further acknowledgements change nothing
        have hmore : s.confirmed (acks ++ n :: ns) = s.winBufPos := by
          refine confirmed_eq le_rfl ?_ fun hlt => absurd hlt (lt_irrefl _)
          intro i hi
          rw [happend]
          exact List.mem_append_left _ (mem_of_lt_confirmed (by rw [hall]; exact hi))
        simp only [SockLib.ackRun, hstep]
        refine ⟨?_, ?_, ?_, ?_⟩
        · rw [hmore, hzero, Nat.sub_self]
        · intro j hj
          rw [hzero] at hj
          cases hj
        · simp [hzero]
        · intro l' hl'
          cases hl'
      · simp only [SockLib.ackRun, hstep]
        rw [happend]
        exact ih hnext

/-- What the branch for `ACKTYPE_ACK` makes of a list of acknowledgements: the window loses its longest
confirmed prefix, and the marks are those of the acknowledged packets that are left.  So only the set of
the acknowledgements matters. -/
theorem ack_bookkeeping (hs : s.Consecutive) (hpos : 0 < s.winBufPos) (hmarks : l.arrACK = .zero)
    (hretry : 0 < l.retryCnt) (acks : List SeqNum) :
    AckSpec s acks (s.ackRun o l acks) ∧
      ∀ acks' : List SeqNum, (∀ n, n ∈ acks ↔ n ∈ acks') →
        (s.ackRun o l acks').1.winBufPos = (s.ackRun o l acks).1.winBufPos ∧
          (∀ j < (s.ackRun o l acks).1.winBufPos,
            (s.ackRun o l acks').1.winBuf j = (s.ackRun o l acks).1.winBuf j) ∧
          ∀ l₁ l₂, (s.ackRun o l acks).2 = some l₁ → (s.ackRun o l acks').2 = some l₂ →
            l₁.arrACK = l₂.arrACK := by
  -- before the first acknowledgement nothing is confirmed
  have hnone : s.confirmed [] = 0 := confirmed_eq (Nat.zero_le _) (fun i hi => by cases hi) (by simp)
  have hstart : AckState s [] s l := by
    refine ⟨rfl, hpos, by rw [hnone]; rfl, ?_, ?_, hretry⟩
    · intro j _
      rw [hnone, Nat.zero_add]
    · intro j
      simp [hmarks, AckMarks.zero]
  have hspec : ∀ ns, AckSpec s ns (s.ackRun o l ns) := fun ns => by
    simpa using hstart.ackRun hs ns
  refine ⟨hspec acks, ?_⟩
  intro acks' hmem
  have h1 := hspec acks
  have h2 := hspec acks'
  -- the prefix that is confirmed depends on the set alone
  have hsame : s.confirmed acks = s.confirmed acks' := confirmed_congr hmem
  have hleft : (s.ackRun o l acks').1.winBufPos = (s.ackRun o l acks).1.winBufPos := by
    rw [h1.pos, h2.pos, hsame]
  have hslots : ∀ j < (s.ackRun o l acks).1.winBufPos,
      (s.ackRun o l acks').1.winBuf j = (s.ackRun o l acks).1.winBuf j := by
    intro j hj
    rw [h1.slots j hj, h2.slots j (by rw [hleft]; exact hj), hsame]
  refine ⟨hleft, hslots, ?_⟩
  intro l₁ l₂ hl₁ hl₂
  funext j
  rw [Bool.eq_iff_iff, h1.marks l₁ hl₁ j, h2.marks l₂ hl₂ j, hleft]
  constructor
  · rintro ⟨hj, hin⟩
    exact ⟨hj, by rw [hslots j hj]; exact (hmem _).1 hin⟩
  · rintro ⟨hj, hin⟩
    refine ⟨hj, (hmem _).2 ?_⟩
    rwa [hslots j hj] at hin

/-- Acknowledgements of 4, 9, 3 and 4 leave the packet with the number 5. -/
theorem ack_bookkeeping_unordered :
    AckSpec sampleWindow [4, 9, 3, 4] (sampleWindow.ackRun .reliable sampleWindow.freshLocals [4, 9, 3, 4]) :=
  (ack_bookkeeping ⟨by decide, by decide, by decide⟩ (by decide) rfl (by decide) [4, 9, 3, 4]).1

end

end SockLib

end Sample3
end FileTransfer
