import FileTransfer.Sample3.EndpointSpec

/-!
# Steps whose `lib_sendto` calls all succeed

With working sockets the functions of the sender do not fail: `send_all_win_packets` puts the whole
window on the wire and waits, and so does the timeout branch of `udp_sendtoEx`.
-/

namespace FileTransfer
namespace Sample3

/-- Every `lib_sendto` of a step of `e` succeeds; a step makes at most `winBufPos + 2` of them. -/
def SendsOk {π : Type*} (e : Endpoint π) (o : Oracle) : Prop :=
  ∀ i ≤ e.lib.winBufPos + 1, o.sendOk i = true

instance {π : Type*} (e : Endpoint π) (o : Oracle) : Decidable (SendsOk e o) :=
  inferInstanceAs (Decidable (∀ i ≤ e.lib.winBufPos + 1, o.sendOk i = true))

section

variable {o : Oracle} {l : SendtoEx} {s : SockLib} {d : Datagram} {out : List Datagram}

theorem libSendto_ok (h : o.sendOk out.length = true) : libSendto o out d = (out ++ [d], true) := by
  simp [libSendto, h]

/-- `sendSlots` sends every slot. -/
theorem sendSlots_ok {m : Nat} (h : ∀ i < m, o.sendOk i = true) :
    s.sendSlots o m [] = ((List.range m).map s.slotDatagram, true) := by
  induction m with
  | zero => rfl
  | succ m ih =>
      have hm := ih fun i hi => h i (by omega)
      simp only [SockLib.sendSlots, hm]
      rw [libSendto_ok (by simpa using h m (by omega)), List.range_succ, List.map_append]
      rfl

/-- The head of the loop waits, and sends `buf` unless it has been told to wait only. -/
theorem sendtoExLoop_ok (hl : 0 < l.retryCnt) (h : o.sendOk out.length = true) :
    s.sendtoExLoop o l out =
      (if l.waitForACK then out else out ++ [s.slotDatagram l.buf], .waits l) := by
  have hne : ¬ l.retryCnt = 0 := by omega
  simp only [SockLib.sendtoExLoop, hne, if_false]
  split
  · rfl
  · rw [libSendto_ok h]

/-- The packets of the window, in order. -/
def SockLib.window (s : SockLib) : List UdpPacket := (List.range s.winBufPos).map s.winBuf

/-- What `send_all_win_packets()` sends: the window, or the packet in the first slot of an empty one. -/
theorem sendAllWinPackets_ok (h : ∀ i ≤ s.winBufPos, o.sendOk i = true) :
    s.sendAllWinPackets o =
      ((List.range (s.winBufPos - 1 + 1)).map s.slotDatagram, .waits s.freshLocals) := by
  have hslots := sendSlots_ok (s := s) (m := s.winBufPos - 1) fun i hi => h i (by omega)
  simp only [SockLib.sendAllWinPackets, hslots, SockLib.udpSendtoEx]
  change s.sendtoExLoop o s.freshLocals _ = _
  rw [sendtoExLoop_ok (Nat.succ_pos 999) (h _ (by simp)), List.range_succ, List.map_append]
  rfl

/-- What `send_all_win_packets(1)` sends. -/
theorem resendAll_ok (h : ∀ i ≤ s.winBufPos - 1, o.sendOk i = true) :
    s.resendAll o = ((List.range (s.winBufPos - 1)).map s.slotDatagram ++
      [s.slotDatagram (s.winBufPos - 2)], true) := by
  have hslots := sendSlots_ok (s := s) (m := s.winBufPos - 1) fun i hi => h i hi.le
  simp only [SockLib.resendAll, hslots]
  rw [libSendto_ok (h _ (by simp))]

theorem udpSendtoExTimeout_ok (hl : 1 < l.retryCnt) (h : ∀ i ≤ s.winBufPos + 1, o.sendOk i = true) :
    (s.udpSendtoExTimeout o l).2 = .waits { l with retryCnt := l.retryCnt - 1, arrACK := .zero } := by
  have hresend := resendAll_ok (s := s) (o := o) fun i hi => h i (by omega)
  have hlast : ¬ l.retryCnt - 1 = 0 := by omega
  simp only [SockLib.udpSendtoExTimeout, hresend, hlast, if_false]
  rw [sendtoExLoop_ok (by simp; omega) (h _ (by simp))]

/-- `send_all_win_packets()` with something in the window. -/
theorem sendAllWinPackets_window (hpos : 0 < s.winBufPos) (h : ∀ i ≤ s.winBufPos, o.sendOk i = true) :
    s.sendAllWinPackets o = (s.window.map (⟨·, .window⟩), .waits s.freshLocals) := by
  have hsucc : s.winBufPos - 1 + 1 = s.winBufPos := by omega
  rw [sendAllWinPackets_ok h, hsucc, SockLib.window, List.map_map]
  rfl

/-! ## The acknowledgement of the oldest packet -/

theorem findSeq_oldest (hpos : 0 < s.winBufPos) : s.findSeq (s.winBuf 0).seq = some 0 :=
  SockLib.findSeq_eq_some.2 ⟨hpos, rfl, by simp⟩

/-- One packet, the oldest, is marked. -/
theorem taggedPrefix_oldest (hpos : 0 < s.winBufPos) {arr : AckMarks} (hmarks : ∀ i, arr i = false) :
    s.taggedPrefix (Function.update arr 0 true) = 1 := by
  refine Nat.le_antisymm ?_ ?_
  · by_contra hlt
    have hmark : Function.update arr 0 true 1 = true :=
      SockLib.marked_of_lt_taggedPrefix (s := s) (by omega)
    rw [Function.update_of_ne (by decide), hmarks] at hmark
    cases hmark
  · obtain ⟨m, hm⟩ : ∃ m, s.winBufPos = m + 1 := ⟨s.winBufPos - 1, by omega⟩
    simp [SockLib.taggedPrefix, hm, List.range_succ_eq_map]

/-- Removing the oldest packet. -/
theorem removePacketsFromWin_oldest (hpos : 0 < s.winBufPos) (hle : s.winBufPos ≤ s.wSize)
    (beyond : UdpPacket) {arr : AckMarks} (hmarks : ∀ i, arr i = false) :
    let r := s.removePacketsFromWin beyond (s.winBuf 0).seq (Function.update arr 0 true)
    r.1.window = s.window.tail ∧ (0 < r.1.winBufPos → ∀ i, r.2 i = false) := by
  obtain ⟨hpos', hslots, -⟩ := SockLib.removePacketsFromWin_found beyond
    (Function.update arr 0 true) hle (findSeq_oldest hpos)
  obtain ⟨m, hm⟩ : ∃ m, s.winBufPos = m + 1 := ⟨s.winBufPos - 1, by omega⟩
  refine ⟨?_, ?_⟩
  · simp only [SockLib.window, hm, List.range_succ_eq_map, List.map_cons, List.tail_cons,
      List.map_map]
    rw [hpos', hm]
    refine List.map_congr_left ?_
    intro j hj
    rw [(hslots j (by rw [hpos', hm]; exact List.mem_range.1 hj)).1, Nat.add_comm]
    rfl
  · intro hmore i
    have hleft : 0 < s.winBufPos - (0 + 1) ∧ s.winBufPos - (0 + 1) < s.wSize := by omega
    simp only [SockLib.removePacketsFromWin, findSeq_oldest hpos, hleft, and_self, if_true]
    split
    · rw [Function.update_of_ne (by omega), hmarks]
    · rfl

/-- An `ACKTYPE_ACK` for the oldest packet of the window, when no packet is marked, takes this packet
out of the window. -/
theorem udpSendtoExAck_oldest (hpos : 0 < s.winBufPos) (hle : s.winBufPos ≤ s.wSize)
    (hl : 0 < l.retryCnt) (hmarks : ∀ i, l.arrACK i = false) (h : o.sendOk 0 = true) :
    ∃ s' marks, s' = (s.removePacketsFromWin o.beyond (s.winBuf 0).seq marks).1 ∧
      s'.window = s.window.tail ∧
      (s'.winBufPos = 0 ∧ s.udpSendtoExAck o l (s.winBuf 0).seq = (s', [], .returns 0) ∨
        0 < s'.winBufPos ∧ ∃ arr, (∀ i, arr i = false) ∧
          s.udpSendtoExAck o l (s.winBuf 0).seq =
            (s', [], .waits { l with waitForACK := true, arrACK := arr })) := by
  have hmax : s.getMaxSeq (s.winBuf 0).seq l.arrACK =
      some (Function.update l.arrACK 0 true, some (s.winBuf 0).seq) := by
    have hne : s.winBufPos ≠ 0 := by omega
    simp [SockLib.getMaxSeq, SockLib.tagAck, findSeq_oldest hpos, taggedPrefix_oldest hpos hmarks, hne]
  obtain ⟨htail, hzero⟩ := removePacketsFromWin_oldest hpos hle o.beyond hmarks
  refine ⟨_, Function.update l.arrACK 0 true, rfl, htail, ?_⟩
  simp only [SockLib.udpSendtoExAck, hmax]
  set s' := (s.removePacketsFromWin o.beyond (s.winBuf 0).seq (Function.update l.arrACK 0 true)).1
  by_cases h0 : s'.winBufPos = 0
  · exact Or.inl ⟨h0, if_pos h0⟩
  · refine Or.inr ⟨Nat.pos_of_ne_zero h0, _, hzero (Nat.pos_of_ne_zero h0), ?_⟩
    rw [if_neg h0]
    exact congrArg (Prod.mk s')
      (sendtoExLoop_ok (l := { l with waitForACK := true, arrACK := _ }) hl
        (show o.sendOk ([] : List Datagram).length = true from h))

end

end Sample3
end FileTransfer
