import FileTransfer.Sample3.Object

/-!
# The numbers in the window

Whatever calls are made on an object after `udp_init` and whatever arrives, the window holds the last
numbers that `add_udpheader` has taken, in order.  The only condition is that the counter is not set by
`sock_sendto` or a handshake once the window has been worked on.
-/

namespace FileTransfer
namespace Sample3

namespace SockLib

/-- The window in terms of what it holds. -/
structure WindowRep (s : SockLib) : Prop where
  pos_le : s.winBufPos ≤ s.wSize
  consecutive : ∀ i, i + 1 < s.winBufPos → (s.winBuf (i + 1)).seq = (s.winBuf i).seq + 1
  distinct : ∀ i j, i < j → j < s.winBufPos → (s.winBuf i).seq ≠ (s.winBuf j).seq
  last : 0 < s.winBufPos → (s.winBuf (s.winBufPos - 1)).seq = seqField (s.seq - 1)

/-- Each number in the window, counted from the end, is so far behind the counter. -/
structure Numbering (s : SockLib) : Prop where
  pos_le : s.winBufPos ≤ s.wSize
  size_le : s.wSize ≤ 31
  seq : ∀ i < s.winBufPos, ((s.winBuf i).seq.val + (s.winBufPos - i)) % 32 = s.seq.toNat % 32

variable {s s' : SockLib} {o : Oracle} {l : SendtoEx} {udp : UdpPacket}

theorem Numbering.of_empty (hpos : s.winBufPos = 0) (hsize : s.wSize ≤ 31) : s.Numbering := by
  refine ⟨by omega, hsize, ?_⟩
  intro i hi
  omega

theorem Numbering.congr (h : s.Numbering) (hpos : s'.winBufPos = s.winBufPos) (hsize : s'.wSize = s.wSize)
    (hbuf : s'.winBuf = s.winBuf) (hseq : s'.seq = s.seq) : s'.Numbering := by
  refine ⟨?_, ?_, ?_⟩
  · rw [hpos, hsize]
    exact h.pos_le
  · rw [hsize]
    exact h.size_le
  · rw [hpos, hbuf, hseq]
    exact h.seq

/-- A new packet takes the next number. -/
theorem Numbering.copy (h : s.Numbering) (buf : Payload) : (s.copy2Winbuf buf).1.Numbering := by
  by_cases hlt : s.winBufPos < s.wSize
  · rw [copy2Winbuf_of_lt hlt]
    refine ⟨hlt, h.size_le, ?_⟩
    intro i hi
    have hnext : (s.seq + 1).toNat % 32 = (s.seq.toNat + 1) % 32 := seqField_add_one s.seq
    dsimp only at hi ⊢
    rw [hnext]
    rcases Nat.lt_succ_iff_lt_or_eq.1 hi with hold | rfl
    · rw [Function.update_of_ne hold.ne]
      have := h.seq i hold
      omega
    · rw [Function.update_self]
      simp only [seqField_val]
      omega
  · rw [copy2Winbuf_of_not_lt hlt]
    exact h

/-- Removing packets from the front, or all of them, leaves the distances to the counter. -/
theorem Numbering.remove (h : s.Numbering) (beyond : UdpPacket) (n : SeqNum) (arr : AckMarks) :
    (s.removePacketsFromWin beyond n arr).1.Numbering := by
  obtain ⟨hseq, -, -, hsize⟩ := removePacketsFromWin_frame (s := s) beyond n arr
  have hle := h.pos_le
  cases hfind : s.findSeq n with
  | some i =>
      obtain ⟨hpos, hslots, -⟩ := removePacketsFromWin_found beyond arr hle hfind
      refine ⟨by omega, by rw [hsize]; exact h.size_le, ?_⟩
      intro j hj
      have hslot := h.seq (i + 1 + j) (by omega)
      have hdist : s.winBufPos - (i + 1 + j) =
          (s.removePacketsFromWin beyond n arr).1.winBufPos - j := by omega
      rw [(hslots j hj).1, hseq, ← hdist]
      exact hslot
  | none =>
      simp only [removePacketsFromWin, hfind]
      split
      · exact .of_empty rfl h.size_le
      · exact h

theorem Numbering.packet (h : s.Numbering) (o : Oracle) (l : SendtoEx) (udp : UdpPacket) :
    (s.udpSendtoExPacket o l udp).1.Numbering := by
  rcases udpSendtoExPacket_lib s o l udp with hlib | ⟨n, arr, hlib⟩ <;> rw [hlib]
  · exact h
  · exact h.remove o.beyond n arr

theorem udpSendto_frame {handshake : Bool} {retryCnt : Nat} {as as' : List Attempt} {r : Int}
    (h : s.udpSendto handshake retryCnt as = some (s', r, as')) :
    s'.winBufPos = s.winBufPos ∧ s'.wSize = s.wSize := by
  -- only an answered handshake stores anything, and that is the handshake data
  fun_induction udpSendto s handshake retryCnt as with
  | case1 _ => cases h; exact ⟨rfl, rfl⟩
  | case2 _ => cases h
  | case3 _ _ => cases h; exact ⟨rfl, rfl⟩
  | case4 _ _ ih => exact ih h
  | case5 _ _ => cases h; exact ⟨rfl, rfl⟩
  | case6 _ _ _ => cases h; exact ⟨rfl, rfl⟩
  | case7 _ _ _ _ => cases h; exact ⟨rfl, rfl⟩
  | case8 _ _ _ _ => cases h; exact ⟨rfl, rfl⟩

/-- A frame takes a number, and no slot. -/
theorem frame_of_addUdpheader {handshake : Bool} {s₁ s₂ : SockLib} {buf : Payload} {retryCnt : Nat}
    {as as' : List Attempt} {r : Int} (hheader : s.addUdpheader buf = (s₁, udp))
    (hsend : s₁.udpSendto handshake retryCnt as = some (s₂, r, as')) :
    s₂.winBufPos = s.winBufPos ∧ s₂.wSize = s.wSize := by
  have hstored := udpSendto_frame hsend
  cases hheader
  exact hstored

theorem sockSendtoLoop_frame {mem : Nat → Byte} {handshake : Bool} {left : Int} {p : Nat}
    {out frames : List UdpPacket} {as : List Attempt} {r : Int}
    (h : s.sockSendtoLoop mem handshake left p out as = some (s', frames, r)) :
    s'.winBufPos = s.winBufPos ∧ s'.wSize = s.wSize := by
  fun_induction sockSendtoLoop mem handshake s left p out as with
  | case1 _ _ _ _ _ => cases h
  | case2 s left p out as _ s₁ _ hheader _ s₂ _ _ hsend _ =>
      cases h
      exact frame_of_addUdpheader hheader hsend
  | case3 s left p out as _ s₁ _ hheader _ s₂ _ _ hsend _ ih =>
      obtain ⟨hpos, hsize⟩ := ih h
      obtain ⟨hpos', hsize'⟩ := frame_of_addUdpheader hheader hsend
      exact ⟨hpos.trans hpos', hsize.trans hsize'⟩
  | case4 _ _ _ _ _ _ =>
      cases h
      exact ⟨rfl, rfl⟩

/-- What acknowledgements are matched against is a window of consecutive numbers. -/
theorem Numbering.consecutive (h : s.Numbering) : s.Consecutive := by
  have hpos := h.pos_le
  have hsize := h.size_le
  refine ⟨hpos, hsize, ?_⟩
  intro i hi
  have hfirst := h.seq 0 (by omega)
  have hthis := h.seq i hi
  have := (s.winBuf i).seq.isLt
  omega

theorem Numbering.rep (h : s.Numbering) : s.WindowRep := by
  have hpos := h.pos_le
  have hsize := h.size_le
  refine ⟨hpos, ?_, ?_, ?_⟩
  · intro i hi
    have hthis := h.seq i (by omega)
    have hnext := h.seq (i + 1) hi
    have := (s.winBuf (i + 1)).seq.isLt
    apply Fin.ext
    rw [Fin.val_add]
    change _ = (_ + 1) % 32
    omega
  · intro i j hij hj heq
    exact hij.ne (h.consecutive.inj (hij.trans hj) hj heq)
  · intro hne
    have hlast := h.seq (s.winBufPos - 1) (by omega)
    have := (s.winBuf (s.winBufPos - 1)).seq.isLt
    have hsub : (seqField (s.seq - 1)).val = (s.seq.toNat + 31) % 32 := by
      rw [seqField_val, UInt32.toNat_sub, UInt32.toNat_one]
      omega
    apply Fin.ext
    rw [hsub]
    omega

end SockLib

/-! ## What one step does to the window -/

/-- What a step that is about `f` makes of the object `s`, when it leads to a state that is about `f'`. -/
inductive StepEffect (s s' : SockLib) (f' : Activity) : Activity → Prop
  /-- a call that works on the window goes on, or returns -/
  | send : s'.Numbering → f' ≠ .handshake → StepEffect s s' f' .send
  /-- a handshake may set the counter, and fills no slot -/
  | handshake : s'.winBufPos = s.winBufPos → s'.wSize = s.wSize → f' ≠ .send →
      StepEffect s s' f' .handshake
  | rest : s'.winBufPos = s.winBufPos → s'.wSize = s.wSize → s'.winBuf = s.winBuf → s'.seq = s.seq →
      f' = .rest → StepEffect s s' f' .rest

section

variable {π : Type*} {A : App π} {e e' : Endpoint π} {o : Oracle} {k : SendCaller} {s : SockLib}
  {p : Endpoint π × List Datagram} {ev : SoloEvent Act Oracle Datagram}

theorem Control.IsRest.activity {c : Control} (h : c.IsRest) : c.activity = .rest := by
  cases c <;> first | rfl | exact h.elim

theorem Control.IsSendRest.activity {c : Control} (h : c.IsSendRest) : c.activity ≠ .handshake := by
  cases c <;> first | exact h.elim | exact nofun

theorem settle_activity (k : SendCaller) (oc : Outcome) :
    (e.settle A k oc).ctl.activity ≠ .handshake := by
  cases oc with
  | waits l => exact nofun
  | returns r => exact (Endpoint.afterSend_isSendRest k r).activity

theorem stepEffect_settle (h : e.lib.Numbering) (k : SendCaller) (oc : Outcome) :
    StepEffect s (e.settle A k oc).lib (e.settle A k oc).ctl.activity .send := by
  refine .send ?_ (settle_activity k oc)
  rw [(Endpoint.moves_settle k oc).lib]
  exact h

theorem stepEffect_afterSend (h : e.lib.Numbering) (k : SendCaller) (r : Int) :
    StepEffect s (e.afterSend A k r).lib (e.afterSend A k r).ctl.activity .send :=
  stepEffect_settle h k (.returns r)

theorem stepEffect_copyAndSend (h : e.lib.Numbering) (buf : Payload) :
    StepEffect s (e.copyAndSend A o buf k).1.lib (e.copyAndSend A o buf k).1.ctl.activity .send := by
  have hcopied : (e.copied buf).lib.Numbering := h.copy buf
  rw [Endpoint.copyAndSend_eq]
  split
  · exact stepEffect_settle hcopied k _
  · exact stepEffect_afterSend hcopied k 1

theorem stepEffect_moves (hm : Endpoint.Moves A e e') (hr : e'.ctl.IsRest) :
    StepEffect e.lib e'.lib e'.ctl.activity .rest := by
  rw [hm.lib]
  exact .rest rfl rfl rfl rfl hr.activity

/-- A handshake that only sets the counter and the handshake data, and returns or waits on. -/
theorem stepEffect_sendHandshake (hpos : e.lib.winBufPos = s.winBufPos) (hsize : e.lib.wSize = s.wSize)
    {udp : UdpPacket} {retryCnt : Nat} {hs : Handshake} :
    StepEffect s (e.sendHandshake A o udp retryCnt hs).1.lib
      (e.sendHandshake A o udp retryCnt hs).1.ctl.activity .handshake := by
  unfold Endpoint.sendHandshake
  split
  · exact .handshake hpos hsize nofun
  · split <;> exact .handshake hpos hsize nofun

/-- `sock_recvfrom` leaves the window and the counter alone. -/
theorem stepEffect_recvInData {left : Int} {got : List Byte} {k : RecvCaller} {d : Datagram} :
    StepEffect e.lib (e.recvInData A o left got k d).1.lib (e.recvInData A o left got k d).1.ctl.activity
      .rest := by
  obtain ⟨n, hlib⟩ := SockLib.chkSeqEx_frame e.lib d.pkt
  have hloop : ∀ (left : Int) (got : List Byte) (log : List Event),
      StepEffect e.lib
        (({ e with lib := (e.lib.chkSeqEx d.pkt).1, log := log } : Endpoint π).recvLoop A left got k).lib
        (({ e with lib := (e.lib.chkSeqEx d.pkt).1, log := log } :
          Endpoint π).recvLoop A left got k).ctl.activity .rest := by
    intro left got log
    rw [(Endpoint.moves_recvLoop left got k).lib, (Endpoint.recvLoop_isRest k).activity, hlib]
    exact .rest rfl rfl rfl rfl rfl
  unfold Endpoint.recvInData
  split
  · exact stepEffect_moves (Endpoint.moves_recvLoop left got k) (Endpoint.recvLoop_isRest k)
  · dsimp only
    split
    · exact hloop _ _ _
    · exact hloop _ _ _

theorem stepEffect_recvInSend (h : e.lib.Numbering) {l : SendtoEx} {d : Datagram} :
    StepEffect s (e.recvInSend A o l k d).1.lib (e.recvInSend A o l k d).1.ctl.activity .send := by
  have hpacket := h.packet o l d.pkt
  rcases Endpoint.recvInSend_cases (A := A) (o := o) e l k d with ⟨-, -, hp⟩ | ⟨-, hp⟩ <;> rw [hp]
  · exact stepEffect_settle (e := { e with lib := _, log := _ }) hpacket k _
  · exact stepEffect_settle (e := { e with lib := _ }) hpacket k _

/-- One step of a call of a program; the program is not about to make its next call. -/
theorem stepEffect_step (h : e.lib.Numbering) (hidle : e.ctl ≠ .idle)
    (hstep : (machine A).step e ev = some p) :
    StepEffect e.lib p.1.lib p.1.ctl.activity e.ctl.activity := by
  cases hctl : e.ctl with
  | idle => exact absurd hctl hidle
  | sendFile rest eof =>
      obtain ⟨o, -, rfl⟩ := step_of_sendFile hctl hstep
      cases eof with
      | true => exact .send h nofun
      | false => exact stepEffect_copyAndSend h _
  | sendFileLast =>
      obtain ⟨o, -, rfl⟩ := step_of_sendFileLast hctl hstep
      exact stepEffect_settle h _ _
  | sockSendtoEx =>
      obtain ⟨o, -, rfl⟩ := step_of_sockSendtoEx hctl hstep
      exact stepEffect_settle h _ _
  | recvFile left written =>
      obtain ⟨o, -, rfl⟩ := step_of_recvFile hctl hstep
      exact stepEffect_moves Endpoint.moves_recvPiece Endpoint.recvPiece_isRest
  | udpSendtoEx l k =>
      rcases step_of_udpSendtoEx hctl hstep with ⟨o, -, rfl⟩ | ⟨-, rfl⟩ | ⟨o, d, -, rfl⟩
      · exact stepEffect_settle h k _
      · exact stepEffect_afterSend h k _
      · exact stepEffect_recvInSend h
  -- the waits of a handshake: the counter may change, the window may not
  | udpSendto udp retryCnt hs =>
      rcases step_of_udpSendto hctl hstep with ⟨o, -, rfl⟩ | ⟨-, rfl⟩ | ⟨o, d, -, rfl⟩
      · exact stepEffect_sendHandshake rfl rfl
      · exact .handshake rfl rfl nofun
      · unfold Endpoint.recvInHandshake
        dsimp only
        split <;> exact .handshake rfl rfl nofun
  -- receiving touches neither
  | sockRecvfrom left got k =>
      rcases step_of_sockRecvfrom hctl hstep with ⟨o, -, rfl⟩ | ⟨-, rfl⟩ | ⟨o, d, -, rfl⟩
      · exact stepEffect_moves (Endpoint.moves_recvLoop left got k) (Endpoint.recvLoop_isRest k)
      · exact stepEffect_moves (Endpoint.moves_recvFailed k) (Endpoint.recvFailed_isRest k)
      · exact stepEffect_recvInData
  | serverHandshake =>
      rcases step_of_serverHandshake hctl hstep with ⟨o, -, rfl⟩ | ⟨-, rfl⟩ | ⟨o, d, -, rfl⟩
      · exact .handshake rfl rfl (by rw [hctl]; exact nofun)
      · exact .handshake rfl rfl nofun
      · unfold Endpoint.recvInServerHandshake
        dsimp only
        split <;> exact .handshake rfl rfl nofun
  | srvWait4cnn sec =>
      rcases step_of_srvWait4cnn hctl hstep with ⟨o, -, rfl⟩ | ⟨-, rfl⟩ | ⟨o, d, -, rfl⟩
      · exact stepEffect_moves (Endpoint.moves_lingerLoop sec) (Endpoint.lingerLoop_isRest sec)
      · exact .rest rfl rfl rfl rfl rfl
      · exact stepEffect_moves (e := { e with log := e.log ++ [.acked d] })
          (Endpoint.moves_lingerLoop sec) (Endpoint.lingerLoop_isRest sec)

/-- The beginning of a program's call on an object that stays the same. -/
theorem stepEffect_begin (h : e.lib.Numbering) {c : Call} (hinit : ¬ c.IsInit) :
    StepEffect e.lib (e.begin A o c).1.lib (e.begin A o c).1.ctl.activity
      (ObjectCall.program c).activity := by
  cases c with
  | udpInit _ _ => exact absurd trivial hinit
  | clientHandshake clientSeq junk =>
      exact stepEffect_sendHandshake (s := e.lib)
        (e := { e with lib := { e.lib with hsData := ⟨0, 0⟩, seq := e.lib.seq + 1 } }) rfl rfl
  | serverHandshake _ => exact .handshake rfl rfl nofun
  | sockSendtoEx buf flag => exact stepEffect_copyAndSend h buf
  | sendFile file =>
      cases file with
      | none => exact .send h nofun
      | some content => exact .send h nofun
  | sockRecvfrom _ => exact .rest rfl rfl rfl rfl rfl
  | recvFile canOpen _ => cases canOpen <;> exact .rest rfl rfl rfl rfl rfl
  | srvWait4cnn _ => exact .rest rfl rfl rfl rfl rfl

end

/-! ## Calls on the object -/

section

variable {t u start : Solo Object Datagram} {x : Object} {s : SockLib} {o : Oracle}
  {p : Object × List Datagram} {ev : SoloEvent ObjectAct Oracle Datagram}
  {es : List (SoloEvent ObjectAct Oracle Datagram)}

theorem stepEffect_objectSettle (h : x.endpoint.lib.Numbering) (oc : Outcome) :
    StepEffect s (x.settle oc).endpoint.lib (x.settle oc).activity .send := by
  cases oc with
  | waits l => exact .send h nofun
  | returns r => exact .send h nofun

theorem stepEffect_call (h : x.endpoint.lib.Numbering) {c : ObjectCall}
    (hinit : ∀ c', c = .program c' → ¬ c'.IsInit) (hcall : x.call o c = some p) :
    StepEffect x.endpoint.lib p.1.endpoint.lib p.1.activity c.activity := by
  cases c with
  | program c =>
      cases hcall
      exact stepEffect_begin h (hinit c rfl)
  | sockSendto mem length handshake as =>
      obtain ⟨⟨s', frames, r⟩, hsend, rfl⟩ := Option.map_eq_some_iff.1 hcall
      obtain ⟨hpos, hsize⟩ := SockLib.sockSendtoLoop_frame hsend
      exact .handshake hpos hsize nofun
  | copy2Winbuf buf =>
      have hcopied : (x.endpoint.copied buf).lib.Numbering := h.copy buf
      simp only [Object.call] at hcall
      split at hcall <;> cases hcall
      · exact stepEffect_objectSettle (x := { x with endpoint := x.endpoint.copied buf }) hcopied _
      · exact .send hcopied nofun
  | sendAllWinPackets flag =>
      cases flag with
      | false =>
          cases hcall
          exact stepEffect_objectSettle h _
      | true =>
          simp only [Object.call] at hcall
          split at hcall <;> cases hcall <;> exact .send h nofun
  | udpSendtoEx buf =>
      cases hcall
      exact stepEffect_objectSettle h _

theorem stepEffect_wait (h : x.endpoint.lib.Numbering) {l : SendtoEx} {i : Act}
    (hwait : x.wait l i = some p) : StepEffect x.endpoint.lib p.1.endpoint.lib p.1.activity .send := by
  cases i with
  | run o => cases hwait
  | timeout o =>
      cases hwait
      exact stepEffect_objectSettle h _
  | error =>
      cases hwait
      exact .send h nofun

theorem stepEffect_packet (h : x.endpoint.lib.Numbering) {l : SendtoEx} {d : Datagram} :
    StepEffect x.endpoint.lib (x.packet o l d).1.endpoint.lib (x.packet o l d).1.activity .send :=
  stepEffect_objectSettle (x := x.withLib _) (h.packet o l d.pkt) _

/-- What an event is about: the call it begins, or the call in progress. -/
def activityOf (x : Object) (ev : SoloEvent ObjectAct Oracle Datagram) : Activity :=
  (calledBy ev).elim x.activity ObjectCall.activity

theorem activity_of_none (h : x.direct = none) : x.activity = x.endpoint.ctl.activity := by
  simp only [Object.activity, h]

theorem activity_of_some {l : SendtoEx} (h : x.direct = some l) : x.activity = .send := by
  simp only [Object.activity, h]

theorem stepEffect_object (h : x.endpoint.lib.Numbering)
    (hinit : ∀ c, calledBy ev = some (.program c) → ¬ c.IsInit)
    (hstep : objectMachine.step x ev = some p) :
    StepEffect x.endpoint.lib p.1.endpoint.lib p.1.activity (activityOf x ev) := by
  -- what a program's call does when no function was called directly
  have hendpoint : ∀ (ev' : SoloEvent Act Oracle Datagram) {q : Endpoint Unit × List Datagram},
      x.direct = none → (machine idleApp).step x.endpoint ev' = some q → p = (⟨q.1, none⟩, q.2) →
      StepEffect x.endpoint.lib p.1.endpoint.lib p.1.activity x.activity := by
    rintro ev' q hdirect hq rfl
    rw [activity_of_none hdirect]
    refine stepEffect_step h ?_ hq
    intro hidle
    obtain ⟨_, _, -, hcall, -⟩ := step_of_idle hidle hq
    cases hcall
  cases ev with
  | act i =>
      cases i with
      | call o c =>
          simp only [Machine.step, objectMachine] at hstep
          split at hstep
          · exact stepEffect_call h (fun c' hc' => hinit c' (by rw [← hc']; rfl)) hstep
          · cases hstep
      | act i =>
          simp only [Machine.step, objectMachine] at hstep
          split at hstep <;> rename_i hdirect
          · obtain ⟨q, hq, rfl⟩ := Option.map_eq_some_iff.1 hstep
            exact hendpoint (.act i) hdirect hq rfl
          · change StepEffect _ _ _ x.activity
            rw [activity_of_some hdirect]
            exact stepEffect_wait h hstep
  | recv o d =>
      simp only [Machine.step, objectMachine] at hstep
      split at hstep <;> rename_i hdirect
      · obtain ⟨q, hq, rfl⟩ := Option.map_eq_some_iff.1 hstep
        exact hendpoint (.recv o d) hdirect hq rfl
      · cases hstep
        change StepEffect _ _ _ x.activity
        rw [activity_of_some hdirect]
        exact stepEffect_packet h

/-! ## Whole runs -/

/-- The calls are made on one object, and `sock_sendto` and the handshakes come before the calls that
work on the window. -/
structure CallOrder (es : List (SoloEvent ObjectAct Oracle Datagram)) : Prop where
  once : ∀ ev ∈ es, ∀ c, calledBy ev = some (.program c) → ¬ c.IsInit
  handshakesFirst : es.Pairwise fun ev ev' => ∀ c c', calledBy ev = some c → calledBy ev' = some c' →
    c.activity = .send → c'.activity ≠ .handshake

/-- An object after `udp_init` in any memory. -/
def objectStart (memory : SockLib) (wSize : Nat) : Solo Object Datagram where
  node := ⟨{ lib := memory.udpInit wSize, ctl := .idle, app := (), log := [] }, none⟩
  sent := []

/-- The window is numbered, and empty while the counter may be set. -/
structure ObjectInv (x : Object) : Prop where
  numbering : x.endpoint.lib.Numbering
  empty : x.activity = .handshake → x.endpoint.lib.winBufPos = 0

/-- No call has worked on the window. -/
structure Untouched (x : Object) : Prop where
  empty : x.endpoint.lib.winBufPos = 0
  activity : x.activity ≠ .send

theorem ObjectInv.step (h : ObjectInv x)
    (heffect : StepEffect x.endpoint.lib p.1.endpoint.lib p.1.activity (activityOf x ev))
    (hempty : activityOf x ev = .handshake → x.endpoint.lib.winBufPos = 0) : ObjectInv p.1 := by
  have hsize := h.numbering.size_le
  cases hactive : activityOf x ev with
  | send =>
      rw [hactive] at heffect
      cases heffect with
      | send hnumbering hnext => exact ⟨hnumbering, fun h => absurd h hnext⟩
  | handshake =>
      rw [hactive] at heffect
      cases heffect with
      | handshake hpos hwsize _ =>
          have hzero := hpos.trans (hempty hactive)
          exact ⟨.of_empty hzero (by rw [hwsize]; exact hsize), fun _ => hzero⟩
  | rest =>
      rw [hactive] at heffect
      cases heffect with
      | rest hpos hwsize hbuf hseq hnext =>
          refine ⟨h.numbering.congr hpos hwsize hbuf hseq, fun h => ?_⟩
          rw [hnext] at h
          cases h

theorem Untouched.step (h : Untouched x)
    (heffect : StepEffect x.endpoint.lib p.1.endpoint.lib p.1.activity (activityOf x ev))
    (hactive : activityOf x ev ≠ .send) : Untouched p.1 := by
  cases hcase : activityOf x ev with
  | send => exact absurd hcase hactive
  | handshake =>
      rw [hcase] at heffect
      cases heffect with
      | handshake hpos _ hnext => exact ⟨hpos.trans h.empty, hnext⟩
  | rest =>
      rw [hcase] at heffect
      cases heffect with
      | rest hpos _ _ _ hnext =>
          refine ⟨hpos.trans h.empty, ?_⟩
          rw [hnext]
          exact nofun

/-- What holds in every state: the window is numbered, and as long as no call has worked on it, it is
untouched. -/
theorem objectInv_run {memory : SockLib} {wSize : Nat} (hsize : wSize ≤ 31) (horder : CallOrder es)
    (hrun : Run (soloStep objectMachine) anyStep (objectStart memory wSize) es t) :
    ObjectInv t.node ∧
      ((∀ ev ∈ es, ∀ c, calledBy ev = some c → c.activity ≠ .send) → Untouched t.node) := by
  induction hrun with
  | nil => exact ⟨⟨.of_empty rfl hsize, fun _ => rfl⟩, fun _ => ⟨rfl, nofun⟩⟩
  | @snoc es ev t u _ _ hst ih =>
      obtain ⟨p, hp, rfl⟩ := soloStep_eq_some.1 hst
      obtain ⟨hfirst, -, hlast⟩ := List.pairwise_append.1 horder.handshakesFirst
      obtain ⟨hinv, huntouched⟩ :=
        ih ⟨fun ev' hev' => horder.once ev' (List.mem_append_left _ hev'), hfirst⟩
      have heffect := stepEffect_object hinv.numbering (horder.once ev (by simp)) hp
      refine ⟨hinv.step heffect ?_, ?_⟩
      · -- a handshake goes on, or begins before any call has worked on the window
        intro hactive
        cases hcall : calledBy ev with
        | none =>
            simp only [activityOf, hcall, Option.elim_none] at hactive
            exact hinv.empty hactive
        | some c =>
            simp only [activityOf, hcall, Option.elim_some] at hactive
            refine (huntouched ?_).empty
            intro ev' hev' c' hc' hsend
            exact hlast ev' hev' ev (by simp) c' c hc' hcall hsend hactive
      · intro hnone
        have hbefore := huntouched fun ev' hev' => hnone ev' (List.mem_append_left _ hev')
        refine hbefore.step heffect ?_
        cases hcall : calledBy ev with
        | none =>
            simp only [activityOf, hcall, Option.elim_none]
            exact hbefore.activity
        | some c =>
            simp only [activityOf, hcall, Option.elim_some]
            exact hnone ev (by simp) c hcall

/-- After `udp_init` with a window of at most 31 packets, in every state that any calls lead to: the window
fits, its numbers are consecutive and differ, and the last one is the one before the counter. -/
theorem window_rep {memory : SockLib} {wSize : Nat} (hsize : wSize ≤ 31) (horder : CallOrder es)
    (hrun : Run (soloStep objectMachine) anyStep (objectStart memory wSize) es t) :
    t.node.endpoint.lib.WindowRep :=
  (objectInv_run hsize horder hrun).1.numbering.rep

end

/-- The calls of the example: a handshake, two packets, of which the second fills the window, an answer
for the first one, and a third packet. -/
def orderedEvents : List (SoloEvent ObjectAct Oracle Datagram) :=
  [.act (.call .reliable (.sockSendto (fun _ => 0) 8 true [.packet UdpPacket.zero])),
    .act (.call .reliable (.copy2Winbuf (.ofBytes [1]))),
    .act (.call .reliable (.copy2Winbuf (.ofBytes [2]))),
    .recv .reliable (SockLib.ackPacket 2 .nack),
    .act (.call .reliable (.copy2Winbuf (.ofBytes [3])))]

theorem window_rep_ordered :
    ∃ t, Run (soloStep objectMachine) anyStep (objectStart SockLib.zero 2) orderedEvents t ∧
      t.node.endpoint.lib.winBufPos = 2 ∧ t.node.endpoint.lib.WindowRep := by
  obtain ⟨t, hrun, hpos⟩ := exists_solo_run objectMachine (objectStart SockLib.zero 2) orderedEvents
    (fun t => t.node.endpoint.lib.winBufPos = 2) (by decide +kernel)
  have horder : CallOrder orderedEvents :=
    ⟨by simp [orderedEvents, calledBy], by
      simp [orderedEvents, calledBy, ObjectCall.activity]⟩
  exact ⟨t, hrun, hpos, window_rep (by decide) horder hrun⟩

end Sample3
end FileTransfer
