import FileTransfer.Sample3.PendingPackets

/-!
# What `send_file` returns

`send_file` alone against an arbitrary network.  The last loop of `send_file` takes a call of
`send_all_win_packets` that confirms everything, and returns `0`, for a failure, so the result is `-1` in
every run; `report_faithful_iff` says in which runs that is right.
-/

namespace FileTransfer
namespace Sample3

/-! ## Sends that fail -/

namespace SockLib

variable {s : SockLib} {o : Oracle} {l l' : SendtoEx} {i : Nat} {out : List Datagram} {udp : UdpPacket}

/-- `send_all_win_packets()` sends each packet of the window once, and the first slot if there is none. -/
theorem sendAllWinPackets_waits (h : s.sendAllWinPackets o = (out, .waits l')) :
    ∀ i < s.winBufPos - 1 + 1, o.sendOk i = true := by
  unfold sendAllWinPackets at h
  split at h
  · rename_i out₁ heq
    obtain ⟨hloop, hok⟩ := sendSlots_true heq
    obtain ⟨-, -, -, hlast⟩ := sendtoExLoop_waits h
    intro i hi
    rcases Nat.lt_succ_iff_lt_or_eq.1 hi with hlt | rfl
    · simpa using hok i hlt
    · have := hlast rfl
      rw [hloop] at this
      simpa using this
  · cases h

theorem sendAllWinPackets_fails (hi : i < s.winBufPos - 1 + 1) (h : o.sendOk i = false) :
    (s.sendAllWinPackets o).2 = .returns (-1) := by
  rcases sendAllWinPackets_outcome (s := s) (o := o) with hwaits | hret
  · have hok := sendAllWinPackets_waits (Prod.ext rfl hwaits) i hi
    rw [h] at hok
    cases hok
  · exact hret

theorem udpSendtoExTimeout_fails (h : l.retryCnt ≤ 1 ∨ ∃ i < s.resends l, o.sendOk i = false) :
    (s.udpSendtoExTimeout o l).2 = .returns (-1) := by
  rcases udpSendtoExTimeout_outcome (s := s) (o := o) (l := l) with hwaits | hret
  · obtain ⟨-, hretry, hok⟩ := udpSendtoExTimeout_waits (Prod.ext rfl hwaits)
    rcases h with h | ⟨i, hi, hfail⟩
    · omega
    · rw [hok i hi] at hfail
      cases hfail
  · exact hret

/-- A packet of no known type, which is not acknowledged, makes the call send the packet in `buf`
again. -/
theorem udpSendtoExPacket_fails (htype : ¬ udp.ackType.IsAnswer) (hacks : s.acksUnknown udp = false)
    (hwait : l.waitForACK = false) (h : o.sendOk 0 = false) :
    s.udpSendtoExPacket o l udp = (s, [], .returns (-1)) := by
  rw [udpSendtoExPacket_unknown htype]
  simp [udpSendtoExUnknown, hacks, sendtoExLoop, hwait, libSendto, h]

/-- A positive result is the number of packets left. -/
theorem udpSendtoExPacket_returns {r : Int} (h : (s.udpSendtoExPacket o l udp).2.2 = .returns r)
    (hr : 0 < r) : 0 < (s.udpSendtoExPacket o l udp).1.winBufPos := by
  have houtcome := udpSendtoExPacket_outcome s o l udp
  rw [h] at houtcome
  cases houtcome with
  | fails => exact absurd hr (by decide)
  | returns hleft =>
      rw [hleft] at hr
      exact Int.natCast_pos.1 hr

end SockLib

/-- A step of the sender in which a send or a receive fails, or the retries are exhausted. -/
inductive SendFails {π : Type*} (A : App π) (e : Endpoint π) :
    SoloEvent Act Oracle Datagram → Prop
  /-- `lib_recvfrom` returns `-1` -/
  | receive {l : SendtoEx} : e.ctl.locals = some l → SendFails A e (.act .error)
  /-- the timeout of the last retry -/
  | retries {l : SendtoEx} {o : Oracle} : e.ctl.locals = some l → l.retryCnt ≤ 1 →
      SendFails A e (.act (.timeout o))
  /-- a `lib_sendto` of the retransmission -/
  | resend {l : SendtoEx} {o : Oracle} {i : Nat} : e.ctl.locals = some l → i < e.lib.resends l →
      o.sendOk i = false → SendFails A e (.act (.timeout o))
  /-- a `lib_sendto` of `send_all_win_packets()` -/
  | window {s : SockLib} {o : Oracle} {i : Nat} : e.sendAllOn A (.act (.run o)) = some s →
      i < s.winBufPos - 1 + 1 → o.sendOk i = false → SendFails A e (.act (.run o))
  /-- the `lib_sendto` after a packet of no known type -/
  | again {l : SendtoEx} {o : Oracle} {d : Datagram} : e.ctl.locals = some l →
      ¬ d.pkt.ackType.IsAnswer → e.lib.acksUnknown d.pkt = false → l.waitForACK = false →
      o.sendOk 0 = false → SendFails A e (.recv o d)

/-! ## The runs of `send_file` -/

/-- `send_file` of `content` has been called on the object `s`. -/
def sendStart (s : SockLib) (content : List Byte) : Solo (Endpoint Unit) Datagram where
  node := { lib := s, ctl := .sendFile content false, app := (), log := [] }
  sent := []

/-- Every chunk of the file has been put into the window, and the window is empty. -/
def AllConfirmed (content : List Byte) (e : Endpoint Unit) : Prop :=
  numberedData e.log = (List.range (packetsSent content.length)).map (chunk content) ∧
    e.lib.winBufPos = 0

/-- The reads that `send_file` still makes. -/
def readsLeft (rest : List Byte) (eof : Bool) : Nat :=
  if eof then 0 else packetsSent rest.length

/-- `send_file` has numbered `n` packets; each read numbers at most one. -/
def SendingCaller (content : List Byte) (n : Nat) : SendCaller → Prop
  | .sendFileCopy rest eof => n + readsLeft rest eof ≤ packetsSent content.length
  | .sendFileLast => True
  | _ => False

def SendingCtl (content : List Byte) (n : Nat) : Control → Prop
  | .idle => True
  | .sendFile rest eof => n + readsLeft rest eof ≤ packetsSent content.length
  | .sendFileLast => True
  | .udpSendtoEx _ k => SendingCaller content n k
  | _ => False

structure Sending (content : List Byte) (e : Endpoint Unit) : Prop where
  ctl : SendingCtl content (numberedData e.log).length e.ctl
  /-- a call that has returned has returned `-1` -/
  report : e.ctl = .idle → e.log.getLast? = some (.returned (.code (-1)))

section

variable {content : List Byte} {e : Endpoint Unit} {o : Oracle} {k : SendCaller} {n : Nat}
  {p : Endpoint Unit × List Datagram} {s : SockLib} {ev : SoloEvent Act Oracle Datagram}

theorem afterSend_failed {π : Type*} {A : App π} {e : Endpoint π} (k : SendCaller) :
    e.afterSend A k (-1) = e.finish A (.code (-1)) := by
  cases k <;> simp [Endpoint.afterSend]

theorem sending_finish : Sending content (e.finish idleApp (.code (-1))) :=
  ⟨trivial, fun _ => by simp [Endpoint.finish]⟩

/-- The last loop of `send_file` never finds the window empty after a positive result. -/
theorem sending_afterSend (hk : SendingCaller content (numberedData e.log).length k) {r : Int}
    (hr : k = .sendFileLast → 0 < r → 0 < e.lib.winBufPos) :
    Sending content (e.afterSend idleApp k r) := by
  cases k with
  | sendFileCopy rest eof =>
      unfold Endpoint.afterSend
      dsimp only
      split
      · exact sending_finish
      · exact ⟨hk, fun hidle => by cases hidle⟩
  | sendFileLast =>
      unfold Endpoint.afterSend
      dsimp only
      split
      · exact sending_finish
      · rename_i hpos
        rw [if_pos (hr rfl (Int.not_le.1 hpos))]
        exact ⟨trivial, fun hidle => by cases hidle⟩
  | sockSendtoExCopy _ => cases hk
  | sockSendtoEx => cases hk

theorem sending_settle (hk : SendingCaller content (numberedData e.log).length k) {oc : Outcome}
    (hoc : ∀ r, oc = .returns r → 0 < r → 0 < e.lib.winBufPos) :
    Sending content (e.settle idleApp k oc) := by
  cases oc with
  | waits l => exact ⟨hk, fun hidle => by cases hidle⟩
  | returns r => exact sending_afterSend hk fun _ => hoc r rfl

theorem sending_enterSend (hk : SendingCaller content (numberedData e.log).length k) :
    Sending content (e.enterSend idleApp o k).1 := by
  refine sending_settle hk ?_
  intro r hr hpos
  rcases SockLib.sendAllWinPackets_outcome (s := e.lib) (o := o) with h | h <;>
    cases h.symm.trans hr
  exact absurd hpos (by decide)

theorem numberedData_copied_le {π : Type*} (e : Endpoint π) (buf : Payload) :
    (numberedData (e.copied buf).log).length ≤ (numberedData e.log).length + 1 := by
  unfold Endpoint.copied
  dsimp only
  split <;> simp

/-- One pass of the read loop makes one read and numbers at most one packet. -/
theorem sending_readAndCopy {rest : List Byte} {eof : Bool}
    (hread : (numberedData e.log).length + readsLeft rest eof ≤ packetsSent content.length) :
    Sending content (e.readAndCopy idleApp o rest eof).1 := by
  cases eof with
  | true => exact ⟨trivial, fun hidle => by cases hidle⟩
  | false =>
      have hleft : readsLeft (rest.drop bufferLength) (rest.length < bufferLength) + 1 =
          readsLeft rest false := by
        have hb : bufferLength = 1024 := rfl
        simp only [readsLeft, packetsSent, List.length_drop, decide_eq_true_eq, hb,
          Bool.false_eq_true, if_false]
        split <;> omega
      have hone := numberedData_copied_le e (.ofBytes (rest.take bufferLength))
      have hk : SendingCaller content
          (numberedData (e.copied (.ofBytes (rest.take bufferLength))).log).length
          (.sendFileCopy (rest.drop bufferLength) (rest.length < bufferLength)) := by
        change _ + readsLeft _ _ ≤ _
        omega
      simp only [Endpoint.readAndCopy, Bool.false_eq_true, if_false, Endpoint.copyAndSend_eq]
      split
      · exact sending_enterSend hk
      · exact sending_afterSend (r := 1) hk fun hk => by cases hk

theorem numberedData_acked (log : List Event) (d : Datagram) :
    numberedData (log ++ [.acked d]) = numberedData log := by
  simp

/-- `send_file` goes on after an event of its wait. -/
theorem Sending.wait (h : Sending content e) {l : SendtoEx} (hc : e.ctl = .udpSendtoEx l k)
    (hstep : (machine idleApp).step e ev = some p) : Sending content p.1 := by
  have hk : SendingCaller content (numberedData e.log).length k := by
    have hctl := h.ctl
    rw [hc] at hctl
    exact hctl
  rcases step_of_udpSendtoEx hc hstep with ⟨o, -, rfl⟩ | ⟨-, rfl⟩ | ⟨o, d, -, rfl⟩
  · refine sending_settle hk ?_
    intro r hr hpos
    rcases SockLib.udpSendtoExTimeout_outcome (s := e.lib) (o := o) (l := l) with h | h <;>
      cases h.symm.trans hr
    exact absurd hpos (by decide)
  · rw [afterSend_failed]
    exact sending_finish
  · have hreturns : ∀ r, (e.lib.udpSendtoExPacket o l d.pkt).2.2 = .returns r → 0 < r →
        0 < (e.lib.udpSendtoExPacket o l d.pkt).1.winBufPos :=
      fun _ hr hpos => SockLib.udpSendtoExPacket_returns hr hpos
    rcases Endpoint.recvInSend_cases (A := idleApp) (o := o) e l k d with
      ⟨-, -, hp⟩ | ⟨-, hp⟩ <;> rw [hp]
    · refine sending_settle ?_ hreturns
      rw [numberedData_acked]
      exact hk
    · refine sending_settle ?_ hreturns
      exact hk

theorem Sending.step (h : Sending content e) (hstep : (machine idleApp).step e ev = some p) :
    Sending content p.1 := by
  have hctl := h.ctl
  cases hc : e.ctl <;> rw [hc] at hctl
  case idle =>
    obtain ⟨_, _, -, hcall, -⟩ := step_of_idle hc hstep
    cases hcall
  case sendFile rest eof =>
    obtain ⟨o, -, rfl⟩ := step_of_sendFile hc hstep
    exact sending_readAndCopy hctl
  case sendFileLast =>
    obtain ⟨o, -, rfl⟩ := step_of_sendFileLast hc hstep
    exact sending_enterSend trivial
  case udpSendtoEx l k => exact h.wait hc hstep
  all_goals cases hctl

/-- Before the last read not every chunk has been numbered. -/
theorem not_allConfirmed_of_lt (h : (numberedData e.log).length < packetsSent content.length) :
    ¬ AllConfirmed content e := by
  rintro ⟨hall, -⟩
  rw [hall, List.length_map, List.length_range] at h
  exact lt_irrefl _ h

/-- `copy_2_winbuf` leaves a packet in the window, or has not numbered the chunk. -/
theorem not_allConfirmed_copy (h : (numberedData e.log).length < packetsSent content.length)
    (buf : Payload) :
    ¬ AllConfirmed content (e.copied buf) := by
  by_cases hlt : e.lib.winBufPos < e.lib.wSize
  · rintro ⟨-, hempty⟩
    simp only [Endpoint.copied, SockLib.copy2Winbuf_of_lt hlt] at hempty
    cases hempty
  · refine not_allConfirmed_of_lt ?_
    simp only [Endpoint.copied, if_neg hlt, List.append_nil]
    exact h

/-- A call that returns `-1` ends `send_file` and leaves the window as it is. -/
theorem settle_failed (content : List Byte) (e : Endpoint Unit) (k : SendCaller) :
    (e.settle idleApp k (.returns (-1))).ctl = .idle ∧
      (AllConfirmed content (e.settle idleApp k (.returns (-1))) ↔ AllConfirmed content e) := by
  have heq : e.settle idleApp k (.returns (-1)) = e.finish idleApp (.code (-1)) :=
    afterSend_failed k
  rw [heq]
  exact ⟨rfl, by simp [AllConfirmed, Endpoint.finish]⟩

/-- `send_all_win_packets()` fails after a read: the chunk just read is in the window. -/
theorem Sending.readAndCopy_fails (h : Sending content e) {rest : List Byte}
    (hc : e.ctl = .sendFile rest false)
    (hfull : e.lib.copyFull (.ofBytes (rest.take bufferLength)) = some s)
    (hret : (s.sendAllWinPackets o).2 = .returns (-1)) :
    (e.readAndCopy idleApp o rest false).1.ctl = .idle ∧
      (AllConfirmed content (e.readAndCopy idleApp o rest false).1 ↔ AllConfirmed content e) := by
  have hread := h.ctl
  rw [hc] at hread
  -- there was a read left, so not every chunk has been numbered
  have hlt : (numberedData e.log).length < packetsSent content.length := by
    have hone : 0 < readsLeft rest false := Nat.succ_pos _
    change _ + readsLeft rest false ≤ _ at hread
    omega
  unfold SockLib.copyFull at hfull
  split at hfull <;> cases hfull
  rename_i hcopied
  have hpass : (e.readAndCopy idleApp o rest false).1 =
      (e.copied (.ofBytes (rest.take bufferLength))).settle idleApp
        (.sendFileCopy (rest.drop bufferLength) (rest.length < bufferLength)) (.returns (-1)) := by
    rw [← hret]
    simp only [Endpoint.readAndCopy, Bool.false_eq_true, if_false, Endpoint.copyAndSend_eq,
      if_pos hcopied]
    rfl
  rw [hpass]
  obtain ⟨hidle, hiff⟩ := settle_failed content
    (e.copied (.ofBytes (rest.take bufferLength)))
    (.sendFileCopy (rest.drop bufferLength) (rest.length < bufferLength))
  refine ⟨hidle, hiff.trans ?_⟩
  exact iff_of_false (not_allConfirmed_copy hlt _) (not_allConfirmed_of_lt hlt)

/-- A step that fails ends the call; only the read that fills the window changes what is confirmed, and
then neither is everything confirmed before it nor after it. -/
theorem Sending.fails (h : Sending content e) (hfail : SendFails idleApp e ev)
    (hstep : (machine idleApp).step e ev = some p) :
    p.1.ctl = .idle ∧ (AllConfirmed content p.1 ↔ AllConfirmed content e) := by
  cases hfail with
  | receive hl =>
      obtain ⟨k, hc⟩ := locals_eq_some.1 hl
      rcases step_of_udpSendtoEx hc hstep with ⟨_, ⟨⟩, -⟩ | ⟨-, rfl⟩ | ⟨_, _, ⟨⟩, -⟩
      exact settle_failed content e k
  | @retries l o hl hretry =>
      obtain ⟨k, hc⟩ := locals_eq_some.1 hl
      rcases step_of_udpSendtoEx hc hstep with ⟨_, ⟨⟩, rfl⟩ | ⟨⟨⟩, -⟩ | ⟨_, _, ⟨⟩, -⟩
      rw [SockLib.udpSendtoExTimeout_fails (Or.inl hretry)]
      exact settle_failed content e k
  | @resend l o i hl hi hok =>
      obtain ⟨k, hc⟩ := locals_eq_some.1 hl
      rcases step_of_udpSendtoEx hc hstep with ⟨_, ⟨⟩, rfl⟩ | ⟨⟨⟩, -⟩ | ⟨_, _, ⟨⟩, -⟩
      rw [SockLib.udpSendtoExTimeout_fails (Or.inr ⟨i, hi, hok⟩)]
      exact settle_failed content e k
  | @window s o i hs hi hok =>
      have hret := SockLib.sendAllWinPackets_fails hi hok
      -- the two places where `send_file` calls `send_all_win_packets()`
      unfold Endpoint.sendAllOn at hs
      dsimp only at hs
      split at hs <;> rename_i hc
      · rw [nextCall_idleApp] at hs
        cases hs
      · obtain ⟨_, ⟨⟩, rfl⟩ := step_of_sendFile hc hstep
        exact h.readAndCopy_fails hc hs hret
      · cases hs
        obtain ⟨_, ⟨⟩, rfl⟩ := step_of_sendFileLast hc hstep
        simp only [Endpoint.enterSend, hret]
        exact settle_failed content e _
      · have hctl := h.ctl
        rw [hc] at hctl
        cases hctl
      · cases hs
  | @again l o d hl htype hacks hwait hok =>
      obtain ⟨k, hc⟩ := locals_eq_some.1 hl
      rcases step_of_udpSendtoEx hc hstep with ⟨_, ⟨⟩, -⟩ | ⟨⟨⟩, -⟩ | ⟨_, _, ⟨⟩, rfl⟩
      have hpacket := SockLib.udpSendtoExPacket_fails htype hacks hwait hok
      rcases Endpoint.recvInSend_cases (A := idleApp) (o := o) e l k d with
        ⟨-, htrue, -⟩ | ⟨-, hq⟩
      · rw [hacks] at htrue
        cases htrue
      · rw [hq, hpacket]
        exact settle_failed content e k

end

/-! ## The report -/

/-- A run in which no send and no receive fails and the retries are never exhausted. -/
def NoFailure (t : Solo (Endpoint Unit) Datagram) (ev : SoloEvent Act Oracle Datagram) : Prop :=
  ¬ SendFails idleApp t.node ev

/-- `send_file`, called on the object `s` and returned in the state `e`, has reported the outcome: `0`
exactly when everything was confirmed, and another value only when something has failed. -/
def FaithfulReport (s : SockLib) (content : List Byte) (es : List (SoloEvent Act Oracle Datagram))
    (t : Solo (Endpoint Unit) Datagram) : Prop :=
  ∀ r, t.node.log.getLast? = some (.returned (.code r)) →
    (r = 0 ↔ AllConfirmed content t.node) ∧
      (r ≠ 0 → ¬ Run (soloStep (machine idleApp)) NoFailure (sendStart s content) es t)

section

variable {content : List Byte} {s : SockLib} {t u : Solo (Endpoint Unit) Datagram}
  {es : List (SoloEvent Act Oracle Datagram)} {ev : SoloEvent Act Oracle Datagram}

theorem sending_run (hrun : Run (soloStep (machine idleApp)) anyStep (sendStart s content) es t) :
    Sending content t.node := by
  refine hrun.solo_invariant (fun _ _ _ hinv _ hp => hinv.step hp) ⟨?_, fun hidle => by cases hidle⟩
  change 0 + readsLeft content false ≤ packetsSent content.length
  rw [Nat.zero_add]
  rfl

/-- A call that has returned takes no further step. -/
theorem step_idle {e : Endpoint Unit} (hidle : e.ctl = .idle) : (machine idleApp).step e ev = none := by
  cases hstep : (machine idleApp).step e ev with
  | none => rfl
  | some p =>
      obtain ⟨_, _, -, hcall, -⟩ := step_of_idle hidle hstep
      cases hcall

/-- Until the call returns, nothing has failed. -/
theorem noFailure_of_running
    (hrun : Run (soloStep (machine idleApp)) anyStep (sendStart s content) es t)
    (hctl : t.node.ctl ≠ .idle) :
    Run (soloStep (machine idleApp)) NoFailure (sendStart s content) es t := by
  induction hrun with
  | nil => exact .nil
  | snoc hrun _ hst ih =>
      obtain ⟨p, hp, rfl⟩ := soloStep_eq_some.1 hst
      refine .snoc (ih ?_) ?_ hst
      · intro hidle
        rw [step_idle hidle] at hp
        cases hp
      · intro hfail
        exact hctl ((sending_run hrun).fails hfail hp).1

/-- In every run in which `send_file` returns, the report is right exactly when the step that ends the
call is one that fails, and at that point some chunk of the file has not been numbered or is still in the
window. -/
theorem report_faithful_iff
    (hrun : Run (soloStep (machine idleApp)) anyStep (sendStart s content) es t)
    (hstep : soloStep (machine idleApp) t ev = some u) (hidle : u.node.ctl = .idle) :
    FaithfulReport s content (es ++ [ev]) u ↔
      SendFails idleApp t.node ev ∧ ¬ AllConfirmed content t.node := by
  have hsending := sending_run hrun
  have hlast := (sending_run (.snoc hrun trivial hstep)).report hidle
  obtain ⟨p, hp, rfl⟩ := soloStep_eq_some.1 hstep
  have hrunning : t.node.ctl ≠ .idle := by
    intro h
    rw [step_idle h] at hp
    cases hp
  -- the only step that can have failed is the last one
  have hfailed : ¬ Run (soloStep (machine idleApp)) NoFailure (sendStart s content) (es ++ [ev])
      ⟨p.1, t.sent ++ p.2⟩ ↔ SendFails idleApp t.node ev := by
    rw [Run.snoc_iff, not_iff_comm]
    constructor
    · intro hok
      exact ⟨t, noFailure_of_running hrun hrunning, hok, hstep⟩
    · rintro ⟨t', hrun', hok, -⟩
      rw [hrun.unique hrun']
      exact hok
  constructor
  · intro hfaithful
    obtain ⟨hzero, hnonzero⟩ := hfaithful (-1) hlast
    have hfail := hfailed.1 (hnonzero (by decide))
    refine ⟨hfail, ?_⟩
    intro hall
    exact absurd (hzero.2 ((hsending.fails hfail hp).2.2 hall)) (by decide)
  · rintro ⟨hfail, hmissing⟩ r hr
    rw [hlast] at hr
    cases hr
    refine ⟨⟨fun h => absurd h (by decide), fun hall => ?_⟩, fun _ => hfailed.2 hfail⟩
    exact absurd ((hsending.fails hfail hp).2.1 hall) hmissing

end

def Control.IsIdle : Control → Prop
  | .idle => True
  | _ => False

instance : DecidablePred Control.IsIdle := fun c => by
  cases c <;> unfold Control.IsIdle <;> infer_instance

theorem Control.IsIdle.eq {c : Control} (h : c.IsIdle) : c = .idle := by
  cases c <;> first | rfl | exact h.elim

/-- A file of one byte whose packet is acknowledged: everything is confirmed, and `send_file` returns
`-1`. -/
theorem report_unfaithful : ∃ t, Run (soloStep (machine idleApp)) anyStep
      (sendStart (SockLib.zero.udpInit 7) [0]) [soloRuns, soloRuns, soloRuns, soloAnswer .ack 0] t ∧
    t.node.ctl = .idle ∧ ¬ FaithfulReport (SockLib.zero.udpInit 7) [0]
      [soloRuns, soloRuns, soloRuns, soloAnswer .ack 0] t := by
  obtain ⟨t, hrun, hidle, hlast, hall⟩ := exists_solo_run (machine idleApp)
    (sendStart (SockLib.zero.udpInit 7) [0]) [soloRuns, soloRuns, soloRuns, soloAnswer .ack 0]
    (fun t => t.node.ctl.IsIdle ∧ t.node.log.getLast? = some (.returned (.code (-1))) ∧
      numberedData t.node.log = (List.range (packetsSent 1)).map (chunk [0]) ∧
      t.node.lib.winBufPos = 0) (by decide +kernel)
  refine ⟨t, hrun, hidle.eq, fun hfaithful => ?_⟩
  exact absurd ((hfaithful (-1) hlast).1.2 hall) (by decide)

/-- The socket fails before the acknowledgement comes: the report is right. -/
theorem report_faithful_error : ∃ t, FaithfulReport (SockLib.zero.udpInit 7) [0]
    [soloRuns, soloRuns, soloRuns, .act .error] t := by
  obtain ⟨t, hrun, ⟨l, hl⟩, hpos⟩ := exists_solo_run (machine idleApp)
    (sendStart (SockLib.zero.udpInit 7) [0]) [soloRuns, soloRuns, soloRuns]
    (fun t => (∃ l ∈ t.node.ctl.locals, True) ∧ 0 < t.node.lib.winBufPos) (by decide +kernel)
  have hlocals : t.node.ctl.locals = some l := hl.1
  obtain ⟨k, hk⟩ := locals_eq_some.1 hlocals
  have hstep : soloStep (machine idleApp) t (.act .error) =
      some ⟨t.node.afterSend idleApp k (-1), t.sent ++ []⟩ := by
    simp [soloStep, Machine.step, machine, Endpoint.error, hk]
  have hidle : (t.node.afterSend idleApp k (-1)).ctl = .idle := by
    rw [afterSend_failed]
    rfl
  refine ⟨_, (report_faithful_iff hrun hstep hidle).2 ⟨.receive hlocals, ?_⟩⟩
  rintro ⟨-, hempty⟩
  rw [hempty] at hpos
  cases hpos

end Sample3
end FileTransfer
