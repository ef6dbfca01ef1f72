import FileTransfer.Router.Forwarding

/-!
# How long the router holds a packet

The counter `wait_count` is raised by every pass that finds a packet delayed, whether a packet of either
direction came in or `select` timed out, but it is tested only when `select` timed out.  A packet is
delayed with the counter at zero, and so it goes out at the third timeout at the latest.
-/

namespace FileTransfer
namespace Router

/-! ## One event on a delayed packet -/

/-- `select` returns without a packet. -/
def timesOut (s : State) : Event → Bool
  | .arrive _ _ => false
  | .cycle _ _ calls => calls.select && (s.sock .host1).isEmpty && (s.sock .host2).isEmpty

/-- What is sent when this `EVENT_LIST` goes out. -/
def EventList.entry (ev : EventList) : Nat × List Byte := (ev.index, ev.packet)

/-- The delayed packet of `s` is still delayed in `t`, and nothing of its direction was sent. -/
structure Waits (s t : State) : Prop where
  fileBuf : t.fileBuf = s.fileBuf
  sent : t.sent s.fileBuf.destination = s.sent s.fileBuf.destination

/-- The first or the second packet of its direction that was sent from `s` to `t` is the one delayed in
`s`. -/
def GoesOut (s t : State) : Prop :=
  s.sent s.fileBuf.destination ++ [s.fileBuf.entry] <+: t.sent s.fileBuf.destination ∨
    ∃ y, s.sent s.fileBuf.destination ++ [y, s.fileBuf.entry] <+: t.sent s.fileBuf.destination

variable {s t u : State}

theorem Waits.refl (s : State) : Waits s s := ⟨rfl, rfl⟩

theorem Waits.trans (h : Waits s t) (h' : Waits t u) : Waits s u where
  fileBuf := h'.fileBuf.trans h.fileBuf
  sent := by
    have hsent := h'.sent
    rw [h.fileBuf] at hsent
    exact hsent.trans h.sent

theorem GoesOut.of_waits (h : Waits s t) (h' : GoesOut t u) : GoesOut s u := by
  unfold GoesOut at h' ⊢
  rwa [h.fileBuf, h.sent] at h'

theorem GoesOut.mono (h : GoesOut s t)
    (hgrows : t.sent s.fileBuf.destination <+: u.sent s.fileBuf.destination) : GoesOut s u := by
  rcases h with h | ⟨y, h⟩
  · exact Or.inl (h.trans hgrows)
  · exact Or.inr ⟨y, h.trans hgrows⟩

/-- The packet decided on is dropped or forwarded, and the delayed one stays or goes out right behind
it. -/
theorem dispatch_full (hfull : s.fileBuf.empty = false) (delayed damaged : Bool) :
    let t := s.dispatch delayed damaged .succeed
    (Waits s t ∧ t.waitCount = s.waitCount) ∨
      (GoesOut s t ∧ t.fileBuf.empty = true ∧ t.waitCount = 0) := by
  dsimp only
  unfold State.dispatch
  rw [if_neg (by simp [hfull])]
  split
  · exact Or.inl ⟨⟨rfl, rfl⟩, rfl⟩
  · unfold State.forward
    rw [if_pos (by rfl)]
    dsimp only
    split
    · rename_i hflush
      have hsame : s.fileBuf.destination = s.temp.destination :=
        of_decide_eq_true (Bool.and_eq_true_iff.1 hflush).2
      refine Or.inr ⟨Or.inr ⟨s.temp.entry, ?_⟩, rfl, rfl⟩
      rw [hsame]
      simp [State.sendProc, State.sendto, hsame, EventList.entry, Calls.succeed]
    · rename_i hkeep
      -- the packet goes the other way
      have hother : s.fileBuf.destination ≠ s.temp.destination := by
        intro heq
        exact hkeep (by simp [State.sendto, hfull, heq])
      exact Or.inl ⟨⟨rfl, Function.update_of_ne hother _ _⟩, rfl⟩

theorem incoming_full (hfull : s.fileBuf.empty = false) (source : Peer) {packet : List Byte}
    (hfits : packet.length ≤ maxBufSize) (delayed damaged : Bool) :
    let t := s.incoming source packet delayed damaged .succeed
    (Waits s t ∧ t.waitCount = s.waitCount + 1) ∨
      (GoesOut s t ∧ t.fileBuf.empty = true ∧ t.waitCount = 0) := by
  dsimp only [State.incoming]
  rw [if_pos (by simp [Calls.succeed, hfits])]
  set r := ({ s with
      waitCount := if s.fileBuf.empty then s.waitCount else s.waitCount + 1
      sock := Function.update s.sock source (s.sock source).tail } : State).receive source packet
    with hr
  have hcount : r.waitCount = s.waitCount + 1 := by simp [hr, State.receive, hfull]
  have hwaits : Waits s r := ⟨rfl, rfl⟩
  rcases dispatch_full (s := r) hfull delayed damaged with ⟨h, hsame⟩ | ⟨h, hrest⟩
  · exact Or.inl ⟨hwaits.trans h, hsame.trans hcount⟩
  · exact Or.inr ⟨h.of_waits hwaits, hrest⟩

theorem idle_full (hfull : s.fileBuf.empty = false) :
    let t := s.idle .succeed
    (Waits s t ∧ t.waitCount = s.waitCount + 1 ∧ t.waitCount < 3) ∨
      (GoesOut s t ∧ t.fileBuf.empty = true ∧ t.waitCount = 0) := by
  dsimp only
  unfold State.idle
  rw [if_neg (by simp [hfull])]
  dsimp only
  split
  · refine Or.inr ⟨Or.inl ?_, rfl, rfl⟩
    simp [State.sendProc, State.sendto, EventList.entry, Calls.succeed]
  · rename_i hlt
    exact Or.inl ⟨⟨rfl, rfl⟩, rfl, Nat.lt_of_not_le hlt⟩

/-- One event on a delayed packet: it goes on waiting, and the counter has counted a timeout, or it goes
out. -/
theorem step_full {ev : Event} (hfull : s.fileBuf.empty = false) (hok : CallsSucceed s ev)
    (hstep : step s ev = some t) :
    (Waits s t ∧ s.waitCount + (if timesOut s ev then 1 else 0) ≤ t.waitCount ∧
        (timesOut s ev = true → t.waitCount < 3)) ∨
      (GoesOut s t ∧ t.fileBuf.empty = true ∧ t.waitCount = 0) := by
  rcases step_cases hok hstep with ⟨source, packet, rfl, rfl⟩ |
    ⟨⟨_, _, _, rfl⟩, rfl | ⟨source, packet, rest, delayed, damaged, hsock, hfits, rfl⟩⟩
  · exact Or.inl ⟨⟨rfl, rfl⟩, Nat.le_refl _, fun h => absurd h (by simp [timesOut])⟩
  · rcases idle_full hfull with ⟨hwaits, hcount, hlt⟩ | hout
    · refine Or.inl ⟨hwaits, ?_, fun _ => hlt⟩
      rw [hcount]
      split <;> omega
    · exact Or.inr hout
  · have hnot : ∀ a b c, timesOut s (.cycle a b c) = false := by
      intro a b c
      cases source <;> simp [timesOut, hsock]
    rcases incoming_full hfull source hfits delayed damaged with ⟨hwaits, hcount⟩ | hout
    · refine Or.inl ⟨hwaits, ?_, fun h => absurd h (by simp [hnot])⟩
      rw [hcount, hnot]
      simp
    · exact Or.inr hout

/-! ## One event with nothing delayed -/

theorem dispatch_empty (hempty : s.fileBuf.empty = true) (delayed damaged : Bool) :
    (s.dispatch delayed damaged .succeed).waitCount = s.waitCount := by
  unfold State.dispatch State.forward State.sendProc
  dsimp only
  split_ifs with hdelay hdamaged hcall hflush
  · rfl
  · rfl
  · exact absurd hflush (by simp [State.sendto, hempty])
  · exact absurd hflush (by simp [State.sendto, hempty])
  · rfl
  · rfl

theorem step_empty {ev : Event} (hempty : s.fileBuf.empty = true) (hok : CallsSucceed s ev)
    (hstep : step s ev = some t) : t.waitCount = s.waitCount := by
  rcases step_cases hok hstep with ⟨source, packet, rfl, rfl⟩ |
    ⟨-, rfl | ⟨source, packet, rest, delayed, damaged, -, hfits, rfl⟩⟩
  · rfl
  · rw [State.idle, if_pos hempty]
  · unfold State.incoming
    rw [if_pos (by simp [Calls.succeed, hfits]), dispatch_empty (by exact hempty)]
    exact if_pos hempty

/-! ## What was sent stays sent -/

theorem sent_sendto (s : State) (ev : EventList) (dst : Peer) :
    s.sent dst <+: (s.sendto ev).sent dst := by
  by_cases hdst : dst = ev.destination
  · subst hdst
    simp [State.sendto]
  · simp [State.sendto, Function.update_of_ne hdst]

theorem sent_sendProc (s : State) (ok : Bool) (dst : Peer) :
    s.sent dst <+: (s.sendProc ok).sent dst := by
  unfold State.sendProc
  dsimp only
  split
  · exact sent_sendto s s.fileBuf dst
  · exact List.prefix_rfl

theorem sent_dispatch (s : State) (delayed damaged : Bool) (calls : Calls) (dst : Peer) :
    s.sent dst <+: (s.dispatch delayed damaged calls).sent dst := by
  unfold State.dispatch State.forward
  dsimp only
  split_ifs
  · exact List.prefix_rfl
  · exact List.prefix_rfl
  · exact (sent_sendto s s.temp dst).trans
      (sent_sendProc { s.sendto s.temp with waitCount := 0 } _ dst)
  · exact sent_sendto s s.temp dst
  · exact List.prefix_rfl

theorem sent_step {ev : Event} (hok : CallsSucceed s ev) (hstep : step s ev = some t) (dst : Peer) :
    s.sent dst <+: t.sent dst := by
  rcases step_cases hok hstep with ⟨source, packet, -, rfl⟩ |
    ⟨-, rfl | ⟨source, packet, rest, delayed, damaged, -, hfits, rfl⟩⟩
  · exact List.prefix_rfl
  · unfold State.idle
    dsimp only
    split_ifs
    · exact List.prefix_rfl
    · exact sent_sendProc { s with waitCount := s.waitCount + 1 } Calls.succeed.sendProc dst
    · exact List.prefix_rfl
  · unfold State.incoming
    rw [if_pos (by simp [Calls.succeed, hfits])]
    -- what `recvfrom` changes is not sent
    have hgrows := sent_dispatch (({ s with
      waitCount := if s.fileBuf.empty then s.waitCount else s.waitCount + 1
      sock := Function.update s.sock source (s.sock source).tail } : State).receive source packet)
      delayed damaged .succeed dst
    exact hgrows

/-! ## Whole runs -/

/-- The counter counts the passes of a delayed packet only. -/
theorem waitCount_eq_zero {b b' : Buffer} {es : List Event}
    (hrun : Run step CallsSucceed (start b b') es s) :
    s.fileBuf.empty = true → s.waitCount = 0 := by
  induction hrun with
  | nil => exact fun _ => rfl
  | @snoc es ev s t _ hok hstep hzero =>
      intro hempty
      by_cases hbefore : s.fileBuf.empty = true
      · rw [step_empty hbefore hok hstep]
        exact hzero hbefore
      · rcases step_full (by simpa using hbefore) hok hstep with ⟨hwaits, -⟩ | ⟨-, -, hcount⟩
        · rw [hwaits.fileBuf] at hempty
          exact absurd hempty hbefore
        · exact hcount

/-- A packet that is delayed waits for less than three timeouts, or it has gone out. -/
theorem run_full {fs : List Event} (hfull : s.fileBuf.empty = false)
    (hrun : Run step CallsSucceed s fs t) :
    (Waits s t ∧ countAlong step timesOut s fs ≤ t.waitCount ∧ countAlong step timesOut s fs < 3) ∨
      GoesOut s t := by
  induction hrun with
  | nil => exact Or.inl ⟨.refl s, Nat.zero_le _, Nat.succ_pos _⟩
  | @snoc fs ev t u hrun hok hstep ih =>
      rcases ih with ⟨hwaits, hcount, hless⟩ | hout
      · have hstill : t.fileBuf.empty = false := by
          rw [hwaits.fileBuf]
          exact hfull
        rcases step_full hstill hok hstep with ⟨hwaits', hcount', hlast⟩ | ⟨hout, -⟩
        · -- a timeout has raised the counter, and it is below three afterwards
          rw [hrun.countAlong_snoc]
          refine Or.inl ⟨hwaits.trans hwaits', ?_, ?_⟩
          · omega
          · by_cases hout : timesOut t ev = true
            · have := hlast hout
              omega
            · rw [if_neg hout]
              exact hless
        · exact Or.inr (hout.of_waits hwaits)
      · exact Or.inr (hout.mono (sent_step hok hstep _))

/-- Whatever arrives and whatever is decided: the counter is zero while nothing is delayed; a delayed
packet is not replaced before it goes out; and from the pass in which it is delayed on it waits for less
than three timeouts and while nothing else of its direction is sent, or it has gone out first or
second. -/
theorem delay_bounded (b b' : Buffer) (es : List Event) (s : State)
    (hrun : Run step CallsSucceed (start b b') es s) :
    (s.fileBuf.empty = true → s.waitCount = 0) ∧
      (∀ ev t, CallsSucceed s ev → step s ev = some t → s.fileBuf.empty = false →
        t.fileBuf = s.fileBuf ∨ GoesOut s t) ∧
      ∀ ev s₁ fs t, CallsSucceed s ev → step s ev = some s₁ → s.fileBuf.empty = true →
        s₁.fileBuf.empty = false → Run step CallsSucceed s₁ fs t →
          Waits s₁ t ∧ countAlong step timesOut s₁ fs < 3 ∨ GoesOut s₁ t := by
  refine ⟨waitCount_eq_zero hrun, ?_, ?_⟩
  · intro ev t hok hstep hfull
    rcases step_full hfull hok hstep with ⟨hwaits, -⟩ | ⟨hout, -⟩
    · exact Or.inl hwaits.fileBuf
    · exact Or.inr hout
  · intro ev s₁ fs t _ _ _ hfull hrest
    rcases run_full hfull hrest with ⟨hwaits, -, hless⟩ | hout
    · exact Or.inl ⟨hwaits, hless⟩
    · exact Or.inr hout

/-- A packet has arrived from the first peer, and the next pass delays it. -/
def oneArrived : State :=
  { start zeroBuffer zeroBuffer with sock := Function.update (fun _ => []) .host1 [[1]] }

def oneDelayed : State := oneArrived.cycle true false .succeed

/-- Three timeouts. -/
def threeIdle : List Event := List.replicate 3 (.cycle true true .succeed)

/-- At the third timeout the packet goes out. -/
theorem delay_bounded_three :
    ∃ t, Run step CallsSucceed oneDelayed threeIdle t ∧ GoesOut oneDelayed t := by
  have hrun : Run step CallsSucceed (start zeroBuffer zeroBuffer) [.arrive .host1 [1]] oneArrived :=
    Run.cons trivial rfl .nil
  have hexec : ∃ t, Run step CallsSucceed oneDelayed threeIdle t ∧ t.fileBuf.empty = true :=
    exists_run_of_exec (by decide +kernel)
  obtain ⟨t, hidle, -⟩ := hexec
  refine ⟨t, hidle, ?_⟩
  have hbound := (delay_bounded zeroBuffer zeroBuffer _ oneArrived hrun).2.2
    (.cycle true false .succeed) oneDelayed threeIdle t (by decide +kernel) rfl (by decide +kernel)
    (by decide +kernel) hidle
  apply hbound.resolve_left
  rintro ⟨-, hless⟩
  exact absurd hless (by decide +kernel)

end Router
end FileTransfer
