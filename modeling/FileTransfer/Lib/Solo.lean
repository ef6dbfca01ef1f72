import FileTransfer.Lib.Network

/-!
# One party against an arbitrary network

`soloStep` runs a single `Machine`: its network may hand it any datagram at any moment, whether or not
someone sent it.  What holds of every run of `soloStep` holds of the party in every network.  The state
keeps everything the party has sent, so that statements about runs can speak about its output.
-/

namespace FileTransfer

/-- A party and the datagrams it has sent, oldest first. -/
structure Solo (σ δ : Type*) where
  node : σ
  sent : List δ

/-- Events of a party on its own. -/
inductive SoloEvent (ι ρ δ : Type*) where
  /-- the party takes a step of its own -/
  | act (i : ι)
  /-- the datagram `d` arrives -/
  | recv (r : ρ) (d : δ)

variable {σ ι ρ δ : Type*}

/-- The datagram of an event. -/
def SoloEvent.datagram : SoloEvent ι ρ δ → Option δ
  | .act _ => none
  | .recv _ d => some d

/-- The datagrams that arrive in a run, in their order. -/
def received (es : List (SoloEvent ι ρ δ)) : List δ := es.filterMap SoloEvent.datagram

theorem received_append (es fs : List (SoloEvent ι ρ δ)) :
    received (es ++ fs) = received es ++ received fs :=
  List.filterMap_append

@[simp] theorem received_act (i : ι) : received [(.act i : SoloEvent ι ρ δ)] = [] := rfl

@[simp] theorem received_recv (r : ρ) (d : δ) : received [(.recv r d : SoloEvent ι ρ δ)] = [d] := rfl

/-- The step a machine takes on an event. -/
def Machine.step (M : Machine σ ι ρ δ) (x : σ) : SoloEvent ι ρ δ → Option (σ × List δ)
  | .act i => M.act x i
  | .recv r d => M.recv x r d

def soloStep (M : Machine σ ι ρ δ) (t : Solo σ δ) (ev : SoloEvent ι ρ δ) : Option (Solo σ δ) :=
  (M.step t.node ev).map fun p => ⟨p.1, t.sent ++ p.2⟩

variable {M : Machine σ ι ρ δ} {t u : Solo σ δ} {ev : SoloEvent ι ρ δ}

theorem soloStep_eq_some :
    soloStep M t ev = some u ↔ ∃ p, M.step t.node ev = some p ∧ u = ⟨p.1, t.sent ++ p.2⟩ := by
  simp only [soloStep, Option.map_eq_some_iff, eq_comm (a := u)]

/-- The induction rule for what every step of a party keeps, whatever it has sent. -/
theorem Run.solo_invariant {ok : Solo σ δ → SoloEvent ι ρ δ → Prop} {Inv : σ → Prop}
    {start : Solo σ δ} {es : List (SoloEvent ι ρ δ)}
    (hstep : ∀ t ev p, Inv t.node → ok t ev → M.step t.node ev = some p → Inv p.1)
    (hstart : Inv start.node) (h : Run (soloStep M) ok start es t) : Inv t.node := by
  induction h with
  | nil => exact hstart
  | snoc _ hok hst ih =>
      obtain ⟨p, hp, rfl⟩ := soloStep_eq_some.1 hst
      exact hstep _ _ p ih hok hp

/-- What a party has sent stays sent. -/
theorem Run.sent_prefix {ok : Solo σ δ → SoloEvent ι ρ δ → Prop} {es : List (SoloEvent ι ρ δ)}
    (h : Run (soloStep M) ok t es u) : t.sent <+: u.sent := by
  induction h with
  | nil => exact List.prefix_refl _
  | snoc _ _ hst ih =>
      obtain ⟨p, -, rfl⟩ := soloStep_eq_some.1 hst
      exact ih.trans (List.prefix_append _ _)

/-- An execution of a party, from a test that finds it. -/
theorem exists_solo_run (M : Machine σ ι ρ δ) (start : Solo σ δ) (es : List (SoloEvent ι ρ δ))
    (P : Solo σ δ → Prop) [DecidablePred P]
    (h : (exec (soloStep M) start es).any (fun t => P t) = true) :
    ∃ t, Run (soloStep M) anyStep start es t ∧ P t :=
  exists_run_of_exec_any h

end FileTransfer
