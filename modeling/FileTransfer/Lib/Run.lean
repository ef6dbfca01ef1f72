import Mathlib.Data.List.Basic

/-!
# Runs of a partial step function

A system is a partial step function `step : σ → ε → Option σ` over events `ε`; `none` says that the
event is not enabled.  This file packages the inductions over runs once:

* `exec` executes a list of events, so that a concrete run can be evaluated;
* `Run step ok s es t` is a run from `s` to `t` each of whose events meets the condition `ok` in the
  state it fires in;
* `Run.invariant` is the induction rule: what holds at the start and is kept by every allowed step
  holds at the end;
* `Run.simulate` carries a run over to another system, where a step may take several steps or none;
* `countAlong step p s es` counts the events of a kind `p` on the way from `s`.
-/

namespace FileTransfer

variable {σ ε : Type*}

/-- Execute a list of events, `none` as soon as one of them is not enabled. -/
def exec (step : σ → ε → Option σ) : σ → List ε → Option σ
  | s, [] => some s
  | s, e :: es => (step s e).bind fun t => exec step t es

/-- `Run step ok s es t`: the events `es` lead from `s` to `t`, and each one meets `ok` in the state
it leaves. -/
inductive Run (step : σ → ε → Option σ) (ok : σ → ε → Prop) (s : σ) : List ε → σ → Prop where
  | nil : Run step ok s [] s
  | snoc {es : List ε} {e : ε} {t u : σ} :
      Run step ok s es t → ok t e → step t e = some u → Run step ok s (es ++ [e]) u

/-- The condition that allows every step. -/
def anyStep : σ → ε → Prop := fun _ _ => True

namespace Run

variable {step : σ → ε → Option σ} {ok ok' : σ → ε → Prop} {s t u : σ} {es fs : List ε}

/-- The induction rule for invariants. -/
theorem invariant {Inv : σ → Prop}
    (hstep : ∀ t e u, Inv t → ok t e → step t e = some u → Inv u)
    (hs : Inv s) (h : Run step ok s es t) : Inv t := by
  induction h with
  | nil => exact hs
  | snoc _ hok hst ih => exact hstep _ _ _ ih hok hst

/-- A stricter condition allows fewer runs. -/
theorem mono (hok : ∀ t e, ok t e → ok' t e) (h : Run step ok s es t) : Run step ok' s es t := by
  induction h with
  | nil => exact .nil
  | snoc _ hte hst ih => exact .snoc ih (hok _ _ hte) hst

theorem trans (h : Run step ok s es t) (h' : Run step ok t fs u) :
    Run step ok s (es ++ fs) u := by
  induction h' with
  | nil => simpa using h
  | snoc _ hok hst ih =>
      rw [← List.append_assoc]
      exact .snoc ih hok hst

theorem cons {e : ε} (hok : ok s e) (hst : step s e = some t) (h : Run step ok t fs u) :
    Run step ok s (e :: fs) u := by
  have h1 : Run step ok s ([] ++ [e]) t := .snoc .nil hok hst
  simpa using h1.trans h

/-- The last step of a run. -/
theorem snoc_iff {e : ε} :
    Run step ok s (es ++ [e]) u ↔ ∃ t, Run step ok s es t ∧ ok t e ∧ step t e = some u := by
  constructor
  · intro h
    generalize hfs : es ++ [e] = fs at h
    cases h with
    | nil => simp at hfs
    | snoc h' hok hst =>
        obtain ⟨rfl, heq⟩ := List.append_inj' hfs rfl
        cases heq
        exact ⟨_, h', hok, hst⟩
  · rintro ⟨t, h, hok, hst⟩
    exact .snoc h hok hst

/-- The events decide where a run ends. -/
theorem unique (h : Run step ok s es t) (h' : Run step ok' s es u) : t = u := by
  induction h generalizing u with
  | nil =>
      generalize hfs : ([] : List ε) = fs at h'
      cases h' with
      | nil => rfl
      | snoc _ _ _ => simp at hfs
  | snoc _ _ hst ih =>
      obtain ⟨t', h₁, -, hst'⟩ := snoc_iff.1 h'
      rw [ih h₁, hst'] at hst
      exact (Option.some.inj hst).symm

/-- The first step of a run. -/
theorem cons_iff {e : ε} :
    Run step ok s (e :: es) u ↔ ∃ t, ok s e ∧ step s e = some t ∧ Run step ok t es u := by
  constructor
  · intro h
    generalize hfs : e :: es = fs at h
    induction h generalizing es with
    | nil => cases hfs
    | @snoc gs f t u h' hok hst ih =>
        cases gs with
        | nil =>
            cases hfs
            have hnil : Run step ok s [] s := .nil
            cases h'.unique hnil
            exact ⟨u, hok, hst, .nil⟩
        | cons g gs =>
            cases hfs
            obtain ⟨t', hok', hst', hrest⟩ := ih rfl
            exact ⟨t', hok', hst', .snoc hrest hok hst⟩
  · rintro ⟨t, hok, hst, h⟩
    exact h.cons hok hst

/-- A run through a first part of its events. -/
theorem append_iff :
    Run step ok s (es ++ fs) u ↔ ∃ t, Run step ok s es t ∧ Run step ok t fs u := by
  constructor
  · intro h
    induction es generalizing s with
    | nil => exact ⟨s, .nil, h⟩
    | cons e es ih =>
        obtain ⟨s', hok, hst, hrest⟩ := cons_iff.1 h
        obtain ⟨t, hfirst, hlast⟩ := ih hrest
        exact ⟨t, hfirst.cons hok hst, hlast⟩
  · rintro ⟨t, hfirst, hlast⟩
    exact hfirst.trans hlast

/-- A relation that every allowed step keeps, when the other system follows, is kept by whole runs. -/
theorem simulate {τ ε' : Type*} {step' : τ → ε' → Option τ} {ok' : τ → ε' → Prop} {rel : σ → τ → Prop}
    {x : τ}
    (hstep : ∀ s e t x, rel s x → ok s e → step s e = some t →
      ∃ es y, Run step' ok' x es y ∧ rel t y)
    (hs : rel s x) (h : Run step ok s es t) : ∃ es' y, Run step' ok' x es' y ∧ rel t y := by
  induction h with
  | nil => exact ⟨[], x, .nil, hs⟩
  | snoc _ hok hst ih =>
      obtain ⟨es₁, y, hrun, hrel⟩ := ih
      obtain ⟨es₂, z, hmore, hrel'⟩ := hstep _ _ _ _ hrel hok hst
      exact ⟨es₁ ++ es₂, z, hrun.trans hmore, hrel'⟩

/-- A measure that every allowed step lowers bounds the length of the runs. -/
theorem length_le {Inv : σ → Prop} (μ : σ → Nat)
    (hstep : ∀ t e u, Inv t → ok t e → step t e = some u → Inv u ∧ μ u < μ t)
    (hs : Inv s) (h : Run step ok s es t) : es.length + μ t ≤ μ s := by
  induction h with
  | nil => simp
  | snoc h' hok hst ih =>
      have hinv : Inv _ := h'.invariant (fun t e u hi ho hs => (hstep t e u hi ho hs).1) hs
      have hlt := (hstep _ _ _ hinv hok hst).2
      simp only [List.length_append, List.length_cons, List.length_nil]
      omega

/-- Runs of bounded length that can be continued wherever `P` fails lead to a state with `P`. -/
theorem exists_of_bounded {P : σ → Prop} {bound : Nat}
    (hbound : ∀ es t, Run step ok s es t → es.length ≤ bound)
    (hgo : ∀ es t, Run step ok s es t → ¬ P t → ∃ e u, ok t e ∧ step t e = some u) :
    ∃ es t, Run step ok s es t ∧ P t := by
  by_contra hnone
  push Not at hnone
  have hlong : ∀ k, ∃ es t, Run step ok s es t ∧ es.length = k := by
    intro k
    induction k with
    | zero => exact ⟨[], s, .nil, rfl⟩
    | succ k ih =>
        obtain ⟨es, t, hrun, hlen⟩ := ih
        obtain ⟨e, u, hok, hst⟩ := hgo es t hrun (hnone es t hrun)
        exact ⟨es ++ [e], u, .snoc hrun hok hst, by simp [hlen]⟩
  obtain ⟨es, t, hrun, hlen⟩ := hlong (bound + 1)
  have := hbound es t hrun
  omega

end Run

/-- An execution whose events all pass the test `ok` is a run that meets `ok`. -/
theorem run_of_exec {step : σ → ε → Option σ} {ok : σ → ε → Prop} [∀ s e, Decidable (ok s e)]
    {s t : σ} {es : List ε}
    (h : exec (fun s e => if ok s e then step s e else none) s es = some t) :
    Run step ok s es t := by
  induction es generalizing s with
  | nil =>
      have hst : s = t := by simpa [exec] using h
      subst hst
      exact .nil
  | cons e es ih =>
      simp only [exec, Option.bind_eq_some_iff] at h
      obtain ⟨u, hu, hrest⟩ := h
      split at hu
      · rename_i hok
        exact Run.cons hok hu (ih hrest)
      · cases hu

/-- An execution that ends in a state with the property `P`, as a test can find it. -/
theorem exists_run_of_exec {step : σ → ε → Option σ} {ok : σ → ε → Prop} [∀ s e, Decidable (ok s e)]
    {P : σ → Prop} [DecidablePred P] {s : σ} {es : List ε}
    (h : (exec (fun s e => if ok s e then step s e else none) s es).any (fun t => P t) = true) :
    ∃ t, Run step ok s es t ∧ P t := by
  obtain ⟨t, ht, hP⟩ := (Option.any_eq_true _ _).1 h
  exact ⟨t, run_of_exec ht, by simpa using hP⟩

/-- An execution is a run without conditions. -/
theorem run_of_exec_any {step : σ → ε → Option σ} {s t : σ} {es : List ε}
    (h : exec step s es = some t) : Run step anyStep s es t := by
  induction es generalizing s with
  | nil =>
      have hst : s = t := by simpa [exec] using h
      subst hst
      exact .nil
  | cons e es ih =>
      simp only [exec, Option.bind_eq_some_iff] at h
      obtain ⟨u, hu, hrest⟩ := h
      exact Run.cons trivial hu (ih hrest)

/-- An execution without conditions that ends in a state with the property `P`. -/
theorem exists_run_of_exec_any {step : σ → ε → Option σ} {P : σ → Prop} [DecidablePred P] {s : σ}
    {es : List ε} (h : (exec step s es).any (fun t => P t) = true) :
    ∃ t, Run step anyStep s es t ∧ P t := by
  obtain ⟨t, ht, hP⟩ := (Option.any_eq_true _ _).1 h
  exact ⟨t, run_of_exec_any ht, by simpa using hP⟩

/-! ## Counting along a run -/

/-- How many of the events meet `p` in the state they fire in, up to the first one not enabled. -/
def countAlong (step : σ → ε → Option σ) (p : σ → ε → Bool) : σ → List ε → Nat
  | _, [] => 0
  | s, e :: es =>
      (if p s e then 1 else 0) + ((step s e).elim 0 fun t => countAlong step p t es)

theorem Run.countAlong_snoc {step : σ → ε → Option σ} {ok : σ → ε → Prop} {s t : σ} {es : List ε}
    (h : Run step ok s es t) (p : σ → ε → Bool) (e : ε) :
    countAlong step p s (es ++ [e]) = countAlong step p s es + if p t e then 1 else 0 := by
  -- the run is taken apart from its first step on, as the count is
  induction es generalizing s with
  | nil =>
      have hnil : Run step ok s [] s := .nil
      rw [hnil.unique h]
      cases hst : step t e <;> simp [countAlong, hst]
  | cons e' es ih =>
      obtain ⟨s', -, hst, hrest⟩ := Run.cons_iff.1 h
      simp only [List.cons_append, countAlong, hst, Option.elim_some]
      rw [ih hrest, Nat.add_assoc]

end FileTransfer
