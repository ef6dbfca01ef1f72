import Mathlib.Logic.Relation

/-!
# What every run comes to

`Until R Q P s` says that every run of the relation `R` from `s` comes to a state with `P`, and that all
states before it have `Q`: no run ends before `P` holds, and none goes on for ever without it.

* `Until.trans` puts two such facts behind each other;
* `Until.congr` moves one along a map that keeps and reflects steps, `Until.of_rel` along a relation;
* `Until.of_rank` proves one from an invariant and a measure;
* `Until.not_of_closed` refutes one: a closed set of states without `P` can be reached;
* `Until.requests` puts as many behind each other as there are requests in a list.
-/

namespace FileTransfer

open Relation

variable {σ τ : Type*} {R : σ → σ → Prop} {S : τ → τ → Prop} {Q P P' : σ → Prop} {s t : σ}

inductive Until (R : σ → σ → Prop) (Q P : σ → Prop) : σ → Prop where
  | now {s : σ} : P s → Until R Q P s
  | later {s : σ} : Q s → (∃ t, R s t) → (∀ t, R s t → Until R Q P t) → Until R Q P s

namespace Until

/-- First to `P`, and from there to `P'`. -/
theorem trans (h : Until R Q P s) (h' : ∀ t, P t → Until R Q P' t) : Until R Q P' s := by
  induction h with
  | now hP => exact h' _ hP
  | later hQ hgo _ ih => exact .later hQ hgo ih

theorem exists_reach (h : Until R Q P s) : ∃ t, ReflTransGen R s t ∧ P t := by
  induction h with
  | now hP => exact ⟨_, .refl, hP⟩
  | later _ hgo _ ih =>
      obtain ⟨t, ht⟩ := hgo
      obtain ⟨u, hu, hP⟩ := ih t ht
      exact ⟨u, .head ht hu, hP⟩

/-- A map that keeps steps, and along which steps can be followed back. -/
theorem of_map {f : τ → σ} {x : τ} (hstep : ∀ x y, S x y → R (f x) (f y))
    (hback : ∀ x t, R (f x) t → ∃ y, S x y ∧ f y = t) (h : Until R Q P (f x)) :
    Until S (fun x => Q (f x)) (fun x => P (f x)) x := by
  generalize hs : f x = s at h
  induction h generalizing x with
  | now hP => exact .now (hs ▸ hP)
  | later hQ hgo _ ih =>
      subst hs
      obtain ⟨t, ht⟩ := hgo
      obtain ⟨y, hy, -⟩ := hback x t ht
      exact .later hQ ⟨y, hy⟩ fun z hz => ih (f z) (hstep x z hz) rfl

theorem map {f : τ → σ} {x : τ} (hstep : ∀ x y, S x y → R (f x) (f y))
    (hback : ∀ x t, R (f x) t → ∃ y, S x y ∧ f y = t)
    (h : Until S (fun x => Q (f x)) (fun x => P (f x)) x) : Until R Q P (f x) := by
  induction h with
  | now hP => exact .now hP
  | @later x hQ hgo _ ih =>
      obtain ⟨y, hy⟩ := hgo
      refine .later hQ ⟨f y, hstep x y hy⟩ fun t ht => ?_
      obtain ⟨z, hz, rfl⟩ := hback x t ht
      exact ih z hz

theorem congr {f : τ → σ} {x : τ} (hstep : ∀ x y, S x y → R (f x) (f y))
    (hback : ∀ x t, R (f x) t → ∃ y, S x y ∧ f y = t) :
    Until S (fun x => Q (f x)) (fun x => P (f x)) x ↔ Until R Q P (f x) :=
  ⟨map hstep hback, of_map hstep hback⟩

/-- A relation along which every step is matched, and no state stops alone. -/
theorem of_rel (rel : τ → σ → Prop) {x : τ} (hstep : ∀ x y s, rel x s → S x y → ∃ t, R s t ∧ rel y t)
    (hgo : ∀ x s t, rel x s → R s t → ∃ y, S x y) (hx : rel x s) (h : Until R Q P s) :
    Until S (fun x => ∃ s, rel x s ∧ Q s) (fun x => ∃ s, rel x s ∧ P s) x := by
  induction h generalizing x with
  | now hP => exact .now ⟨_, hx, hP⟩
  | later hQ hnext _ ih =>
      obtain ⟨t, ht⟩ := hnext
      refine .later ⟨_, hx, hQ⟩ (hgo x _ t hx ht) fun y hy => ?_
      obtain ⟨u, hu, hrel⟩ := hstep x y _ hx hy
      exact ih u hu hrel

/-- Once `P` stays, it is also what every state on the way comes to. -/
theorem of_reach (hP : ∀ s t, P s → R s t → P t) (h : Until R Q P s) (hreach : ReflTransGen R s t) :
    Until R Q P t := by
  induction hreach with
  | refl => exact h
  | tail _ hstep ih =>
      cases ih with
      | now hs => exact .now (hP _ _ hs hstep)
      | later _ _ hall => exact hall _ hstep

/-- What holds in the end, and before every step after which it holds, holds on the way. -/
theorem of_backward {B : σ → Prop} (hback : ∀ s t, R s t → B t → B s) (hP : ∀ s, P s → B s)
    (h : Until R Q P s) : Until R B P s := by
  have hB : ∀ s, Until R Q P s → B s := by
    intro s h
    induction h with
    | now hs => exact hP _ hs
    | later _ hgo _ ih =>
        obtain ⟨t, ht⟩ := hgo
        exact hback _ t ht (ih t ht)
  induction h with
  | now hs => exact .now hs
  | later hQ hgo hall ih => exact .later (hB _ (.later hQ hgo hall)) hgo ih

/-- Every step keeps the invariant and lowers the measure, and the runs stop only where `P` holds. -/
theorem of_rank {I : σ → Prop} (rank : σ → Nat)
    (hstep : ∀ s t, I s → R s t → I t ∧ rank t < rank s) (hgo : ∀ s, I s → P s ∨ ∃ t, R s t)
    (hs : I s) : Until R I P s := by
  induction hrank : rank s using Nat.strongRecOn generalizing s with
  | ind k ih =>
      subst hrank
      rcases hgo s hs with hP | hnext
      · exact .now hP
      · refine .later hs hnext fun t ht => ?_
        obtain ⟨hI, hlt⟩ := hstep s t hs ht
        exact ih (rank t) hlt hI rfl

/-- In a closed set without `P`, no run comes to `P`. -/
theorem not_of_closed {I : σ → Prop} (hstep : ∀ s t, I s → R s t → I t) (hP : ∀ s, I s → ¬ P s)
    (hs : I s) : ¬ Until R Q P s := by
  intro h
  induction h with
  | now h' => exact hP _ hs h'
  | later _ hgo _ ih =>
      obtain ⟨t, ht⟩ := hgo
      exact ih t ht (hstep _ t hs ht)

end Until

/-! ## One request after the other -/

section Requests

variable {κ ι : Type*} {ok : κ → ι → Prop} {next : κ → ι → κ}

/-- Every request can be met where its turn comes; `next` says where that is. -/
def Admissible (ok : κ → ι → Prop) (next : κ → ι → κ) : κ → List ι → Prop
  | _, [] => True
  | x, i :: is => ok x i ∧ Admissible ok next (next x i) is

/-- `rel x is s` says that the state `s` stands for `x` and has the requests `is` before it. -/
theorem Until.requests {rel : κ → List ι → σ → Prop}
    (hone : ∀ x i is s, rel x (i :: is) s → ok x i → Admissible ok next (next x i) is →
      Until R Q (rel (next x i) is) s)
    {x : κ} {is : List ι} (h : rel x is s) (hok : Admissible ok next x is) :
    Until R Q (rel (is.foldl next x) []) s := by
  induction is generalizing x s with
  | nil => exact .now h
  | cons i is ih => exact (hone x i is s h hok.1 hok.2).trans fun t ht => ih ht hok.2

end Requests
end FileTransfer
