import Mathlib.Data.List.Perm.Basic

/-!
# Disjoint swaps of neighbours

`NeighbourSwaps l m` says that `m` is `l` with disjoint pairs of neighbours swapped, so that every
element of `l` is overtaken by at most one element behind it.  The two append rules are how a queue
that delays one element at a time produces such an `m`.
-/

namespace FileTransfer

inductive NeighbourSwaps {α : Type*} : List α → List α → Prop where
  | nil : NeighbourSwaps [] []
  | keep (a : α) {l m : List α} : NeighbourSwaps l m → NeighbourSwaps (a :: l) (a :: m)
  | swap (a b : α) {l m : List α} : NeighbourSwaps l m → NeighbourSwaps (a :: b :: l) (b :: a :: m)

namespace NeighbourSwaps

variable {α : Type*} {l m l' m' : List α}

theorem append (h : NeighbourSwaps l m) (h' : NeighbourSwaps l' m') :
    NeighbourSwaps (l ++ l') (m ++ m') := by
  induction h with
  | nil => exact h'
  | keep a _ ih => exact .keep a ih
  | swap a b _ ih => exact .swap a b ih

/-- The next element is put out in its turn. -/
theorem snoc (h : NeighbourSwaps l m) (a : α) : NeighbourSwaps (l ++ [a]) (m ++ [a]) :=
  h.append (.keep a .nil)

/-- The element `a` is put out behind its successor. -/
theorem snoc_swap (h : NeighbourSwaps l m) (a b : α) :
    NeighbourSwaps (l ++ [a, b]) (m ++ [b, a]) :=
  h.append (.swap a b .nil)

/-- Nothing is lost or repeated. -/
theorem perm (h : NeighbourSwaps l m) : l.Perm m := by
  induction h with
  | nil => exact .nil
  | keep a _ ih => exact ih.cons a
  | swap a b _ ih => exact (List.Perm.swap b a _).trans ((ih.cons a).cons b)

end NeighbourSwaps

end FileTransfer
