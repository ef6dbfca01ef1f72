import Mathlib.Data.List.Forall2
import Mathlib.Data.Nat.ModEq

/-!
# Go-back-N over queues that lose messages

The abstract protocol with *unbounded* numbers.  A sender submits messages, numbered `0, 1, 2, …`, and
keeps the last ones, from `base` on, in a window of at most `w`.  It puts numbers of messages into a
first-in first-out queue `data`; the receiver compares each number with the one it expects and puts
into a second queue the number it expects next (an acknowledgement of `n` is the reply `n + 1`).  Both
queues may lose any element at any time.

`Inv` is the invariant of the protocol, kept by every operation below.  Its consequences at the end of
the file say that numbers modulo `M > w` are as good as unbounded ones, which is what an
implementation with a bounded number field relies on.
-/

namespace FileTransfer
namespace GoBackN

structure State (α : Type*) where
  /-- every message the sender has numbered -/
  submitted : List α
  /-- number of the oldest message in the sender's window -/
  base : Nat
  /-- the last reply the sender has taken in -/
  low : Nat
  /-- number of the message the receiver accepts next -/
  expected : Nat
  /-- numbers of the messages on the way to the receiver, oldest first -/
  data : List Nat
  /-- replies on the way to the sender, oldest first -/
  replies : List Nat

variable {α : Type*}

/-- The invariant: everything the sender gave up was accepted, replies arrive in the order of the
numbers they carry, and no number on the way is `M` or more away from the expected one when its turn
comes. -/
structure Inv (M w : Nat) (g : State α) : Prop where
  window_lt : w < M
  base_le : g.base ≤ g.low
  low_le : g.low ≤ g.expected
  expected_le : g.expected ≤ g.submitted.length
  length_le : g.submitted.length ≤ g.base + w
  data_lt : ∀ n ∈ g.data, n < g.submitted.length
  data_near : ∀ n ∈ g.data, g.expected < n + M
  data_pairwise : g.data.Pairwise fun m n => m + 1 < n + M
  replies_low : ∀ e ∈ g.replies, g.low ≤ e
  replies_le : ∀ e ∈ g.replies, e ≤ g.expected
  replies_sorted : g.replies.Pairwise (· ≤ ·)

namespace State

/-- Nothing submitted, nothing on the way. -/
def init : State α where
  submitted := []
  base := 0
  low := 0
  expected := 0
  data := []
  replies := []

def submit (g : State α) (x : α) : State α := { g with submitted := g.submitted ++ [x] }
def transmit (g : State α) (ns : List Nat) : State α := { g with data := g.data ++ ns }
def setData (g : State α) (ns : List Nat) : State α := { g with data := ns }
def setReplies (g : State α) (es : List Nat) : State α := { g with replies := es }

/-- The receiver takes the message `n` and replies `n + 1`; `rest` is what is still on the way. -/
def accept (g : State α) (n : Nat) (rest : List Nat) : State α :=
  { g with expected := n + 1, data := rest, replies := g.replies ++ [n + 1] }

/-- The receiver repeats the number it expects, `k` times. -/
def reply (g : State α) (k : Nat) : State α :=
  { g with replies := g.replies ++ List.replicate k g.expected }

/-- The sender takes the reply `e` in; `rest` is what is still on the way. -/
def hear (g : State α) (e : Nat) (rest : List Nat) : State α :=
  { g with low := e, replies := rest }

/-- The sender gives up every message before `b`. -/
def free (g : State α) (b : Nat) : State α := { g with base := b }

end State

namespace Inv

variable {M w : Nat} {g : State α}

theorem init (h : w < M) : Inv M w (State.init : State α) := by
  refine ⟨h, ?_, ?_, ?_, ?_, ?_, ?_, ?_, ?_, ?_, ?_⟩ <;> simp [State.init]

/-! ## The operations keep the invariant -/

theorem submit (h : Inv M w g) (x : α) (hw : g.submitted.length < g.base + w) :
    Inv M w (g.submit x) := by
  refine { h with expected_le := ?_, length_le := ?_, data_lt := ?_ }
  · have := h.expected_le
    simp only [State.submit, List.length_append, List.length_cons, List.length_nil]
    omega
  · simp only [State.submit, List.length_append, List.length_cons, List.length_nil]
    omega
  · intro n hn
    have := h.data_lt n hn
    simp only [State.submit, List.length_append, List.length_cons, List.length_nil]
    omega

/-- Numbers may be put on the way as long as they are at most `w` behind the newest one. -/
theorem transmit (h : Inv M w g) {ns : List Nat}
    (hns : ∀ n ∈ ns, n < g.submitted.length ∧ g.submitted.length ≤ n + w) :
    Inv M w (g.transmit ns) := by
  have hw := h.window_lt
  refine { h with data_lt := ?_, data_near := ?_, data_pairwise := ?_ }
  · intro n hn
    rcases List.mem_append.1 hn with hn | hn
    · exact h.data_lt n hn
    · exact (hns n hn).1
  · intro n hn
    rcases List.mem_append.1 hn with hn | hn
    · exact h.data_near n hn
    · have h1 := (hns n hn).2
      have h2 := h.expected_le
      simp only [State.transmit]
      omega
  · refine List.pairwise_append.2 ⟨h.data_pairwise, ?_, ?_⟩
    · refine List.pairwise_of_forall_mem_list fun m hm n hn => ?_
      have h1 := (hns m hm).1
      have h2 := (hns n hn).2
      omega
    · intro m hm n hn
      have h1 := h.data_lt m hm
      have h2 := (hns n hn).2
      omega

theorem dropData (h : Inv M w g) {ns : List Nat} (hns : ns.Sublist g.data) :
    Inv M w (g.setData ns) :=
  { h with
    data_lt := fun n hn => h.data_lt n (hns.subset hn)
    data_near := fun n hn => h.data_near n (hns.subset hn)
    data_pairwise := h.data_pairwise.sublist hns }

theorem dropReplies (h : Inv M w g) {es : List Nat} (hes : es.Sublist g.replies) :
    Inv M w (g.setReplies es) :=
  { h with
    replies_low := fun e he => h.replies_low e (hes.subset he)
    replies_le := fun e he => h.replies_le e (hes.subset he)
    replies_sorted := h.replies_sorted.sublist hes }

theorem accept (h : Inv M w g) {n : Nat} {rest : List Nat} (hd : g.data = n :: rest)
    (hn : g.expected ≤ n) : Inv M w (g.accept n rest) := by
  have hmem : n ∈ g.data := by simp [hd]
  have hlt := h.data_lt n hmem
  have hlow := h.low_le
  have hpair := h.data_pairwise
  rw [hd, List.pairwise_cons] at hpair
  -- the channel is in order: what is behind `n` is near it, and replies grow
  refine { h with
    low_le := ?_, expected_le := ?_, data_lt := ?_, data_near := ?_, data_pairwise := hpair.2,
    replies_low := ?_, replies_le := ?_, replies_sorted := ?_ }
  · simp only [State.accept]
    omega
  · simp only [State.accept]
    omega
  · intro m hm
    exact h.data_lt m (by rw [hd]; exact List.mem_cons_of_mem _ hm)
  · intro m hm
    exact hpair.1 m hm
  · intro e he
    rcases List.mem_append.1 he with he | he
    · exact h.replies_low e he
    · rw [List.mem_singleton] at he
      simp only [State.accept]
      omega
  · intro e he
    simp only [State.accept]
    rcases List.mem_append.1 he with he | he
    · have := h.replies_le e he
      omega
    · rw [List.mem_singleton] at he
      omega
  · refine List.pairwise_append.2 ⟨h.replies_sorted, by simp, ?_⟩
    intro e he e' he'
    have := h.replies_le e he
    rw [List.mem_singleton] at he'
    omega

theorem reply (h : Inv M w g) (k : Nat) : Inv M w (g.reply k) := by
  refine { h with replies_low := ?_, replies_le := ?_, replies_sorted := ?_ }
  · intro e he
    rcases List.mem_append.1 he with he | he
    · exact h.replies_low e he
    · rw [List.eq_of_mem_replicate he]
      exact h.low_le
  · intro e he
    rcases List.mem_append.1 he with he | he
    · exact h.replies_le e he
    · exact le_of_eq (List.eq_of_mem_replicate he)
  · refine List.pairwise_append.2 ⟨h.replies_sorted, ?_, ?_⟩
    · exact List.pairwise_replicate.2 (Or.inr le_rfl)
    · intro e he e' he'
      rw [List.eq_of_mem_replicate he']
      exact h.replies_le e he

theorem hear (h : Inv M w g) {e : Nat} {rest : List Nat} (hr : g.replies = e :: rest) :
    Inv M w (g.hear e rest) := by
  have hmem : e ∈ g.replies := by simp [hr]
  have hsorted := h.replies_sorted
  rw [hr, List.pairwise_cons] at hsorted
  refine { h with
    base_le := ?_, low_le := h.replies_le e hmem, replies_low := hsorted.1,
    replies_le := ?_, replies_sorted := hsorted.2 }
  · exact le_trans h.base_le (h.replies_low e hmem)
  · intro e' he'
    exact h.replies_le e' (by rw [hr]; exact List.mem_cons_of_mem _ he')

theorem free (h : Inv M w g) {b : Nat} (hb : g.base ≤ b) (hlow : b ≤ g.low) :
    Inv M w (g.free b) := by
  refine { h with base_le := hlow, length_le := ?_ }
  have := h.length_le
  simp only [State.free]
  omega

end Inv

/-! ## What the numbers modulo `M` tell -/

/-- Two numbers less than `M` apart that agree modulo `M`, counted from any `start`, are equal. -/
theorem eq_of_mod {M start a b : Nat} (hmod : (start + a) % M = (start + b) % M)
    (hab : a < b + M) (hba : b < a + M) : a = b := by
  have hcongr : a ≡ b [MOD M] := Nat.ModEq.add_left_cancel' start hmod
  exact hcongr.eq_of_abs_lt (by rw [abs_lt]; omega)

namespace Inv

variable {M w : Nat} {g : State α}

/-- A number on the way that agrees with the expected one is the expected one. -/
theorem eq_expected_of_mod (h : Inv M w g) (start : Nat) {n : Nat} (hn : n ∈ g.data)
    (hmod : (start + n) % M = (start + g.expected) % M) : n = g.expected := by
  have h1 := h.data_near n hn
  have h2 := h.data_lt n hn
  have h3 := h.length_le
  have h4 := h.base_le
  have h5 := h.low_le
  have h6 := h.window_lt
  exact eq_of_mod hmod (by omega) (by omega)

/-- A number on the way whose successor agrees with the expected one is the last accepted one. -/
theorem succ_eq_expected_of_mod (h : Inv M w g) (start : Nat) {n : Nat} (hn : n ∈ g.data)
    (hmod : (start + (n + 1)) % M = (start + g.expected) % M) : n + 1 = g.expected := by
  have h1 := h.data_near n hn
  have h2 := h.data_lt n hn
  have h3 := h.length_le
  have h4 := h.base_le
  have h5 := h.low_le
  have h6 := h.window_lt
  exact eq_of_mod hmod (by omega) (by omega)

/-- A message of the window whose successor agrees with the last reply taken in is the last message
that reply confirms. -/
theorem window_eq_low_of_mod (h : Inv M w g) (start : Nat) {i : Nat}
    (hi : g.base + i < g.submitted.length)
    (hmod : (start + (g.base + i + 1)) % M = (start + g.low) % M) : g.base + i + 1 = g.low := by
  have h3 := h.length_le
  have h4 := h.base_le
  have h5 := h.low_le
  have h6 := h.window_lt
  have h7 := h.expected_le
  exact eq_of_mod hmod (by omega) (by omega)

end Inv

end GoBackN
end FileTransfer
