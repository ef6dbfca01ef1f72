import FileTransfer.Lib.Bytes
import Mathlib.Data.List.TakeWhile

/-!
# Strings in character arrays

A character array is the list of its bytes; the string in it ends before the first zero.
-/

namespace FileTransfer

/-- The string a character array holds. -/
def cstr (l : List Byte) : List Byte := l.takeWhile (· ≠ 0)

/-- The characters of a string. -/
def IsText (s : List Byte) : Prop := ∀ b ∈ s, b ≠ 0

instance (s : List Byte) : Decidable (IsText s) :=
  List.decidableBAll (fun b => b ≠ 0) s

/-- `strcpy` into the array `dst`; the bytes behind the terminator stay. -/
def strcpy (dst src : List Byte) : List Byte := src ++ 0 :: dst.drop (src.length + 1)

theorem length_strcpy {dst src : List Byte} (h : src.length < dst.length) :
    (strcpy dst src).length = dst.length := by
  simp only [strcpy, List.length_append, List.length_cons, List.length_drop]
  omega

theorem cstr_append_zero {s l : List Byte} (h : IsText s) : cstr (s ++ 0 :: l) = s := by
  unfold cstr
  rw [List.takeWhile_append_of_pos fun b hb => decide_eq_true (h b hb)]
  simp

theorem cstr_strcpy {dst src : List Byte} (h : IsText src) : cstr (strcpy dst src) = src :=
  cstr_append_zero h

/-- The first characters of a string are the first bytes of its array. -/
theorem take_cstr {l : List Byte} {n : Nat} (h : n ≤ (cstr l).length) :
    (cstr l).take n = l.take n := by
  obtain ⟨rest, hrest⟩ : cstr l <+: l := List.takeWhile_prefix _
  calc
    (cstr l).take n = (cstr l ++ rest).take n := (List.take_append_of_le_length h).symm
    _ = l.take n := by rw [hrest]

/-- A string that ends inside its array is followed by a zero there. -/
theorem cstr_append_zero_drop {l : List Byte} (h : (cstr l).length < l.length) :
    cstr l ++ 0 :: l.drop ((cstr l).length + 1) = l := by
  induction l with
  | nil => simp at h
  | cons a l ih =>
      by_cases ha : a = 0
      · subst ha
        simp [cstr]
      · have hcons : cstr (a :: l) = a :: cstr l := by simp [cstr, ha]
        rw [hcons, List.length_cons, List.length_cons] at h
        rw [hcons, List.cons_append, List.length_cons, List.drop_succ_cons,
          ih (Nat.lt_of_succ_lt_succ h)]

/-- Zeros behind the characters are not part of the string. -/
theorem cstr_prefix {l m : List Byte} (h : ∀ b ∈ m, b = 0) : cstr (l ++ m) <+: l := by
  induction l with
  | nil =>
      cases m with
      | nil => exact List.prefix_refl _
      | cons b m => simp [cstr, h b (by simp)]
  | cons a l ih =>
      by_cases ha : a = 0
      · simp [cstr, ha]
      · have hcons : cstr (a :: l ++ m) = a :: cstr (l ++ m) := by simp [cstr, ha]
        rw [hcons]
        exact (List.prefix_cons_inj a).2 ih

theorem zero_mem_iff {l : List Byte} : 0 ∈ l ↔ (cstr l).length < l.length := by
  constructor
  · intro hzero
    by_contra hge
    have hall : cstr l = l := (List.takeWhile_prefix _).eq_of_length_le (Nat.le_of_not_lt hge)
    rw [← hall] at hzero
    simpa using List.mem_takeWhile_imp hzero
  · intro hlt
    rw [← cstr_append_zero_drop hlt]
    simp

/-- Read the string that begins a piece of memory, `none` when it does not end there. -/
def readCstr (l : List Byte) : Option (List Byte) := if 0 ∈ l then some (cstr l) else none

/-- A string is read where it lies with its terminator. -/
theorem readCstr_eq_some {l s : List Byte} (hs : IsText s) :
    readCstr l = some s ↔ s ++ [0] <+: l := by
  constructor
  · intro h
    unfold readCstr at h
    split at h
    · rename_i hzero
      cases h
      refine ⟨l.drop ((cstr l).length + 1), ?_⟩
      rw [List.append_assoc]
      exact cstr_append_zero_drop (zero_mem_iff.1 hzero)
    · cases h
  · rintro ⟨rest, rfl⟩
    rw [readCstr, if_pos (by simp), List.append_assoc]
    exact congrArg some (cstr_append_zero hs)

end FileTransfer
