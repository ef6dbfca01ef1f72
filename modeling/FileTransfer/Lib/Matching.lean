import Mathlib.Data.List.Forall2

/-!
# Matching a queue against its abstract content

A concrete queue is related to an abstract one element by element, with `List.Forall₂`.  These are the
facts about such a matching that a queue needs: what is lost on one side can be lost on the other, and
a list of elements each of which has a match has a matching list.
-/

namespace FileTransfer

variable {α β : Type*} {R : α → β → Prop}

/-- Losing elements of the concrete queue is losing elements of the abstract one. -/
theorem forall₂_of_sublist {as : List α} {bs bs' : List β} (h : List.Forall₂ R as bs)
    (hsub : bs'.Sublist bs) : ∃ as', as'.Sublist as ∧ List.Forall₂ R as' bs' := by
  induction hsub generalizing as with
  | slnil => exact ⟨[], List.nil_sublist _, .nil⟩
  | cons b _ ih =>
      cases h with
      | cons _ htail =>
          obtain ⟨as', hs, hm⟩ := ih htail
          exact ⟨as', hs.cons _, hm⟩
  | cons_cons b _ ih =>
      cases h with
      | cons hhead htail =>
          obtain ⟨as', hs, hm⟩ := ih htail
          exact ⟨_ :: as', hs.cons_cons _, .cons hhead hm⟩

/-- Elements that each have a match form a matched list. -/
theorem exists_forall₂ {P : α → Prop} {bs : List β} (h : ∀ b ∈ bs, ∃ a, P a ∧ R a b) :
    ∃ as, (∀ a ∈ as, P a) ∧ List.Forall₂ R as bs := by
  induction bs with
  | nil => exact ⟨[], by simp, .nil⟩
  | cons b bs ih =>
      obtain ⟨a, ha, hab⟩ := h b List.mem_cons_self
      obtain ⟨as, has, hm⟩ := ih fun b' hb' => h b' (List.mem_cons_of_mem _ hb')
      refine ⟨a :: as, ?_, .cons hab hm⟩
      intro x hx
      rcases List.mem_cons.1 hx with rfl | hx
      · exact ha
      · exact has x hx

theorem exists_mem_of_forall₂ {as : List α} {bs : List β} (h : List.Forall₂ R as bs) {b : β}
    (hb : b ∈ bs) : ∃ a ∈ as, R a b := by
  induction h with
  | nil => cases hb
  | cons hab _ ih =>
      rcases List.mem_cons.1 hb with rfl | hb
      · exact ⟨_, List.mem_cons_self, hab⟩
      · obtain ⟨a, ha, hr⟩ := ih hb
        exact ⟨a, List.mem_cons_of_mem _ ha, hr⟩

end FileTransfer
