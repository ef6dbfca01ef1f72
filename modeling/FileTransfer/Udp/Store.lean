import FileTransfer.Udp.Files
import Mathlib.Logic.Function.Basic

/-!
# Directories as maps

What the operations on a directory do to the map from names to contents, whatever the attributes of the files
and the order they lie in.
-/

namespace FileTransfer
namespace Udp
namespace Dir

/-- The content that a name is read with. -/
def contentOf (d : Dir) (name : List Byte) : Option (List Byte) := (d.find? name).map File.content

/-- A file is opened for writing, and this content is written to it. -/
def store (d : Dir) (name content : List Byte) : Dir := (d.create name).append name content

variable (d : Dir) (name : List Byte)

theorem append_nil : d.append name [] = d := by
  unfold append
  conv_rhs => rw [← List.map_id d]
  refine List.map_congr_left fun f _ => ?_
  split <;> simp

theorem append_append (l m : List Byte) : (d.append name l).append name m = d.append name (l ++ m) := by
  simp only [append, List.map_map]
  refine List.map_congr_left fun f _ => ?_
  by_cases hf : f.name = name <;> simp [hf]

/-- A change that keeps the names. -/
theorem find?_map {g : File → File} (hg : ∀ f, (g f).name = f.name) (name' : List Byte) :
    find? (d.map g) name' = (d.find? name').map g := by
  unfold find?
  rw [List.find?_map]
  congr 2
  funext f
  simp [hg]

theorem name_of_find? {f : File} (h : d.find? name = some f) : f.name = name := by
  simpa using List.find?_some h

theorem contentOf_append (l name' : List Byte) :
    (d.append name l).contentOf name' =
      if name' = name then (d.contentOf name).map (· ++ l) else d.contentOf name' := by
  unfold contentOf append
  rw [find?_map _ fun f => by split <;> rfl]
  by_cases hname : name' = name
  · subst hname
    rw [if_pos rfl]
    cases hfind : d.find? name' with
    | none => rfl
    | some f => simp [d.name_of_find? _ hfind]
  · rw [if_neg hname]
    cases hfind : d.find? name' with
    | none => rfl
    | some f => simp [d.name_of_find? _ hfind, hname]

theorem contentOf_create (name' : List Byte) :
    (d.create name).contentOf name' = if name' = name then some [] else d.contentOf name' := by
  unfold create
  cases hfind : d.find? name with
  | none =>
      -- a new file lies behind the others
      unfold contentOf find?
      rw [List.find?_append]
      by_cases hname : name' = name
      · subst hname
        have hnone : List.find? (fun f => decide (f.name = name')) d = none := hfind
        simp [hnone]
      · simp [hname, Ne.symm hname]
  | some f =>
      unfold contentOf
      dsimp only
      rw [find?_map _ fun f => by split <;> rfl]
      by_cases hname : name' = name
      · subst hname
        simp [hfind, d.name_of_find? _ hfind]
      · cases hfind' : d.find? name' with
        | none => simp [hname]
        | some g => simp [d.name_of_find? _ hfind', hname]

/-- The file that was written has its content, and the others keep theirs. -/
theorem contentOf_store (content : List Byte) :
    (d.store name content).contentOf = Function.update d.contentOf name (some content) := by
  funext name'
  rw [store, contentOf_append, contentOf_create, contentOf_create]
  by_cases hname : name' = name
  · subst hname
    simp
  · simp [hname]

theorem contentOf_delete : (d.delete name).contentOf = Function.update d.contentOf name none := by
  funext name'
  unfold contentOf delete find?
  rw [List.find?_filter]
  by_cases hname : name' = name
  · subst hname
    rw [Function.update_self, Option.map_eq_none_iff, List.find?_eq_none]
    simp
  · rw [Function.update_of_ne hname]
    congr 2
    funext f
    by_cases hf : f.name = name'
    · simp [hf, hname]
    · simp [hf]

theorem isSome_contentOf : (d.contentOf name).isSome = (d.find? name).isSome := by
  simp [contentOf]

end Dir
end Udp
end FileTransfer
