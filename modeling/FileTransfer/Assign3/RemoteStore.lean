import FileTransfer.Assign3.Announcements
import FileTransfer.Lib.Until
import FileTransfer.Udp.Store

/-!
# What a session is for

A session lets its user keep files on another machine.  `Files` is the user's idea of it: two maps from names
to contents, and an operation reads one and writes the other.  The programs fall short of it in one thing: a
download loses the last four bytes (`received`), and `Files.AllNear` says how far the files are then from those
that were asked for.  `View` has the directories of the two programs in place of the maps, and what the user was
told; `View.files_perform` says that an operation does to the directories what it does to the maps.  `Works` is
the condition under which the two programs carry an operation out.
-/

namespace FileTransfer
namespace Assign3

open Udp

/-! ## The two maps -/

/-- The files at the two ends. -/
structure Files (ν κ : Type*) where
  here : ν → Option κ
  there : ν → Option κ

namespace Files

variable {ν κ : Type*} [DecidableEq ν]

/-- The name under which a file is kept: the second one, when the first is taken. -/
def free (m : ν → Option κ) (name newName : ν) : ν := if (m name).isSome then newName else name

/-- A file is copied there. -/
def upload (fs : Files ν κ) (name newName : ν) : Files ν κ :=
  match fs.here name with
  | none => fs
  | some content =>
      { fs with there := Function.update fs.there (free fs.there name newName) (some content) }

/-- A file is copied here; `arrives` is what becomes of its content. -/
def download (arrives : κ → κ) (fs : Files ν κ) (name newName : ν) : Files ν κ :=
  match fs.there name with
  | none => fs
  | some content =>
      { fs with here := Function.update fs.here (free fs.here name newName) (some (arrives content)) }

def remove (fs : Files ν κ) (name : ν) : Files ν κ :=
  { fs with there := Function.update fs.there name none }

end Files

/-- What the user asks for with an operation, when `arrives` is what becomes of the content of a download. -/
def Files.perform (arrives : List Byte → List Byte) (fs : Files (List Byte) (List Byte)) :
    Op → Files (List Byte) (List Byte)
  | .list => fs
  | .get name newName => fs.download arrives name.chars newName.chars
  | .put name newName => fs.upload name.chars newName.chars
  | .del name => fs.remove name.chars

/-! ## What is lost -/

/-- What the two programs make of a download: `udplastsend` of the server counts the number of the packet among
the bytes of the final chunk, and the last four bytes do not arrive. -/
def received (content : List Byte) : List Byte :=
  content.take (content.length - 4) ++ List.replicate (min content.length 4) 0

/-- Two contents that differ in their last four bytes at most. -/
def Near (content content' : List Byte) : Prop :=
  content.length = content'.length ∧
    content.take (content.length - 4) = content'.take (content'.length - 4)

theorem Near.refl (content : List Byte) : Near content content := ⟨rfl, rfl⟩

/-- A download stays near, also of a file that was downloaded before. -/
theorem Near.received {content content' : List Byte} (h : Near content content') :
    Near (received content) content' := by
  obtain ⟨hlen, htake⟩ := h
  have hlen' : (content.take (content.length - 4)).length = content.length - 4 :=
    List.length_take_of_le (Nat.sub_le _ _)
  have hreceived : (Assign3.received content).length = content.length := by
    rw [Assign3.received, List.length_append, hlen', List.length_replicate]
    omega
  refine ⟨hreceived.trans hlen, ?_⟩
  rw [hreceived, Assign3.received, List.take_append_of_le_length (Nat.le_of_eq hlen'.symm),
    List.take_of_length_le (Nat.le_of_eq hlen'), htake]

namespace Files

/-- Two maps with the same names and near contents. -/
def Near (m m' : List Byte → Option (List Byte)) : Prop := ∀ name, Option.Rel Assign3.Near (m name) (m' name)

theorem Near.isSome {m m' : List Byte → Option (List Byte)} (h : Near m m') (name : List Byte) :
    (m name).isSome = (m' name).isSome := by
  have hname := h name
  generalize m name = o at hname ⊢
  generalize m' name = o' at hname ⊢
  cases hname <;> rfl

theorem Near.update {m m' : List Byte → Option (List Byte)} (h : Near m m') (name : List Byte)
    {o o' : Option (List Byte)} (ho : Option.Rel Assign3.Near o o') :
    Near (Function.update m name o) (Function.update m' name o') := by
  intro name'
  by_cases hname : name' = name
  · subst hname
    rwa [Function.update_self, Function.update_self]
  · rw [Function.update_of_ne hname, Function.update_of_ne hname]
    exact h name'

/-- The files of both ends are near. -/
def AllNear (fs fs' : Files (List Byte) (List Byte)) : Prop := Near fs.here fs'.here ∧ Near fs.there fs'.there

theorem AllNear.refl (fs : Files (List Byte) (List Byte)) : AllNear fs fs := by
  have hself : ∀ o, Option.Rel Assign3.Near o o := by
    intro o
    cases o with
    | none => exact .none
    | some content => exact .some (.refl content)
  exact ⟨fun name => hself _, fun name => hself _⟩

/-- With downloads that lose their last bytes an operation leads to files near those that were asked for. -/
theorem AllNear.perform {fs fs' : Files (List Byte) (List Byte)} (h : AllNear fs fs') (op : Op) :
    AllNear (fs.perform received op) (fs'.perform id op) := by
  obtain ⟨hhere, hthere⟩ := h
  have hfree : ∀ {m m' : List Byte → Option (List Byte)} (name newName : FileName), Near m m' →
      free m name.chars newName.chars = free m' name.chars newName.chars := by
    intro m m' name newName h
    rw [free, free, h.isSome]
  cases op with
  | list => exact ⟨hhere, hthere⟩
  | get name newName =>
      have hname := hthere name.chars
      simp only [Files.perform, download, hfree name newName hhere]
      generalize fs.there name.chars = o at hname ⊢
      generalize fs'.there name.chars = o' at hname ⊢
      cases hname with
      | none => exact ⟨hhere, hthere⟩
      | some hcontent => exact ⟨hhere.update _ (.some hcontent.received), hthere⟩
  | put name newName =>
      have hname := hhere name.chars
      simp only [Files.perform, upload, hfree name newName hthere]
      generalize fs.here name.chars = o at hname ⊢
      generalize fs'.here name.chars = o' at hname ⊢
      cases hname with
      | none => exact ⟨hhere, hthere⟩
      | some hcontent => exact ⟨hhere, hthere.update _ (.some hcontent)⟩
  | del name => exact ⟨hhere, hthere.update _ .none⟩

/-- A whole session. -/
theorem AllNear.foldl {fs fs' : Files (List Byte) (List Byte)} (h : AllNear fs fs') (ops : List Op) :
    AllNear (ops.foldl (Files.perform received) fs) (ops.foldl (Files.perform id) fs') := by
  induction ops generalizing fs fs' with
  | nil => exact h
  | cons op ops ih => exact ih (h.perform op)

end Files

/-! ## The two directories -/

/-- The directories of the client and of the server, and the reports to the user. -/
structure View where
  here : Dir
  there : Dir
  reports : List Report

/-- The name of the file that is written. -/
def target (d : Dir) (name newName : FileName) : List Byte :=
  if (d.find? name.chars).isSome then newName.chars else name.chars

namespace View

variable (v : View)

def told (r : Report) : View := { v with reports := v.reports ++ [r] }

/-- The names are printed. -/
def printed (names : List (List Byte)) : View := { v with reports := v.reports ++ names.map .fileName }

def perform : Op → View
  | .list => (v.printed v.there.listed).told .listed
  | .get name newName =>
      match v.there.find? name.chars with
      | none => v
      | some f =>
          ({ v with here := v.here.store (target v.here name newName) (received f.content) } :
            View).told .downloaded
  | .put name newName =>
      match v.here.find? name.chars with
      | none => v
      | some f =>
          ({ v with there := v.there.store (target v.there name newName) f.content } : View).told
            .uploaded
  | .del name =>
      match v.there.find? name.chars with
      | none => v.told .notExist
      | some _ => ({ v with there := v.there.delete name.chars } : View).told .deleted

/-- The directories as maps. -/
def files : Files (List Byte) (List Byte) := ⟨v.here.contentOf, v.there.contentOf⟩

theorem target_eq_free (d : Dir) (name newName : FileName) :
    target d name newName = Files.free d.contentOf name.chars newName.chars := by
  rw [target, Files.free, Dir.isSome_contentOf]

/-- An operation does to the directories what it does to the maps. -/
theorem files_perform (op : Op) : (v.perform op).files = v.files.perform received op := by
  cases op with
  | list => rfl
  | get name newName =>
      cases hfind : v.there.find? name.chars with
      | none =>
          have hnone : v.there.contentOf name.chars = none := by rw [Dir.contentOf, hfind]; rfl
          simp only [perform, hfind, Files.perform, Files.download, files, hnone]
      | some f =>
          have hsome : v.there.contentOf name.chars = some f.content := by
            rw [Dir.contentOf, hfind]
            rfl
          simp only [perform, hfind, Files.perform, Files.download, files, hsome, told,
            Dir.contentOf_store, target_eq_free]
  | put name newName =>
      cases hfind : v.here.find? name.chars with
      | none =>
          have hnone : v.here.contentOf name.chars = none := by rw [Dir.contentOf, hfind]; rfl
          simp only [perform, hfind, Files.perform, Files.upload, files, hnone]
      | some f =>
          have hsome : v.here.contentOf name.chars = some f.content := by
            rw [Dir.contentOf, hfind]
            rfl
          simp only [perform, hfind, Files.perform, Files.upload, files, hsome, told,
            Dir.contentOf_store, target_eq_free]
  | del name =>
      cases hfind : v.there.find? name.chars with
      | none =>
          -- a name that no file has is removed from the map already
          have hnone : v.there.contentOf name.chars = none := by rw [Dir.contentOf, hfind]; rfl
          simp only [perform, hfind, Files.perform, Files.remove, files, told]
          rw [← hnone, Function.update_eq_self]
      | some f =>
          simp only [perform, hfind, Files.perform, Files.remove, files, told, Dir.contentOf_delete]

/-- A whole session. -/
theorem files_foldl (ops : List Op) :
    (ops.foldl perform v).files = ops.foldl (Files.perform received) v.files := by
  induction ops generalizing v with
  | nil => rfl
  | cons op ops ih => rw [List.foldl_cons, List.foldl_cons, ih, files_perform]

end View

/-! ## When it works -/

/-- The client's next number after an operation; it sends one message for `LIST`, two for `GET` and `DEL`, and
for `PUT`, which begins with the number `0`, three and the final chunk. -/
def bitAfter (v : View) (a : Int) : Op → Int
  | .list => 1 - a
  | .get _ _ | .del _ => a
  | .put name _ => if (v.here.contentOf name.chars).getD [] = [] then 1 else 0

/-- `PutFileToServer` announces the file so that the server reads what was meant, and the final chunk leaves
room in its packet for the terminator that `strcpy` writes behind it. -/
structure Uploadable (name newName : FileName) (content : List Byte) : Prop where
  announceable : Announceable name newName content
  name : comma ∉ name.chars
  newName : comma ∉ newName.chars
  room : bufferLength ∣ content.length → content = []

/-- `PutFileToClient` announces the file so that the client reads what was meant, and sends a final chunk
that brings its number. -/
structure Downloadable (name : FileName) (content : List Byte) : Prop where
  size_lt : content.length < 2 ^ 31
  fits : (announcement name.chars content.length).length < bufferLength
  name : comma ∉ name.chars
  number : 4 ≤ content.length % bufferLength

/-- A name that `listServerFiles` prints as it is in the server's directory; one that begins with `@` would end
the listing. -/
structure Listable (name : List Byte) : Prop where
  isText : IsText name
  short : name.length < bufferLength
  nonempty : name ≠ []
  mark : name.take 1 ≠ ascii "@"

/-- The two programs carry the operation out when the client's next number is `a`. -/
def Works (v : View) (a : Int) : Op → Prop
  | .list => ∀ name ∈ v.there.listed, Listable name
  | .get name _ => ∃ f, v.there.find? name.chars = some f ∧ Downloadable name f.content
  -- `PutFileToServer` begins with the number `0`, which must not be the last one
  | .put name newName => a = 0 ∧
      ∃ f, v.here.find? name.chars = some f ∧ Uploadable name newName f.content
  -- no answer comes when the file is locked
  | .del name => ∀ f, v.there.find? name.chars = some f → f.deletable = true

/-- Where an operation leads to, with the client's next number. -/
def advance (x : View × Int) (op : Op) : View × Int := (x.1.perform op, bitAfter x.1 x.2 op)

/-- Every operation of the session works where its turn comes. -/
def AllWork (v : View) (a : Int) (ops : List Op) : Prop :=
  Admissible (fun x op => Works x.1 x.2 op) advance (v, a) ops

theorem fst_foldl_advance (ops : List Op) (x : View × Int) :
    (ops.foldl advance x).1 = ops.foldl View.perform x.1 := by
  induction ops generalizing x with
  | nil => rfl
  | cons op ops ih => rw [List.foldl_cons, List.foldl_cons, ih, advance]

end Assign3
end FileTransfer
