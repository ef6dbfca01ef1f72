import FileTransfer.Udp.Packet

/-!
# Files and announcements

The working directory of a program as the two builds use it, and the text `name,size` that announces a
file.  File names are compared byte by byte.
-/

namespace FileTransfer
namespace Udp

/-- A file name that fits into the `char[260]` it is read into. -/
structure FileName where
  chars : List Byte
  isText : IsText chars
  short : chars.length < bufferLength
  deriving DecidableEq

/-- A `char[260]` that holds a string; `stack` is what lies behind its terminator. -/
def textBuffer (text stack : List Byte) : Buffer := .ofBytes (text ++ 0 :: stack)

theorem cstr_textBuffer {text : List Byte} (stack : List Byte) (h : IsText text)
    (hlen : text.length < bufferLength) : cstr (textBuffer text stack).bytes = text := by
  have hroom : bufferLength - text.length = bufferLength - text.length - 1 + 1 := by omega
  have hbytes : (textBuffer text stack).bytes = text ++
      0 :: (stack ++ List.replicate bufferLength 0).take (bufferLength - text.length - 1) := by
    simp only [textBuffer, Buffer.ofBytes]
    rw [List.append_assoc, List.take_append, List.take_of_length_le (Nat.le_of_lt hlen), hroom,
      List.cons_append, List.take_succ_cons, Nat.add_sub_cancel]
  rw [hbytes]
  exact cstr_append_zero h

/-! ## Directories -/

structure File where
  name : List Byte
  content : List Byte
  /-- the attribute that makes `listFiles` show the file -/
  archive : Bool
  /-- `DeleteFile` succeeds -/
  deletable : Bool
  deriving DecidableEq

abbrev Dir := List File

namespace Dir

/-- `_stat` and `_access` find the file. -/
def find? (d : Dir) (name : List Byte) : Option File := List.find? (fun f => f.name = name) d

/-- `fopen(name,"wb")`: the file is created, or cut to nothing. -/
def create (d : Dir) (name : List Byte) : Dir :=
  match d.find? name with
  | none => d ++ [⟨name, [], true, true⟩]
  | some _ => d.map fun f => if f.name = name then { f with content := [], archive := true } else f

/-- `fwrite` to the end of the file. -/
def append (d : Dir) (name bytes : List Byte) : Dir :=
  d.map fun f => if f.name = name then { f with content := f.content ++ bytes } else f

/-- `SetFileAttributes(name,0)` -/
def clearAttributes (d : Dir) (name : List Byte) : Dir :=
  d.map fun f => if f.name = name then { f with archive := false } else f

/-- `DeleteFile`, when it succeeds. -/
def delete (d : Dir) (name : List Byte) : Dir := d.filter fun f => f.name ≠ name

/-- The names that `listFiles` finds, in their order. -/
def listed (d : Dir) : List (List Byte) := (d.filter File.archive).map File.name

end Dir

/-! ## Numbers and announcements -/

/-- `to_string` -/
def decimal (n : Int) : List Byte := ascii (toString n)

def isDigit (b : Byte) : Bool := 48 ≤ b && b ≤ 57

def isSpace (b : Byte) : Bool := b = 32 || (9 ≤ b && b ≤ 13)

/-- The number that the leading digits make. -/
def digits (s : List Byte) : Nat :=
  (s.takeWhile isDigit).foldl (fun n b => 10 * n + (b.toNat - 48)) 0

/-- `atoi` -/
def atoi (s : List Byte) : Int :=
  match s.dropWhile isSpace with
  | 45 :: r => -digits r
  | 43 :: r => digits r
  | r => digits r

/-- The comma of an announcement. -/
def comma : Byte := 44

/-- The text `name,size`. -/
def announcement (name : List Byte) (size : Int) : List Byte := name ++ comma :: decimal size

/-- What the receiver takes an announcement apart into: the name before the first comma, and `atoi` of
the text behind it.  Without a comma both are taken from the whole text. -/
def parseAnnouncement (text : List Byte) : List Byte × Int :=
  (text.takeWhile (· ≠ comma),
    if comma ∈ text then atoi ((text.dropWhile (· ≠ comma)).drop 1) else atoi text)

/-! ### Reading a number back -/

theorem decimal_natCast (n : Nat) :
    decimal n = (Nat.toDigits 10 n).map fun c => UInt8.ofNat c.toNat := by
  simp [decimal, ascii, Int.repr_eq_if]

/-- The byte of a digit. -/
theorem byte_of_digit {c : Char} (h : c.isDigit = true) :
    isDigit (UInt8.ofNat c.toNat) = true ∧ (UInt8.ofNat c.toNat).toNat = c.toNat := by
  have hle : 48 ≤ c.toNat ∧ c.toNat ≤ 57 := by
    simpa [Char.isDigit, UInt32.le_iff_toNat_le] using h
  have hval : (UInt8.ofNat c.toNat).toNat = c.toNat := by
    rw [UInt8.toNat_ofNat', Nat.mod_eq_of_lt (by omega)]
  refine ⟨?_, hval⟩
  simp [isDigit, UInt8.le_iff_toNat_le, hval, hle]

theorem isDigit_of_mem_decimal {n : Nat} {b : Byte} (h : b ∈ decimal n) : isDigit b = true := by
  rw [decimal_natCast] at h
  obtain ⟨c, hc, rfl⟩ := List.mem_map.1 h
  exact (byte_of_digit (Nat.isDigit_of_mem_toDigits (by decide) (by decide) hc)).1

theorem foldl_digits (l : List Char) (hl : ∀ c ∈ l, c.isDigit = true) (k : Nat) :
    (l.map fun c => UInt8.ofNat c.toNat).foldl (fun n b => 10 * n + (b.toNat - 48)) k =
      Nat.ofDigitChars 10 l k := by
  induction l generalizing k with
  | nil => rfl
  | cons c l ih =>
      have hc := (byte_of_digit (hl c List.mem_cons_self)).2
      rw [List.map_cons, List.foldl_cons, Nat.ofDigitChars_cons, hc]
      exact ih (fun x hx => hl x (List.mem_cons_of_mem _ hx)) _

/-- A digit is no blank and no sign. -/
theorem not_sign_of_isDigit {b : Byte} (h : isDigit b = true) :
    isSpace b = false ∧ b ≠ 45 ∧ b ≠ 43 := by
  have hge : 48 ≤ b.toNat := by
    have hb := (Bool.and_eq_true _ _ ▸ h).1
    simpa [UInt8.le_iff_toNat_le] using hb
  refine ⟨?_, ?_, ?_⟩
  · have h32 : b ≠ 32 := by
      rintro rfl
      exact absurd hge (by decide)
    have h13 : ¬ b ≤ 13 := by
      intro hle
      have := UInt8.le_iff_toNat_le.1 hle
      exact absurd (hge.trans this) (by decide)
    simp [isSpace, h32, h13]
  · rintro rfl
    exact absurd hge (by decide)
  · rintro rfl
    exact absurd hge (by decide)

/-- `atoi` of a number, whatever follows it that is no digit. -/
theorem atoi_decimal_append {n : Nat} {rest : List Byte} (hrest : rest.takeWhile isDigit = []) :
    atoi (decimal n ++ rest) = n := by
  have hdigits : digits (decimal n ++ rest) = n := by
    have hall : ∀ b ∈ decimal n, isDigit b = true := fun b hb => isDigit_of_mem_decimal hb
    calc
      digits (decimal n ++ rest)
          = (decimal n).foldl (fun n b => 10 * n + (b.toNat - 48)) 0 := by
            rw [digits, List.takeWhile_append_of_pos hall, hrest, List.append_nil]
      _ = Nat.ofDigitChars 10 (Nat.toDigits 10 n) 0 := by
            rw [decimal_natCast]
            exact foldl_digits _
              (fun c hc => Nat.isDigit_of_mem_toDigits (by decide) (by decide) hc) 0
      _ = n := Nat.ofDigitChars_ten_toDigits
  -- a number starts with a digit: no blank is skipped, and there is no sign
  obtain ⟨b, l, hbl⟩ : ∃ b l, decimal n = b :: l := by
    apply List.exists_cons_of_ne_nil
    rw [decimal_natCast]
    exact fun h => Nat.toDigits_ne_nil (List.map_eq_nil_iff.1 h)
  have hb : isDigit b = true := isDigit_of_mem_decimal (hbl ▸ List.mem_cons_self)
  obtain ⟨hspace, hminus, hplus⟩ := not_sign_of_isDigit hb
  rw [hbl, List.cons_append] at hdigits ⊢
  rw [atoi, List.dropWhile_cons_of_neg (by simp [hspace])]
  split
  · rename_i heq
    exact absurd (List.cons.inj heq).1 hminus
  · rename_i heq
    exact absurd (List.cons.inj heq).1 hplus
  · exact congrArg Nat.cast hdigits

theorem atoi_decimal (n : Nat) : atoi (decimal n) = n := by
  rw [← List.append_nil (decimal n)]
  exact atoi_decimal_append rfl

theorem parseAnnouncement_append {name : List Byte} (h : comma ∉ name) (rest : List Byte) :
    parseAnnouncement (name ++ comma :: rest) = (name, atoi rest) := by
  have hall : ∀ b ∈ name, (decide (b ≠ comma)) = true := fun b hb =>
    decide_eq_true fun heq => h (heq ▸ hb)
  simp only [parseAnnouncement, List.takeWhile_append_of_pos hall,
    List.dropWhile_append_of_pos hall]
  simp

end Udp
end FileTransfer
