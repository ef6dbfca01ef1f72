import Mathlib.Algebra.Group.Int.Defs
import Mathlib.Algebra.Group.Nat.Defs
import Mathlib.Data.List.Basic

/-!
# Bytes in memory

Little-endian 32-bit words, as the structures of the program lie in memory, and the network byte
order conversion.
-/

namespace FileTransfer

abbrev Byte := UInt8

/-- The four bytes of a word, lowest first. -/
def leBytes (x : UInt32) : List Byte :=
  [UInt8.ofNat x.toNat, UInt8.ofNat (x.toNat / 256), UInt8.ofNat (x.toNat / 65536),
    UInt8.ofNat (x.toNat / 16777216)]

/-- The word in the first four bytes, lowest first. -/
def leWord (l : List Byte) : UInt32 :=
  UInt32.ofNat ((l.getD 0 0).toNat + 256 * (l.getD 1 0).toNat + 65536 * (l.getD 2 0).toNat +
    16777216 * (l.getD 3 0).toNat)

@[simp] theorem length_leBytes (x : UInt32) : (leBytes x).length = 4 := rfl

@[simp] theorem leWord_leBytes_append (x : UInt32) (l : List Byte) :
    leWord (leBytes x ++ l) = x := by
  have hx := x.toNat_lt
  apply UInt32.toNat.inj
  simp [leWord, leBytes]
  omega

theorem leBytes_leWord (a b c d : Byte) : leBytes (leWord [a, b, c, d]) = [a, b, c, d] := by
  have ha := a.toNat_lt
  have hb := b.toNat_lt
  have hc := c.toNat_lt
  have hd := d.toNat_lt
  simp only [leBytes, leWord, List.getD_cons_zero, List.getD_cons_succ, UInt32.toNat_ofNat',
    List.cons.injEq, and_true]
  refine ⟨?_, ?_, ?_, ?_⟩ <;> apply UInt8.toNat.inj <;> simp only [UInt8.toNat_ofNat'] <;> omega

/-- `htonl` on a little-endian machine (and `ntohl`, which is the same map). -/
def htonl (x : UInt32) : UInt32 := leWord (leBytes x).reverse

theorem htonl_htonl (x : UInt32) : htonl (htonl x) = x := by
  have hrev : leBytes (htonl x) = (leBytes x).reverse := leBytes_leWord _ _ _ _
  have hx := leWord_leBytes_append x []
  rw [List.append_nil] at hx
  calc
    htonl (htonl x) = leWord (leBytes (htonl x)).reverse := rfl
    _ = leWord (leBytes x) := by rw [hrev, List.reverse_reverse]
    _ = x := hx

/-- `memmove` of `src` to the offset `off`. -/
def memmove (mem : List Byte) (off : Nat) (src : List Byte) : List Byte :=
  mem.take off ++ src ++ mem.drop (off + src.length)

/-- The memory from the place of the copy on. -/
theorem drop_memmove {mem : List Byte} {off : Nat} (src : List Byte) (h : off ≤ mem.length) :
    (memmove mem off src).drop off = src ++ mem.drop (off + src.length) := by
  have hlen : (mem.take off).length = off := List.length_take_of_le h
  rw [memmove, List.append_assoc, List.drop_left' hlen]

/-- The memory behind the copy stays. -/
theorem drop_memmove_of_le {mem src : List Byte} {off n : Nat} (h : off ≤ mem.length)
    (hn : off + src.length ≤ n) : (memmove mem off src).drop n = mem.drop n := by
  obtain ⟨k, rfl⟩ := Nat.exists_eq_add_of_le hn
  calc
    (memmove mem off src).drop (off + src.length + k) =
        (((memmove mem off src).drop off).drop src.length).drop k := by
      rw [List.drop_drop, List.drop_drop, Nat.add_assoc]
    _ = (mem.drop (off + src.length)).drop k := by rw [drop_memmove src h, List.drop_left]
    _ = mem.drop (off + src.length + k) := List.drop_drop

end FileTransfer
