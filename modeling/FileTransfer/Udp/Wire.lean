import FileTransfer.Udp.Packet

/-!
# The bytes of a packet of the stop-and-wait builds

`Udp.Packet` writes what `recvfrom` does field by field.  Here a `Udppacket` is the 264 bytes of the structure,
a datagram the first of them, and `recvfrom` a copy to the start of the receiver's structure: `recvfrom_bytes`
says that the two agree, also where a datagram ends inside the number.
-/

namespace FileTransfer
namespace Udp

/-! ## Integers -/

/-- The values of an `int`. -/
def IsInt (x : Int) : Prop := -2147483648 ≤ x ∧ x < 2147483648

instance (x : Int) : Decidable (IsInt x) := inferInstanceAs (Decidable (_ ∧ _))

@[simp] theorem length_bytesOfInt (x : Int) : (bytesOfInt x).length = 4 := length_leBytes _

theorem toInt_word (w : UInt32) : w.toInt32.toInt = (w.toNat : Int).bmod 4294967296 :=
  BitVec.toInt_eq_toNat_bmod _

theorem toNat_word (x : Int) : ((UInt32.ofInt x).toNat : Int) = x % 4294967296 := by
  have hnonneg : 0 ≤ x % 4294967296 := Int.emod_nonneg x (by decide)
  have hlt : x % 4294967296 < 4294967296 := Int.emod_lt_of_pos x (by decide)
  rw [UInt32.ofInt, UInt32.toNat_ofNat']
  omega

theorem intOfBytes_bytesOfInt {x : Int} (h : IsInt x) (l : List Byte) :
    intOfBytes (bytesOfInt x ++ l) = x := by
  obtain ⟨hlow, hhigh⟩ := h
  have hmod : (x % 4294967296).bmod 4294967296 = x.bmod 4294967296 := Int.emod_bmod x 4294967296
  rw [intOfBytes, bytesOfInt, leWord_leBytes_append, toInt_word, toNat_word, hmod]
  exact Int.bmod_eq_of_le_mul_two (by omega) (by omega)

theorem bytesOfInt_intOfBytes {l : List Byte} (h : l.length = 4) : bytesOfInt (intOfBytes l) = l := by
  obtain ⟨a, b, c, d, rfl⟩ : ∃ a b c d, l = [a, b, c, d] := by
    match l, h with
    | [a, b, c, d], _ => exact ⟨a, b, c, d, rfl⟩
  have hword : UInt32.ofInt (leWord [a, b, c, d]).toInt32.toInt = leWord [a, b, c, d] := by
    have hlt := (leWord [a, b, c, d]).toNat_lt
    apply UInt32.toNat.inj
    have hnat := toNat_word (leWord [a, b, c, d]).toInt32.toInt
    have hmod : (leWord [a, b, c, d]).toInt32.toInt % 4294967296 =
        ((leWord [a, b, c, d]).toNat : Int) % 4294967296 := by
      rw [toInt_word]
      exact Int.bmod_emod
    omega
  rw [intOfBytes, bytesOfInt, hword, leBytes_leWord]

/-- Only the first four bytes count. -/
theorem leWord_append_of_length {l : List Byte} (h : l.length = 4) (m : List Byte) :
    leWord (l ++ m) = leWord l := by
  have hbyte : ∀ i < 4, (l ++ m).getD i 0 = l.getD i 0 := by
    intro i hi
    rw [List.getD_eq_getElem?_getD, List.getElem?_append_left (h ▸ hi), List.getD_eq_getElem?_getD]
  simp only [leWord, hbyte 0 (by decide), hbyte 1 (by decide), hbyte 2 (by decide),
    hbyte 3 (by decide)]

/-! ## Structures -/

theorem Buffer.bytes_overlay (b : Buffer) (l : List Byte) :
    (b.overlay l).bytes = (l ++ b.bytes.drop l.length).take bufferLength :=
  rfl

/-- What is behind the bytes that are written. -/
theorem drop_length_take {l m : List Byte} {k n : Nat} (hl : l.length = k) (hm : m.length = k) :
    m.drop (l.take n).length = m.drop n := by
  rw [List.length_take, hl]
  rcases Nat.le_total n k with h | h
  · rw [Nat.min_eq_left h]
  · rw [Nat.min_eq_right h, List.drop_of_length_le (Nat.le_of_eq hm),
      List.drop_of_length_le (hm ▸ h)]

namespace Udppacket

/-- The structure in memory. -/
def bytes (p : Udppacket) : List Byte := bytesOfInt p.seqNo ++ p.data.bytes

/-- The structure that is read off memory. -/
def ofBytes (l : List Byte) : Udppacket := ⟨intOfBytes l, .ofBytes (l.drop 4)⟩

theorem length_bytes (p : Udppacket) : p.bytes.length = sizeofUdppacket := by
  rw [bytes, List.length_append, length_bytesOfInt, p.data.length_eq]
  rfl

theorem ofBytes_bytes {p : Udppacket} (h : IsInt p.seqNo) : ofBytes p.bytes = p := by
  have hdata : p.bytes.drop 4 = p.data.bytes := List.drop_left' (length_bytesOfInt _)
  rw [ofBytes, hdata, Buffer.ofBytes_bytes, bytes, intOfBytes_bytesOfInt h]

theorem bytes_ofBytes {l : List Byte} (h : l.length = sizeofUdppacket) : (ofBytes l).bytes = l := by
  have hsize : sizeofUdppacket = 264 := rfl
  have hdrop : (l.drop 4).length = bufferLength := by
    rw [List.length_drop, h]
    rfl
  have hdata : (Buffer.ofBytes (l.drop 4)).bytes = l.drop 4 := List.take_left' hdrop
  have hnumber : intOfBytes l = intOfBytes (l.take 4) := by
    have hword : leWord (l.take 4) = leWord (l.take 4 ++ l.drop 4) :=
      (leWord_append_of_length (by rw [List.length_take]; omega) _).symm
    rw [intOfBytes, intOfBytes, hword, List.take_append_drop]
  rw [bytes, ofBytes, hdata, hnumber, bytesOfInt_intOfBytes (by rw [List.length_take]; omega),
    List.take_append_drop]

/-- Writing over the fields is writing over the bytes. -/
theorem bytes_overlay (r p : Udppacket) (n : Nat) :
    (r.overlay p n).bytes = p.bytes.take n ++ r.bytes.drop n := by
  have hp := p.data.length_eq
  have hr := r.data.length_eq
  by_cases hn : 4 ≤ n
  · -- the number is written whole
    have hlen : (p.data.bytes.take (n - 4) ++ r.data.bytes.drop (n - 4)).length = bufferLength := by
      simp only [List.length_append, List.length_take, List.length_drop, hp, hr]
      omega
    have hdata : (r.data.overlay (p.data.bytes.take (n - 4))).bytes =
        p.data.bytes.take (n - 4) ++ r.data.bytes.drop (n - 4) := by
      rw [Buffer.bytes_overlay, drop_length_take hp hr, List.take_of_length_le (Nat.le_of_eq hlen)]
    have htake : (bytesOfInt p.seqNo).take n = bytesOfInt p.seqNo :=
      List.take_of_length_le ((length_bytesOfInt _).trans_le hn)
    have hdrop : (bytesOfInt r.seqNo).drop n = [] :=
      List.drop_of_length_le ((length_bytesOfInt _).trans_le hn)
    rw [bytes, overlay_seqNo r p hn, overlay, hdata, bytes, bytes, List.take_append, List.drop_append,
      htake, hdrop, length_bytesOfInt, length_bytesOfInt, List.nil_append, List.append_assoc]
  · -- a part of the number is
    have hcut : n ≤ 4 := Nat.le_of_not_le hn
    have hnumber : ((bytesOfInt p.seqNo).take n ++ (bytesOfInt r.seqNo).drop n).length = 4 := by
      simp only [List.length_append, List.length_take, List.length_drop, length_bytesOfInt]
      omega
    rw [bytes, overlay, if_neg hn, bytesOfInt_intOfBytes hnumber, Nat.sub_eq_zero_of_le hcut,
      List.take_zero, bytes, bytes, List.take_append_of_le_length (by rwa [length_bytesOfInt]),
      List.drop_append_of_le_length (by rwa [length_bytesOfInt]), List.append_assoc]
    have hnone : (r.data.overlay []).bytes = r.data.bytes := by
      rw [Buffer.bytes_overlay, List.length_nil, List.drop_zero, List.nil_append,
        List.take_of_length_le (Nat.le_of_eq hr)]
    rw [hnone]

end Udppacket

/-! ## Datagrams -/

/-- The bytes on the wire. -/
def Datagram.bytes (d : Datagram) : List Byte := d.pkt.bytes.take d.len

theorem Datagram.length_bytes {d : Datagram} (h : Sane d) : d.bytes.length = d.len := by
  rw [bytes, List.length_take, Udppacket.length_bytes, Nat.min_eq_left h.2]

/-- `recvfrom` copies what has arrived to the start of the structure, and fails if it does not fit. -/
theorem recvfrom_bytes (r : Udppacket) (cap : Nat) {d : Datagram} (h : Sane d) :
    (recvfrom r cap d).1.bytes = d.bytes.take cap ++ r.bytes.drop (d.bytes.take cap).length ∧
      (recvfrom r cap d).2 = if d.bytes.length ≤ cap then (d.bytes.length : Int) else -1 := by
  have hlen := d.length_bytes h
  refine ⟨?_, by rw [hlen]; rfl⟩
  rw [recvfrom, Udppacket.bytes_overlay, List.length_take, hlen, Datagram.bytes, List.take_take,
    Nat.min_comm]

/-- The number `7` arrives without the data, and the last byte of it does not fit. -/
theorem recvfrom_bytes_cut :
    (recvfrom ⟨-1, .ofBytes []⟩ 3 ⟨⟨7, .ofBytes []⟩, 4, .pair⟩).1.bytes.take 4 = [7, 0, 0, 255] ∧
      (recvfrom ⟨-1, .ofBytes []⟩ 3 ⟨⟨7, .ofBytes []⟩, 4, .pair⟩).2 = -1 := by
  obtain ⟨hbytes, hcount⟩ := recvfrom_bytes ⟨-1, .ofBytes []⟩ 3
    (show Sane ⟨⟨7, .ofBytes []⟩, 4, .pair⟩ from ⟨by decide, by decide⟩)
  exact ⟨by rw [hbytes]; decide, by rw [hcount]; decide⟩

end Udp
end FileTransfer
