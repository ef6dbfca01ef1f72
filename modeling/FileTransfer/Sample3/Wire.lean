import FileTransfer.Sample3.Packet

/-!
# The bytes of a packet of the sliding-window build

`UDPPACKET` in memory: a word whose low five bits are `seq`, the byte `ackType`, the data field, and three bytes
that fill the structure up to a multiple of four.  The 27 other bits of the word and the last three bytes are not
set by the program.
-/

namespace FileTransfer
namespace Sample3

/-- `sizeof(UDPPACKET)`, as the length of a list -/
def udpPacketLength : Nat := 1032

/-- What lies in the bits and bytes of the structure that belong to no field. -/
structure Padding where
  /-- the bits above `seq`, of the first byte and of the other three -/
  high : Fin 8
  word : Byte × Byte × Byte
  tail : Byte × Byte × Byte

/-- The `char` of a packet type. -/
def AckType.code : AckType → Byte
  | .request => 0
  | .ack => 1
  | .nack => 2
  | .sack => 3
  | .handshake => 4
  | .unknown code => UInt8.ofNat code

/-- The packet type of a `char`. -/
def AckType.ofCode (c : Byte) : AckType :=
  if c = 0 then .request
  else if c = 1 then .ack
  else if c = 2 then .nack
  else if c = 3 then .sack
  else if c = 4 then .handshake
  else .unknown c.toNat

/-- The types that the program names. -/
def AckType.Known : AckType → Prop
  | .unknown _ => False
  | _ => True

theorem AckType.ofCode_code {t : AckType} (h : t.Known) : ofCode t.code = t := by
  cases t with
  | unknown code => exact h.elim
  | request | ack | nack | sack | handshake => rfl

theorem Payload.ofBytes_append (p : Payload) (l : List Byte) : ofBytes (p.bytes ++ l) = p := by
  have hlen := p.length_eq
  cases p with
  | mk bytes h =>
      have htake : (bytes ++ l ++ List.replicate bufferLength 0).take bufferLength = bytes := by
        rw [List.append_assoc]
        exact List.take_left' hlen
      simp only [ofBytes, htake]

namespace UdpPacket

/-- The structure in memory. -/
def bytes (pad : Padding) (p : UdpPacket) : List Byte :=
  [UInt8.ofNat (p.seq.val + 32 * pad.high.val), pad.word.1, pad.word.2.1, pad.word.2.2, p.ackType.code] ++
    (p.data.bytes ++ [pad.tail.1, pad.tail.2.1, pad.tail.2.2])

/-- The fields that are read off memory. -/
def ofBytes (l : List Byte) : UdpPacket where
  seq := ⟨(l.getD 0 0).toNat % 32, Nat.mod_lt _ (by decide)⟩
  ackType := .ofCode (l.getD 4 0)
  data := .ofBytes (l.drop 5)

theorem length_bytes (pad : Padding) (p : UdpPacket) : (p.bytes pad).length = udpPacketLength := by
  simp only [bytes, List.length_append, p.data.length_eq, List.length_cons, List.length_nil]
  rfl

/-- Whatever is in the padding, the fields are read back. -/
theorem ofBytes_bytes (pad : Padding) {p : UdpPacket} (h : p.ackType.Known) :
    ofBytes (p.bytes pad) = p := by
  have hseq : (UInt8.ofNat (p.seq.val + 32 * pad.high.val)).toNat % 32 = p.seq.val := by
    have := p.seq.isLt
    have := pad.high.isLt
    rw [UInt8.toNat_ofNat']
    omega
  have hbytes : (p.bytes pad).drop 5 =
      p.data.bytes ++ [pad.tail.1, pad.tail.2.1, pad.tail.2.2] := rfl
  have hdata : Payload.ofBytes ((p.bytes pad).drop 5) = p.data := by
    rw [hbytes, Payload.ofBytes_append]
  have hfirst : (ofBytes (p.bytes pad)).seq = p.seq := Fin.ext hseq
  have hcode : (ofBytes (p.bytes pad)).ackType = p.ackType := AckType.ofCode_code h
  have hfield : (ofBytes (p.bytes pad)).data = p.data := hdata
  cases p with
  | mk seq ackType data => exact (mk.injEq ..).mpr ⟨hfirst, hcode, hfield⟩

end UdpPacket

end Sample3
end FileTransfer
