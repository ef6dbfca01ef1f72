import FileTransfer.Lib.CString

/-!
# Packets of the stop-and-wait builds

`build 2` and `build3/Assign3_zcl` exchange one structure, `Udppacket`: a number and 260 bytes.  They
always read a whole packet, but they do not always send one: a message that is sent with a length
(`sendflag`) goes out as that many bytes of the structure, its number included.  What `recvfrom` then
leaves in the receiver's packet is the received bytes laid over the bytes that were there.
-/

namespace FileTransfer
namespace Udp

/-- `BUFFER_LENGTH` -/
def bufferLength : Nat := 260

/-- `PACKET_LENGTH`, the half of a buffer -/
def packetLength : Nat := 130

/-- `sizeof(Udppacket)` -/
def sizeofUdppacket : Nat := 264

/-- The characters of a literal. -/
def ascii (s : String) : List Byte := s.toList.map fun c => UInt8.ofNat c.toNat

/-! ## Buffers -/

/-- A character array of `BUFFER_LENGTH` bytes. -/
structure Buffer where
  bytes : List Byte
  length_eq : bytes.length = bufferLength
  deriving DecidableEq

namespace Buffer

/-- The array that starts with `l`, and then holds zeros. -/
def ofBytes (l : List Byte) : Buffer where
  bytes := (l ++ List.replicate bufferLength 0).take bufferLength
  length_eq := by simp

/-- The array after `l` was written to its start. -/
def overlay (b : Buffer) (l : List Byte) : Buffer where
  bytes := (l ++ b.bytes.drop l.length).take bufferLength
  length_eq := by
    have := b.length_eq
    simp only [List.length_take, List.length_append, List.length_drop]
    omega

theorem ofBytes_bytes (b : Buffer) : ofBytes b.bytes = b := by
  have hlen := b.length_eq
  cases b with
  | mk bytes h =>
      have htake : (bytes ++ List.replicate bufferLength 0).take bytes.length = bytes :=
        List.take_left
      simp only [ofBytes, mk.injEq]
      exact h ▸ htake

/-- `memset(b, 0, n)` -/
def clear (b : Buffer) (n : Nat) : Buffer := b.overlay (List.replicate n 0)

@[ext] theorem ext {b c : Buffer} (h : b.bytes = c.bytes) : b = c := by
  cases b
  cases c
  cases h
  rfl

theorem take_overlay (b : Buffer) {l : List Byte} {n : Nat} (hl : n ≤ l.length)
    (hn : n ≤ bufferLength) : (b.overlay l).bytes.take n = l.take n := by
  rw [overlay, List.take_take, Nat.min_eq_left hn, List.take_append_of_le_length hl]

/-- An array that is written whole. -/
theorem overlay_whole (b c : Buffer) : b.overlay c.bytes = c := by
  have hb := b.length_eq
  have hc := c.length_eq
  apply Buffer.ext
  simp only [overlay, hc, ← hb, List.drop_length, List.append_nil]
  rw [hb, ← hc, List.take_length]

end Buffer

/-! ## Packets -/

/-- `Udppacket` -/
structure Udppacket where
  seqNo : Int
  data : Buffer
  deriving DecidableEq

/-- The `int` in four bytes. -/
def intOfBytes (l : List Byte) : Int := (leWord l).toInt32.toInt

/-- The four bytes of an `int`. -/
def bytesOfInt (x : Int) : List Byte := leBytes (UInt32.ofInt x)

namespace Udppacket

/-- The packet `r` after the first `n` bytes of `p` were written over it. -/
def overlay (r p : Udppacket) (n : Nat) : Udppacket where
  seqNo :=
    if 4 ≤ n then p.seqNo
    else intOfBytes ((bytesOfInt p.seqNo).take n ++ (bytesOfInt r.seqNo).drop n)
  data := r.data.overlay (p.data.bytes.take (n - 4))

/-- `memset(r.data, 0, n)` -/
def clear (r : Udppacket) (n : Nat) : Udppacket := { r with data := r.data.clear n }

theorem overlay_seqNo (r p : Udppacket) {n : Nat} (h : 4 ≤ n) : (r.overlay p n).seqNo = p.seqNo :=
  if_pos h

/-- A packet that is written whole. -/
theorem overlay_whole (r p : Udppacket) : r.overlay p sizeofUdppacket = p := by
  have hdata : p.data.bytes.take (sizeofUdppacket - 4) = p.data.bytes := by
    apply List.take_of_length_le
    exact Nat.le_of_eq p.data.length_eq
  have hseq := overlay_seqNo r p (n := sizeofUdppacket) (by decide)
  cases p
  simp only [overlay, hdata, Buffer.overlay_whole] at hseq ⊢
  rw [hseq]

end Udppacket

/-! ## Messages -/

/-- What a program passes to a sending function: the bytes behind `sbuffer`, and the number of them
that count (`sendflag`, `0` for all). -/
structure Message where
  sbuffer : Buffer
  sendflag : Nat
  flag_le : sendflag ≤ bufferLength
  deriving DecidableEq

namespace Message

/-- The message of a call without a length. -/
def whole (b : Buffer) : Message := ⟨b, 0, Nat.zero_le _⟩

/-- The data field the message is sent in.  With a length the string in `sbuffer` is copied over the
bytes once more, with its terminator behind the last character that counts. -/
def data (m : Message) : Buffer :=
  if m.sendflag = 0 then m.sbuffer
  else m.sbuffer.overlay (((cstr m.sbuffer.bytes).take m.sendflag) ++ [0])

theorem data_whole (b : Buffer) : (whole b).data = b := if_pos rfl

/-- The bytes of the message that count. -/
def payload (m : Message) : List Byte :=
  if m.sendflag = 0 then m.sbuffer.bytes else m.sbuffer.bytes.take m.sendflag

/-- The packet has the message's bytes. -/
def IsIn (m : Message) (p : Udppacket) : Prop :=
  p.data.bytes.take m.payload.length = m.payload

instance (m : Message) (p : Udppacket) : Decidable (m.IsIn p) :=
  inferInstanceAs (Decidable (_ = _))

/-- The packet that a sending function fills has the message. -/
theorem isIn_data (m : Message) (n : Int) : m.IsIn ⟨n, m.data⟩ := by
  have hlen := m.sbuffer.length_eq
  have hflag := m.flag_le
  by_cases h : m.sendflag = 0
  · simp only [IsIn, payload, data, if_pos h, List.take_length]
  · simp only [IsIn, payload, data, if_neg h, List.length_take, hlen, Nat.min_eq_left hflag]
    by_cases hstr : m.sendflag ≤ (cstr m.sbuffer.bytes).length
    · -- the terminator comes behind the bytes that count
      have htake : (cstr m.sbuffer.bytes).take m.sendflag = m.sbuffer.bytes.take m.sendflag :=
        take_cstr hstr
      rw [Buffer.take_overlay _ _ hflag]
      · rw [List.take_append_of_le_length (by simp [hstr]), List.take_take, Nat.min_self, htake]
      · simp [hstr]
    · -- the string ends earlier, and is written over itself
      have hshort : (cstr m.sbuffer.bytes).length < m.sbuffer.bytes.length := by omega
      have hsame := cstr_append_zero_drop hshort
      rw [List.take_of_length_le (Nat.le_of_not_le hstr), Buffer.overlay]
      simp only [List.append_assoc, List.singleton_append, List.length_append, List.length_singleton,
        hsame]
      rw [List.take_take, Nat.min_eq_left hflag]

end Message

/-! ## Datagrams -/

/-- The places of the programs that send a datagram. -/
inductive Origin where
  /-- a copy of a message: `udpsend` of `build 2`, `udplastsend` -/
  | message (m : Message)
  /-- the acknowledgement of the number `n`: `udprecv` of `build 2`, `udplastrecv` -/
  | ack (n : Int)
  /-- half of a chunk: `udpsend` of `Assign3_zcl` -/
  | pair
  /-- the acknowledgement of a half: `udprecv` of `Assign3_zcl` -/
  | pairAck
  /-- a half is refused: `udprecv` of `Assign3_zcl` -/
  | pairNak
  deriving DecidableEq

/-- The first `len` bytes of a packet on the wire.  `origin` is history for the statements below, and
no function of the programs reads it. -/
structure Datagram where
  pkt : Udppacket
  len : Nat
  origin : Origin
  deriving DecidableEq

/-- A datagram with the whole packet. -/
def Datagram.whole (p : Udppacket) (o : Origin) : Datagram := ⟨p, sizeofUdppacket, o⟩

/-- The length of a datagram that one of the programs sent. -/
def Sane (d : Datagram) : Prop := 0 < d.len ∧ d.len ≤ sizeofUdppacket

theorem sane_message (m : Message) (pkt : Udppacket) :
    Sane ⟨pkt, if m.sendflag = 0 then sizeofUdppacket else m.sendflag, .message m⟩ := by
  have hflag := m.flag_le
  unfold Sane
  by_cases h : m.sendflag = 0
  · simp only [if_pos h]
    decide
  · simp only [if_neg h]
    exact ⟨Nat.pos_of_ne_zero h, Nat.le_trans hflag (by decide)⟩

theorem sane_whole (pkt : Udppacket) (o : Origin) : Sane (.whole pkt o) :=
  ⟨Nat.succ_pos _, Nat.le_refl _⟩

/-- `recvfrom` into the packet `r`, at most `cap` bytes of it: what the packet holds then, and what
the call returns.  A datagram that does not fit is cut, and the call fails. -/
def recvfrom (r : Udppacket) (cap : Nat) (d : Datagram) : Udppacket × Int :=
  (r.overlay d.pkt (min d.len cap), if d.len ≤ cap then d.len else -1)

/-- A whole packet replaces the old one. -/
theorem recvfrom_full (r : Udppacket) {d : Datagram} (h : d.len = sizeofUdppacket) :
    recvfrom r sizeofUdppacket d = (d.pkt, (sizeofUdppacket : Int)) := by
  simp only [recvfrom, h, Nat.min_self, Udppacket.overlay_whole, Nat.le_refl, if_true]

/-- A datagram that was sent is read with a positive length. -/
theorem recvfrom_pos (r : Udppacket) {d : Datagram} (h : Sane d) :
    0 < (recvfrom r sizeofUdppacket d).2 := by
  simp only [recvfrom, if_pos h.2]
  exact Int.natCast_pos.2 h.1

/-- The text of an acknowledgement in a data field.  The copy reads past the end of the string:
`junk` lies behind it. -/
def ackData (who : String) (n : Int) (junk : List Byte) : List Byte :=
  ascii who ++ ascii (toString n) ++ 0 :: junk

end Udp
end FileTransfer
