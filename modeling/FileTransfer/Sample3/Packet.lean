import FileTransfer.Lib.Bytes
import Mathlib.Algebra.GroupWithZero.Nat

/-!
# Packets of the sliding-window build (`common/protocol.h`)

The wire format of `sample-3`: the UDP packet with its five-bit sequence number, the packet types and
the handshake record that travels in the data field.
-/

namespace FileTransfer
namespace Sample3

/-- `BUFFER_LENGTH` -/
def bufferLength : Nat := 1024

/-- The content of a data field: exactly `BUFFER_LENGTH` bytes. -/
structure Payload where
  bytes : List Byte
  length_eq : bytes.length = bufferLength
  deriving DecidableEq

namespace Payload

/-- The data field after `memmove` from a buffer that holds `l` and then zeros. -/
def ofBytes (l : List Byte) : Payload where
  bytes := (l ++ List.replicate bufferLength 0).take bufferLength
  length_eq := by simp

theorem take_ofBytes {l : List Byte} {k : Nat} (hk : k ≤ l.length) (hb : k ≤ bufferLength) :
    (ofBytes l).bytes.take k = l.take k := by
  simp only [ofBytes, List.take_take, Nat.min_eq_left hb]
  exact List.take_append_of_le_length hk

theorem getD_ofBytes {l : List Byte} {i : Nat} (hi : i < l.length) (hb : i < bufferLength) :
    (ofBytes l).bytes.getD i 0 = l.getD i 0 := by
  simp only [ofBytes, List.getD_eq_getElem?_getD, List.getElem?_take_of_lt hb,
    List.getElem?_append_left hi]

end Payload

/-- A five-bit sequence number (`unsigned int seq:5`). -/
abbrev SeqNum := Fin 32

instance neZeroSeq : NeZero (32 : Nat) := ⟨by decide⟩

/-- What a five-bit field keeps of a word; also `x & SEQUENCE_NUM_MASK`. -/
def seqField (x : UInt32) : SeqNum := ⟨x.toNat % 32, Nat.mod_lt _ (by decide)⟩

@[simp] theorem seqField_val (x : UInt32) : (seqField x).val = x.toNat % 32 := rfl

theorem seqField_add_one (x : UInt32) : (seqField (x + 1)).val = (x.toNat + 1) % 32 := by
  simp only [seqField_val, UInt32.toNat_add, UInt32.toNat_one]
  omega

/-- A number stored in a word. -/
theorem toNat_ofNat_seq (n : SeqNum) : (UInt32.ofNat n.val).toNat = n.val := by
  have := n.isLt
  rw [UInt32.toNat_ofNat']
  omega

/-- The number before a number. -/
theorem seq_sub_one_succ (n : SeqNum) : ((n - 1 : SeqNum).val + 1) % 32 = n.val := by
  have := n.isLt
  rw [Fin.sub_def]
  simp only [Fin.val_one]
  omega

theorem ofNat_seq_ne (n : SeqNum) : UInt32.ofNat n.val ≠ -1 := by
  intro h
  have hval := toNat_ofNat_seq n
  have hall : (-1 : UInt32).toNat = 4294967295 := by decide
  have := n.isLt
  rw [h] at hval
  omega

/-- Packet types (`ACKTYPE_*`). -/
inductive AckType where
  | request
  | ack
  | nack
  | sack
  | handshake
  | unknown (code : Nat)
  deriving DecidableEq, Repr

/-- `UDPPACKET` -/
structure UdpPacket where
  seq : SeqNum
  ackType : AckType
  data : Payload
  deriving DecidableEq

/-- A packet after `memset(.., 0, ..)`. -/
def UdpPacket.zero : UdpPacket := ⟨0, .request, .ofBytes []⟩

/-- `HANDSHAKE`; the two `int` fields are kept as words. -/
structure Handshake where
  clientSeq : UInt32
  serverSeq : UInt32
  deriving DecidableEq

namespace Handshake

def toBytes (h : Handshake) : List Byte := leBytes h.clientSeq ++ leBytes h.serverSeq

/-- `memmove((void *)&tmp, &udp.data, sizeof(HANDSHAKE))` -/
def ofPayload (p : Payload) : Handshake where
  clientSeq := leWord p.bytes
  serverSeq := leWord (p.bytes.drop 4)

/-- The receiver of a data field that starts with a handshake record reads that record back. -/
theorem ofPayload_ofBytes (h : Handshake) (rest : List Byte) :
    ofPayload (.ofBytes (h.toBytes ++ rest)) = h := by
  have hword : ∀ {l m : List Byte}, (∀ i < 4, l.getD i 0 = m.getD i 0) → leWord l = leWord m := by
    intro l m hl
    simp only [leWord, hl 0 (by decide), hl 1 (by decide), hl 2 (by decide), hl 3 (by decide)]
  have hlen : (h.toBytes ++ rest).length = 8 + rest.length := by
    simp [toBytes]
    omega
  have hbuf : bufferLength = 1024 := rfl
  have hclient : leWord (Payload.ofBytes (h.toBytes ++ rest)).bytes = h.clientSeq := by
    rw [hword (m := leBytes h.clientSeq ++ (leBytes h.serverSeq ++ rest)),
      leWord_leBytes_append]
    intro i hi
    rw [Payload.getD_ofBytes (by omega) (by omega), toBytes, List.append_assoc]
  have hserver : leWord ((Payload.ofBytes (h.toBytes ++ rest)).bytes.drop 4) = h.serverSeq := by
    rw [hword (m := leBytes h.serverSeq ++ rest), leWord_leBytes_append]
    intro i hi
    have hdrop : ∀ l : List Byte, (l.drop 4).getD i 0 = l.getD (4 + i) 0 := by
      intro l
      simp [List.getD_eq_getElem?_getD, List.getElem?_drop]
    rw [hdrop, Payload.getD_ofBytes (by omega) (by omega), ← hdrop, toBytes, List.append_assoc,
      List.drop_left' (length_leBytes _)]
  simp only [ofPayload, hclient, hserver]

end Handshake

/-- The places of the program that pass a packet to `lib_sendto`. -/
inductive Site where
  /-- a slot of the window: `send_all_win_packets` and `udp_sendtoEx` -/
  | window
  /-- `send_special_request` -/
  | specialRequest
  /-- `send_ack` -/
  | sendAck
  /-- the client's handshake request, through `udp_sendto` -/
  | handshakeRequest
  /-- the answer to a handshake request, in `sock_recvfrom` -/
  | handshakeResponse
  deriving DecidableEq, Repr

/-- A packet on the wire.  `site` records where it was sent; it is history for the statements below,
and no function of the program reads it. -/
structure Datagram where
  pkt : UdpPacket
  site : Site
  deriving DecidableEq

/-- Handshake requests and handshake responses. -/
def Datagram.isHandshake (d : Datagram) : Bool :=
  d.site = .handshakeRequest || d.site = .handshakeResponse

end Sample3
end FileTransfer
