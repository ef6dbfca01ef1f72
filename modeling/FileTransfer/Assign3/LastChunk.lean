import FileTransfer.Assign3.Programs
import FileTransfer.Assign3.PairTransfer
import FileTransfer.Lib.Solo

/-!
# The final chunk of a file

`udplastsend` with `sendflag = n` puts the first `n` bytes of its packet on the wire, and the number of the
packet is among them; only the first datagram of the client is whole.  `chunk_survives_iff` says of every run
of a call when all its datagrams carry the chunk.
-/

namespace FileTransfer
namespace Assign3

open Udp

/-- How many bytes `strcpy` writes to `sendmsg.data`, with the terminator. -/
def strcpyLength (m : Message) : Nat := min (cstr m.sbuffer.bytes).length m.sendflag + 1

/-- The datagram has the number and all bytes of the message. -/
def Carries (m : Message) (seqNo : Int) (d : Datagram) : Prop :=
  4 + m.payload.length ≤ d.len ∧ d.pkt.seqNo = seqNo ∧ m.IsIn d.pkt

/-- What a receiving loop with `n` bytes to go writes when `udplastrecv` returns this datagram.  `old` is
the packet that `udplastrecv` clears before it reads. -/
def writtenChunk (n : Nat) (old : Udppacket) (d : Datagram) : List Byte :=
  ((⟨[], n⟩ : FileReceiving).next
    (.udplastrecv (recvfrom (old.clear bufferLength) sizeofUdppacket d).1)).1

/-- The call of `udplastsend` has not returned. -/
def InLastSend {π : Type*} (t : Solo (Endpoint π) Datagram) (_ : SoloEvent Act Junk Datagram) : Prop :=
  t.node.ctl ≠ .idle

/-- All that was sent for the chunk carries it, and the copy into the packet keeps to its field. -/
structure ChunkSurvives (m : Message) (seqNo : Int) (sent : List Datagram) : Prop where
  carries : ∀ d ∈ sent, Carries m seqNo d
  inside : strcpyLength m ≤ bufferLength
  written : ∀ d ∈ sent, ∀ old, writtenChunk m.sendflag old d = m.payload

/-- A call of `udplastsend` has sent its packet for the first time. -/
def lastSendStart {π : Type*} (e : Endpoint π) (m : Message) : Solo (Endpoint π) Datagram where
  node := (e.beginUdplastsend m).1
  sent := (e.beginUdplastsend m).2

section

variable {m : Message} {d : Datagram}

theorem length_payload (hflag : 1 ≤ m.sendflag) : m.payload.length = m.sendflag := by
  have hlen := m.sbuffer.length_eq
  have hle := m.flag_le
  rw [Message.payload, if_neg (by omega), List.length_take, hlen]
  exact Nat.min_eq_left hle

/-- The terminator of a chunk of `BUFFER_LENGTH` bytes without a zero is written behind the field. -/
theorem strcpyLength_le_iff (hflag : 1 ≤ m.sendflag) :
    strcpyLength m ≤ bufferLength ↔ m.sendflag < bufferLength ∨ 0 ∈ m.payload := by
  have hlen := m.sbuffer.length_eq
  have hle := m.flag_le
  by_cases hshort : m.sendflag < bufferLength
  · refine iff_of_true ?_ (Or.inl hshort)
    exact Nat.le_trans (Nat.succ_le_succ (Nat.min_le_right _ _)) hshort
  · have hfull : m.sendflag = bufferLength := Nat.le_antisymm hle (Nat.le_of_not_lt hshort)
    have hpayload : m.payload = m.sbuffer.bytes := by
      rw [Message.payload, if_neg (by omega), List.take_of_length_le (by omega)]
    have hcstr : (cstr m.sbuffer.bytes).length ≤ bufferLength :=
      hlen ▸ List.Sublist.length_le (List.takeWhile_sublist _)
    rw [hpayload, zero_mem_iff, hlen, strcpyLength, hfull]
    omega

/-- The message with which a sending loop passes the last bytes of a file. -/
theorem call_final {x : FileSending} (hpos : 1 ≤ x.sizeleft) (hle : x.sizeleft ≤ bufferLength)
    (hrest : x.sizeleft ≤ x.rest.length) :
    ∃ m, x.call = .udplastsend m ∧ (m.sendflag : Int) = x.sizeleft ∧
      m.payload = x.rest.take m.sendflag := by
  have hmin : min x.sizeleft.toNat bufferLength = x.sizeleft.toNat := by omega
  refine ⟨⟨x.fread, min x.sizeleft.toNat bufferLength, Nat.min_le_right _ _⟩, ?_, ?_, ?_⟩
  · rw [FileSending.call, if_neg (by omega)]
  · simp only [hmin]
    omega
  · have htake : (x.rest.take x.sizeleft.toNat).length = x.sizeleft.toNat :=
      List.length_take_of_le (by omega)
    simp only [Message.payload, hmin]
    rw [if_neg (by omega), FileSending.fread, if_neg (by omega),
      Buffer.take_overlay _ htake.ge (by omega), List.take_take, Nat.min_self]

/-- A datagram of the packet that `udplastsend` fills carries the chunk when it is long enough. -/
theorem carries_iff (hflag : 1 ≤ m.sendflag) (seqNo : Int) (len : Nat) (o : Origin) :
    Carries m seqNo ⟨⟨seqNo, m.data⟩, len, o⟩ ↔ 4 + m.sendflag ≤ len := by
  simp only [Carries, length_payload hflag, m.isIn_data seqNo, and_true]

/-- From a whole packet the receiver writes the chunk. -/
theorem writtenChunk_whole (hflag : 1 ≤ m.sendflag) (seqNo : Int) (o : Origin) (old : Udppacket) :
    writtenChunk m.sendflag old ⟨⟨seqNo, m.data⟩, sizeofUdppacket, o⟩ = m.payload := by
  have hchunk := m.isIn_data seqNo
  rw [Message.IsIn, length_payload hflag] at hchunk
  rw [writtenChunk, recvfrom_full _ rfl]
  exact hchunk

end

section

variable {π : Type*} {A : App π} {e : Endpoint π} {m : Message}
  {es : List (SoloEvent Act Junk Datagram)} {t u : Solo (Endpoint π) Datagram}

/-- Behind the first loop `udplastsend` sends nothing. -/
theorem sent_of_drain (hdrain : t.node.ctl = .udplastsendDrain)
    (hrun : Run (soloStep (machine A)) InLastSend t es u) : u.sent = t.sent := by
  have hinv : u.sent = t.sent ∧ (u.node.ctl = .udplastsendDrain ∨ u.node.ctl = .idle) := by
    induction hrun with
    | nil => exact ⟨rfl, Or.inl hdrain⟩
    | @snoc _ ev u v _ hcall hst ih =>
        obtain ⟨hsent, hctl | hidle⟩ := ih
        · obtain ⟨p, hp, rfl⟩ := soloStep_eq_some.1 hst
          cases ev with
          | act i =>
              cases i <;> simp [Machine.step, machine, Endpoint.nextCall, Endpoint.timeout, hctl] at hp
              subst hp
              exact ⟨by simp [hsent], Or.inr rfl⟩
          | recv j d =>
              simp [Machine.step, machine, Endpoint.packet, hctl] at hp
              subst hp
              exact ⟨by simp [hsent], Or.inr rfl⟩
        · exact absurd hidle hcall
  exact hinv.1

/-- A timeout in the first wait sends the first `sendflag` bytes of the packet. -/
theorem resent_of_timeout (hrun : Run (soloStep (machine A)) InLastSend (lastSendStart e m)
      (.act .timeout :: es) t) : (e.beginUdplastsend m).1.lastAgain m ∈ t.sent := by
  obtain ⟨t₁, -, hst, hrest⟩ := Run.cons_iff.1 hrun
  obtain ⟨p, hp, rfl⟩ := soloStep_eq_some.1 hst
  have hresend : (e.beginUdplastsend m).1.resendLast m 0 = p := by
    simpa [Machine.step, machine, Endpoint.timeout, lastSendStart, Endpoint.beginUdplastsend] using hp
  refine hrest.sent_prefix.subset (List.mem_append_right _ ?_)
  rw [← hresend]
  exact List.mem_singleton.2 rfl

/-- Without one the first datagram is the only one. -/
theorem sent_once (hrun : Run (soloStep (machine A)) InLastSend (lastSendStart e m) es t)
    (hfirst : es.head? ≠ some (.act .timeout)) :
    t.sent = [(e.beginUdplastsend m).1.lastFirst m] := by
  cases es with
  | nil =>
      have hnil : Run (soloStep (machine A)) InLastSend (lastSendStart e m) [] (lastSendStart e m) :=
        .nil
      rw [hrun.unique hnil]
      rfl
  | cons ev es =>
      obtain ⟨t₁, -, hst, hrest⟩ := Run.cons_iff.1 hrun
      obtain ⟨p, hp, rfl⟩ := soloStep_eq_some.1 hst
      cases ev with
      | act i =>
          cases i with
          | run =>
              simp [Machine.step, machine, Endpoint.nextCall, lastSendStart,
                Endpoint.beginUdplastsend] at hp
          | timeout => exact absurd rfl hfirst
      | recv j d =>
          have hread : ((e.beginUdplastsend m).1.recvInLastWait d, []) = p := by
            simpa [Machine.step, machine, Endpoint.packet, lastSendStart,
              Endpoint.beginUdplastsend] using hp
          rw [sent_of_drain (by rw [← hread]; rfl) hrest, ← hread]
          rfl

/-- All that a call of `udplastsend` sends for a chunk carries it exactly when the client sends it, the
first wait does not time out, and the chunk leaves room for its terminator or contains one. -/
theorem chunk_survives_iff (hflag : 1 ≤ m.sendflag)
    (hrun : Run (soloStep (machine A)) InLastSend (lastSendStart e m) es t) :
    ChunkSurvives m e.mem.sendSeq t.sent ↔
      e.side = .client ∧ es.head? ≠ some (.act .timeout) ∧
        (m.sendflag < bufferLength ∨ 0 ∈ m.payload) := by
  have hne : m.sendflag ≠ 0 := by omega
  have hfirst : (e.beginUdplastsend m).1.lastFirst m ∈ t.sent :=
    hrun.sent_prefix.subset (List.mem_singleton.2 rfl)
  constructor
  · intro hsurvives
    refine ⟨?_, ?_, (strcpyLength_le_iff hflag).1 hsurvives.inside⟩
    · cases hside : e.side with
      | client => rfl
      | server =>
          -- the server counts the number of the packet among the bytes of the chunk
          have hcarries := hsurvives.carries _ hfirst
          have hshort : (e.beginUdplastsend m).1.lastFirst m =
              ⟨⟨e.mem.sendSeq, m.data⟩, m.sendflag, .message m⟩ := by
            simp [Endpoint.lastFirst, Endpoint.beginUdplastsend, hside, Members.fillLast, hne]
          rw [hshort, carries_iff hflag] at hcarries
          omega
    · intro htimeout
      obtain ⟨es, rfl⟩ := List.head?_eq_some_iff.1 htimeout
      have hcarries := hsurvives.carries _ (resent_of_timeout hrun)
      have hshort : (e.beginUdplastsend m).1.lastAgain m =
          ⟨⟨e.mem.sendSeq, m.data⟩, m.sendflag, .message m⟩ := by
        simp [Endpoint.lastAgain, Endpoint.beginUdplastsend, Members.fillLast, hne]
      rw [hshort, carries_iff hflag] at hcarries
      omega
  · rintro ⟨hside, hquiet, hroom⟩
    have hwhole : (e.beginUdplastsend m).1.lastFirst m =
        ⟨⟨e.mem.sendSeq, m.data⟩, sizeofUdppacket, .message m⟩ := by
      simp [Endpoint.lastFirst, Endpoint.beginUdplastsend, hside, Members.fillLast]
    have hsent := sent_once hrun hquiet
    rw [hwhole] at hsent
    have hle := m.flag_le
    refine ⟨?_, (strcpyLength_le_iff hflag).2 hroom, ?_⟩ <;> intro d hd <;>
      rw [hsent, List.mem_singleton] at hd <;> subst hd
    · rw [carries_iff hflag]
      have hsize : sizeofUdppacket = 4 + bufferLength := rfl
      omega
    · exact writtenChunk_whole hflag _ _

end

/-- A file of three bytes that is about to be sent. -/
def threeBytes : FileSending := ⟨[1, 2, 3], 3, .ofBytes []⟩

/-- Its final chunk, as both programs pass it to `udplastsend`. -/
def threeBytesMessage : Message := ⟨threeBytes.fread, 3, by decide⟩

def sendingThreeBytes : Side → Endpoint Program
  | .client => ⟨.client, zeroMembers, .idle, .client ⟨[], .sending threeBytes, [], [], []⟩, .empty⟩
  | .server => ⟨.server, zeroMembers, .idle, .server ⟨.sending threeBytes, [], []⟩, .empty⟩

/-- The client's chunk is acknowledged before it is sent again. -/
theorem chunk_survives_client : ∃ t, Run (soloStep (machine ftpApp)) InLastSend
      (lastSendStart (sendingThreeBytes .client) threeBytesMessage)
      [.recv ⟨[], []⟩ (.whole zeroPacket (.ack 0))] t ∧
    ChunkSurvives threeBytesMessage 0 t.sent := by
  have hcall : InLastSend (lastSendStart (sendingThreeBytes .client) threeBytesMessage)
      (.recv ⟨[], []⟩ (.whole zeroPacket (.ack 0))) := by
    simp [InLastSend, lastSendStart, Endpoint.beginUdplastsend]
  have hrun : Run (soloStep (machine ftpApp)) InLastSend
      (lastSendStart (sendingThreeBytes .client) threeBytesMessage)
      [.recv ⟨[], []⟩ (.whole zeroPacket (.ack 0))] _ := Run.cons hcall rfl .nil
  exact ⟨_, hrun, (chunk_survives_iff (by decide) hrun).2 ⟨rfl, by simp, Or.inl (by decide)⟩⟩

/-- The server's chunk goes out as three bytes of the number. -/
theorem chunk_cut : ¬ ChunkSurvives threeBytesMessage 0
    (lastSendStart (sendingThreeBytes .server) threeBytesMessage).sent := by
  intro hsurvives
  have hlen := (hsurvives.carries _ (List.mem_singleton.2 rfl)).1
  revert hlen
  decide

end Assign3
end FileTransfer
