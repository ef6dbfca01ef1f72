import FileTransfer.Sample3.ExactDelivery

/-!
# How many packets the two ends count

`send_file` reads until a read is short, `recv_file` until enough bytes have arrived.  For a file whose
length is a multiple of `BUFFER_LENGTH` the first one numbers a packet more, and the two ends disagree
about the next number from then on.
-/

namespace FileTransfer
namespace Sample3

section

variable {sender receiver : SockLib} {content : List Byte} {es : List (FifoEvent Act Oracle)}
  {n : Net (Endpoint Unit) Datagram}

/-- The number of packets `recv_file` accepts. -/
def packetsTaken (n : Nat) : Nat := (n + (bufferLength - 1)) / bufferLength

theorem packetsSent_eq_packetsTaken_iff (n : Nat) :
    packetsSent n = packetsTaken n ↔ ¬ bufferLength ∣ n := by
  have hb : bufferLength = 1024 := rfl
  unfold packetsSent packetsTaken
  rw [hb]
  omega

/-- Where an undisturbed run cannot go on, both ends have counted the packets of the whole file. -/
theorem counts_of_complete (hsize : 1 ≤ sender.wSize) (hempty : sender.winBufPos = 0)
    (hagree : Agree sender receiver)
    (hrun : Run (fifoStep (machine idleApp)) Undisturbed
      (fileStart sender receiver content content.length) es n) (hdone : Complete n) :
    (numberedData (n.node .client).log).length = packetsSent content.length ∧
      (handedData (n.node .server).log).length = packetsTaken content.length := by
  obtain ⟨⟨b, j, hexact⟩, -⟩ := exactAt_run hsize hempty hagree hrun
  obtain ⟨hidle, hsent⟩ := hexact.complete hdone
  have hb : bufferLength = 1024 := rfl
  have hlen := (hexact.receiver.done hidle).2
  have hneed := hexact.receiver.needed
  refine ⟨hsent, ?_⟩
  rw [hexact.receiver.handed]
  unfold packetsTaken
  rw [hb] at hlen hneed ⊢
  omega

/-- The numbers that the two ends hold where an undisturbed run cannot go on. -/
theorem seqs_of_complete (hsize : 1 ≤ sender.wSize) (hempty : sender.winBufPos = 0)
    (hagree : Agree sender receiver)
    (hstart : content ≠ [] ∨ sender.seq.toNat % 32 = (receiver.lastSeq.toNat + 1) % 32)
    (hrun : Run (fifoStep (machine idleApp)) Undisturbed
      (fileStart sender receiver content content.length) es n) (hdone : Complete n) :
    (n.node .client).lib.seq.toNat % 32 =
        (sender.seq.toNat + packetsSent content.length) % 32 ∧
      ((n.node .server).lib.lastSeq.toNat + 1) % 32 =
        (sender.seq.toNat + packetsTaken content.length) % 32 := by
  obtain ⟨⟨b, j, hexact⟩, -⟩ := exactAt_run hsize hempty hagree hrun
  obtain ⟨hsent, htaken⟩ := counts_of_complete hsize hempty hagree hrun hdone
  have hseq := hexact.base.seq_mod
  rw [hsent] at hseq
  refine ⟨hseq, ?_⟩
  rw [hexact.receiver.handed] at htaken
  rw [← htaken]
  by_cases h0 : b + j = 0
  · -- nothing has been taken, so the file is empty and the receiver's number is the first one
    have hnil : content = [] := by
      have hlen := (hexact.receiver.done (hexact.complete hdone).1).2
      rw [h0] at hlen
      exact List.eq_nil_of_length_eq_zero (by omega)
    rw [hexact.receiver.kept h0, h0]
    exact (hstart.resolve_left (not_not_intro hnil)).symm
  · exact hexact.receiver.number (hexact.receiver.used (by omega))

/-- An undisturbed run that cannot go on exists. -/
theorem exists_complete (hsize : 1 ≤ sender.wSize) (hempty : sender.winBufPos = 0)
    (hagree : Agree sender receiver) :
    ∃ es n, Run (fifoStep (machine idleApp)) Undisturbed
      (fileStart sender receiver content content.length) es n ∧ Complete n := by
  refine Run.exists_of_bounded (fun es n hrun => (exactAt_run hsize hempty hagree hrun).2) ?_
  intro es n _ hdone
  exact exists_step_of_not_complete hdone

end

/-- The two ends count the same packets, and agree about the next number, exactly when the length of the
file is no multiple of `BUFFER_LENGTH`: in every undisturbed run that cannot go on, of which there is one. -/
theorem counts_agree_iff (sender receiver : SockLib) (content : List Byte)
    (hsize : 1 ≤ sender.wSize) (hempty : sender.winBufPos = 0) (hagree : Agree sender receiver)
    (hstart : content ≠ [] ∨ sender.seq.toNat % 32 = (receiver.lastSeq.toNat + 1) % 32) :
    (∃ es n, Run (fifoStep (machine idleApp)) Undisturbed
        (fileStart sender receiver content content.length) es n ∧ Complete n) ∧
      ∀ es n, Run (fifoStep (machine idleApp)) Undisturbed
        (fileStart sender receiver content content.length) es n → Complete n →
        ((numberedData (n.node .client).log).length = (handedData (n.node .server).log).length ↔
            ¬ bufferLength ∣ content.length) ∧
          ((n.node .client).lib.seq.toNat % 32 = ((n.node .server).lib.lastSeq.toNat + 1) % 32 ↔
            ¬ bufferLength ∣ content.length) := by
  refine ⟨exists_complete hsize hempty hagree, ?_⟩
  intro es n hrun hdone
  obtain ⟨hsent, htaken⟩ := counts_of_complete hsize hempty hagree hrun hdone
  obtain ⟨hseq, hlast⟩ := seqs_of_complete hsize hempty hagree hstart hrun hdone
  have hiff := packetsSent_eq_packetsTaken_iff content.length
  rw [hsent, htaken, hseq, hlast]
  refine ⟨hiff, ?_⟩
  rw [← hiff]
  have hb : bufferLength = 1024 := rfl
  constructor
  · intro hmod
    unfold packetsSent packetsTaken at hmod ⊢
    rw [hb] at hmod ⊢
    omega
  · intro heq
    rw [heq]

theorem counts_agree_iff_short :
    ∃ es n, Run (fifoStep (machine idleApp)) Undisturbed
      (fileStart (SockLib.zero.udpInit 2) (SockLib.zero.udpInit 2) [7] ([7] : List Byte).length) es n ∧
        (numberedData (n.node .client).log).length = (handedData (n.node .server).log).length := by
  obtain ⟨⟨es, n, hrun, hdone⟩, hall⟩ := counts_agree_iff (SockLib.zero.udpInit 2)
    (SockLib.zero.udpInit 2) [7] (by decide) (by decide) (Or.inl rfl)
    (Or.inl (by decide))
  exact ⟨es, n, hrun, (hall es n hrun hdone).1.2 (by decide)⟩

/-- A full chunk, and the packet without data that `send_file` sends after it. -/
def fullChunkEvents : List (FifoEvent Act Oracle) :=
  [runs .client, runs .client, runs .server, arrives .server, runs .server, arrives .client]

theorem counts_differ :
    ∃ n, Run (fifoStep (machine idleApp)) Undisturbed (fileStart (SockLib.zero.udpInit 2)
        (SockLib.zero.udpInit 2) (List.replicate 1024 7) (List.replicate 1024 7 : List Byte).length)
        fullChunkEvents n ∧ Complete n ∧
      (numberedData (n.node .client).log).length ≠ (handedData (n.node .server).log).length ∧
      (n.node .client).lib.seq.toNat % 32 ≠ ((n.node .server).lib.lastSeq.toNat + 1) % 32 :=
  exists_run_of_exec (by decide +kernel)

end Sample3
end FileTransfer
