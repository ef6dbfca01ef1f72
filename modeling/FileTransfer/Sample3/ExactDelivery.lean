import FileTransfer.Sample3.FilePhase
import FileTransfer.Sample3.Reliable

/-!
# Exact delivery over an undisturbed network

When nothing is lost and no wait ends without a datagram, `send_file` sends one window after the other
and every packet of a window is acknowledged before the next one is sent.  `ExactAt` counts: `b` packets
have been confirmed, `j` packets of the window have been accepted and their acknowledgements are on the
way back.  Every step of an undisturbed run lowers `workLeft`, and such a run that cannot go on has delivered
the file; see `exact_delivery`.
-/

namespace FileTransfer
namespace Sample3

/-- Nothing is lost, every `lib_sendto` succeeds, and `lib_recvfrom` returns with a datagram only. -/
def Undisturbed (n : Net (Endpoint Unit) Datagram) : FifoEvent Act Oracle → Prop
  | .act t (.run o) => SendsOk (n.node t) o
  | .deliver t o => SendsOk (n.node t) o
  | _ => False

instance (n : Net (Endpoint Unit) Datagram) : DecidablePred (Undisturbed n)
  | .act t (.run o) => inferInstanceAs (Decidable (SendsOk (n.node t) o))
  | .deliver t o => inferInstanceAs (Decidable (SendsOk (n.node t) o))
  | .act _ (.timeout _) | .act _ .error | .lose _ _ => inferInstanceAs (Decidable False)

/-- Neither endpoint can run, and neither can take a datagram in. -/
def Complete (n : Net (Endpoint Unit) Datagram) : Prop :=
  ∀ t, (fifoStep (machine idleApp) n (runs t)).isNone ∧
    (fifoStep (machine idleApp) n (arrives t)).isNone

instance (n : Net (Endpoint Unit) Datagram) : Decidable (Complete n) :=
  inferInstanceAs (Decidable (∀ t, (fifoStep (machine idleApp) n (runs t)).isNone = true ∧
    (fifoStep (machine idleApp) n (arrives t)).isNone = true))

/-- A packet of the window on the wire. -/
def windowDatagram (udp : UdpPacket) : Datagram := ⟨udp, .window⟩

/-- The acknowledgement of a packet. -/
def ackOf (udp : UdpPacket) : Datagram :=
  ⟨{ UdpPacket.zero with seq := udp.seq, ackType := .ack }, .sendAck⟩

theorem ackPacket_eq_ackOf {x : UInt32} {udp : UdpPacket} (h : seqField x = udp.seq) :
    SockLib.ackPacket x .ack = ackOf udp := by
  rw [ackOf, ← h]
  rfl

/-! ## The sender -/

/-- What is on the way while the sender stands at `e.ctl`: `out` to the receiver and `back` to the
sender, after the receiver has accepted the first `j` packets of the window. -/
def SenderPhase (content : List Byte) (e : Endpoint Unit) (out back : List Datagram) (j : Nat) :
    Prop :=
  match e.ctl with
  | .sendFile _ _ => e.lib.winBufPos < e.lib.wSize ∧ j = 0 ∧ out = [] ∧ back = []
  | .sendFileLast => e.lib.winBufPos < e.lib.wSize ∧ j = 0 ∧ out = [] ∧ back = []
  | .udpSendtoEx l k => (0 < l.retryCnt ∧ ∀ i, l.arrACK i = false) ∧
      ((0 < e.lib.winBufPos ∧ j ≤ e.lib.winBufPos ∧
          out = (e.lib.window.drop j).map windowDatagram ∧
          back = (e.lib.window.take j).map ackOf) ∨
        (e.lib.winBufPos = 0 ∧ j = 0 ∧ back = [] ∧ k = .sendFileLast))
  | .idle => e.lib.winBufPos = 0 ∧ j = 0 ∧ back = [] ∧
      (numberedData e.log).length = packetsSent content.length
  | _ => False

/-- The sender's packets that are in the window but have not been sent. -/
def unsent (e : Endpoint Unit) : Nat :=
  match e.ctl with
  | .sendFile _ _ => e.lib.winBufPos
  | .sendFileLast => e.lib.winBufPos
  | _ => 0

def senderRank : Control → Nat
  | .sendFile _ _ => 8
  | .udpSendtoEx _ (.sendFileCopy _ _) => 8
  | .sendFileLast => 6
  | _ => 0

theorem senderRank_udpSendtoEx (l l' : SendtoEx) (k : SendCaller) :
    senderRank (.udpSendtoEx l k) = senderRank (.udpSendtoEx l' k) := by
  cases k <;> rfl

/-- What is left to do for the sender, and for the packets it has sent. -/
def senderWork (content : List Byte) (e : Endpoint Unit) (out : List Datagram) : Nat :=
  9 * (packetsSent content.length - (numberedData e.log).length) + 6 * unsent e + 5 * out.length +
    senderRank e.ctl

section

variable {content : List Byte} {w start b j : Nat} {e : Endpoint Unit} {o : Oracle}
  {out back : List Datagram} {p : Endpoint Unit × List Datagram} {d : Datagram}

@[simp] theorem SockLib.length_window (s : SockLib) : s.window.length = s.winBufPos := by
  simp [SockLib.window]

/-- A pass of the read loop. -/
theorem readAndCopy_ok {rest : List Byte} (hlt : e.lib.winBufPos < e.lib.wSize) (hok : SendsOk e o) :
    let buf := Payload.ofBytes (rest.take bufferLength)
    let s' := (e.lib.copy2Winbuf buf).1
    let eof : Bool := rest.length < bufferLength
    let e' : Endpoint Unit :=
      { e with lib := s', log := e.log ++ [.numbered (e.lib.addUdpheader buf).2] }
    e.readAndCopy idleApp o rest false =
      if s'.winBufPos = s'.wSize then
        ({ e' with ctl := .udpSendtoEx s'.freshLocals (.sendFileCopy (rest.drop bufferLength) eof) },
          s'.window.map windowDatagram)
      else ({ e' with ctl := .sendFile (rest.drop bufferLength) eof }, []) := by
  intro buf s' eof e'
  have hpos : s'.winBufPos = e.lib.winBufPos + 1 := by
    simp only [s', SockLib.copy2Winbuf_of_lt hlt]
  simp only [Endpoint.readAndCopy, Bool.false_eq_true, if_false, Endpoint.copyAndSend, hlt, if_true,
    SockLib.copy2Winbuf_snd, beq_iff_eq]
  split
  · have hsend : s'.sendAllWinPackets o = (s'.window.map windowDatagram, .waits s'.freshLocals) :=
      sendAllWinPackets_window (by omega) fun i hi => hok i (by omega)
    simp only [Endpoint.enterSend, s'] at hsend ⊢
    rw [hsend]
    rfl
  · rfl

/-- The sender runs. -/
theorem SenderPhase.run (hbase : SendBase w start (numberedData e.log) b e.lib)
    (hfile : SenderFile content e) (h : SenderPhase content e out back j) (hok : SendsOk e o)
    (hrun : e.run idleApp o = some p) :
    SendBase w start (numberedData p.1.log) b p.1.lib ∧ SenderFile content p.1 ∧
      SenderPhase content p.1 (out ++ p.2) back j ∧
      senderWork content p.1 (out ++ p.2) < senderWork content e out := by
  have hcount := hfile.ctl
  rcases hfile.ctl.cases with hc | ⟨rest, eof, hc⟩ | ⟨hc, hlast⟩ | ⟨l, k, hc, -⟩
  · simp [Endpoint.run, Endpoint.nextCall, hc, idleApp] at hrun
  · simp only [Endpoint.run, hc, Option.some.injEq] at hrun
    simp only [SenderPhase, hc] at h
    obtain ⟨hlt, rfl, rfl, rfl⟩ := h
    -- the loop goes on with a free slot in the window
    have hfile' := hfile.read (o := o) hc fun _ => hlt
    subst hrun
    cases eof with
    | true =>
        refine ⟨hbase, hfile', ?_, ?_⟩
        · simp [Endpoint.readAndCopy, SenderPhase, hlt]
        · simp [Endpoint.readAndCopy, senderWork, unsent, senderRank, hc]
    | false =>
        -- another chunk is numbered
        have hmore : (numberedData e.log).length < packetsSent content.length := by
          rw [hc] at hcount
          obtain ⟨-, hle⟩ := hcount
          have hb : bufferLength = 1024 := rfl
          unfold packetsSent
          rw [hb] at hle ⊢
          omega
        have hcopy := hbase.copy hlt (.ofBytes (rest.take bufferLength))
        have hpos : (e.lib.copy2Winbuf (.ofBytes (rest.take bufferLength))).1.winBufPos =
            e.lib.winBufPos + 1 := by
          rw [SockLib.copy2Winbuf_of_lt hlt]
        have hle := hcopy.pos_le
        have hsize := hcopy.wSize_eq
        rw [readAndCopy_ok hlt hok] at hfile' ⊢
        dsimp only at hfile' ⊢
        split at hfile' <;> rename_i hfull
        · -- the chunk took the last slot, so the window is sent
          rw [if_pos hfull]
          refine ⟨by simpa [SockLib.addUdpheader] using hcopy, hfile', ?_, ?_⟩
          · refine ⟨⟨Nat.succ_pos 999, fun _ => rfl⟩, Or.inl ⟨?_, Nat.zero_le _, rfl, rfl⟩⟩
            dsimp only
            omega
          · simp [senderWork, unsent, senderRank, hc, SockLib.addUdpheader]
            omega
        · rw [if_neg hfull]
          refine ⟨by simpa [SockLib.addUdpheader] using hcopy, hfile', ?_, ?_⟩
          · refine ⟨?_, rfl, rfl, rfl⟩
            dsimp only
            omega
          · simp [senderWork, unsent, senderRank, hc, SockLib.addUdpheader]
            omega
  · simp only [Endpoint.run, hc, Option.some.injEq] at hrun
    simp only [SenderPhase, hc] at h
    obtain ⟨hlt, rfl, rfl, rfl⟩ := h
    have hsends : ∀ i ≤ e.lib.winBufPos, o.sendOk i = true := fun i hi => hok i (by omega)
    have hfile' : ∀ l, SenderFile content { e with ctl := .udpSendtoEx l .sendFileLast } :=
      fun l => ⟨hfile.chunks, hlast⟩
    subst hrun
    by_cases hpos : 0 < e.lib.winBufPos
    · have hsend := sendAllWinPackets_window hpos hsends
      simp only [Endpoint.enterSend, hsend, Endpoint.settle]
      refine ⟨hbase, hfile' _, ?_, ?_⟩
      · exact ⟨⟨Nat.succ_pos 999, fun _ => rfl⟩, Or.inl ⟨hpos, Nat.zero_le _, rfl, rfl⟩⟩
      · simp [senderWork, unsent, senderRank, hc]
        omega
    · -- nothing is left, and the packet in the first slot is sent again
      have h0 : e.lib.winBufPos = 0 := by omega
      have hsend := sendAllWinPackets_ok hsends
      simp only [Endpoint.enterSend, hsend, Endpoint.settle]
      refine ⟨hbase, hfile' _, ?_, ?_⟩
      · exact ⟨⟨Nat.succ_pos 999, fun _ => rfl⟩, Or.inr ⟨h0, rfl, rfl, rfl⟩⟩
      · simp [senderWork, unsent, senderRank, hc, h0]
  · simp [Endpoint.run, hc] at hrun

/-- Where the sender goes on when the window has been confirmed. -/
theorem SenderPhase.confirmed {k : SendCaller} {s : SockLib} (hs : 0 < s.wSize) (h0 : s.winBufPos = 0)
    (hk : CallerPart content (numberedData e.log).length k) (l : SendtoEx) :
    let e' := ({ e with lib := s } : Endpoint Unit).afterSend idleApp k 0
    SenderPhase content e' [] [] 0 ∧
      senderWork content e' [] ≤ 9 * (packetsSent content.length - (numberedData e.log).length) +
        senderRank (.udpSendtoEx l k) := by
  cases k with
  | sendFileCopy rest eof =>
      refine ⟨⟨?_, rfl, rfl, rfl⟩, ?_⟩
      · show s.winBufPos < s.wSize
        omega
      · simp [senderWork, unsent, senderRank, Endpoint.afterSend, h0]
  | sendFileLast =>
      have hlog : numberedData (({ e with lib := s } : Endpoint Unit).finish idleApp (.code (-1))).log =
          numberedData e.log := by
        simp [Endpoint.finish]
      refine ⟨⟨h0, rfl, rfl, (congrArg List.length hlog).trans hk⟩, ?_⟩
      simp [senderWork, unsent, senderRank, Endpoint.afterSend, Endpoint.finish]
  | sockSendtoExCopy _ => cases hk
  | sockSendtoEx => cases hk

/-- The sender takes an acknowledgement in. -/
theorem SenderPhase.recv (hbase : SendBase w start (numberedData e.log) b e.lib)
    (hfile : SenderFile content e) (h : SenderPhase content e out (d :: back) j) (hok : SendsOk e o)
    (hrecv : (machine idleApp).recv e o d = some p) :
    ∃ b' j', b' + j' = b + j ∧ SendBase w start (numberedData p.1.log) b' p.1.lib ∧
      SenderFile content p.1 ∧ SenderPhase content p.1 (out ++ p.2) back j' ∧
      senderWork content p.1 (out ++ p.2) ≤ senderWork content e out := by
  obtain ⟨l, k, hc, rfl, hfile'⟩ := hfile.recv hrecv
  have hk := hfile.ctl
  have hunsent : unsent e = 0 := by simp [unsent, hc]
  rw [hc] at hk
  simp only [SenderPhase, hc] at h
  obtain ⟨⟨hl, hmarks⟩, ⟨hpos, hj, rfl, hback⟩ | ⟨-, -, hback, -⟩⟩ := h
  · have hle := hbase.pos_le_wSize
    -- the acknowledgement belongs to the oldest packet
    obtain ⟨m, hm⟩ : ∃ m, e.lib.winBufPos = m + 1 := ⟨e.lib.winBufPos - 1, by omega⟩
    have hwindow : e.lib.window = e.lib.winBuf 0 :: e.lib.window.tail := by
      simp [SockLib.window, hm, List.range_succ_eq_map]
    cases j with
    | zero => cases hback
    | succ j =>
        rw [hwindow, List.take_succ_cons, List.map_cons, List.cons.injEq] at hback
        obtain ⟨rfl, rfl⟩ := hback
        obtain ⟨s', marks, hs', htail, hstep⟩ :=
          udpSendtoExAck_oldest hpos hle hl hmarks (hok 0 (by omega))
        have hremove : SendBase w start (numberedData e.log) (b + (0 + 1)) s' :=
          hs' ▸ hbase.remove _ _ (findSeq_oldest hpos)
        have hlen : s'.winBufPos + 1 = e.lib.winBufPos := by
          have := congrArg List.length htail
          simp only [SockLib.length_window, List.length_tail] at this
          omega
        have hout : e.lib.window.drop (j + 1) = s'.window.drop j := by rw [htail, List.drop_tail]
        refine ⟨b + 1, j, by omega, ?_⟩
        rcases Endpoint.recvInSend_cases (A := idleApp) (o := o) e l k (ackOf (e.lib.winBuf 0)) with
          ⟨hno, -, -⟩ | ⟨-, hp⟩
        · exact absurd trivial hno
        · have hack : e.lib.udpSendtoExPacket o l (ackOf (e.lib.winBuf 0)).pkt =
              e.lib.udpSendtoExAck o l (e.lib.winBuf 0).seq := rfl
          rw [hack] at hp
          rcases hstep with ⟨h0, hstep⟩ | ⟨hmore, arr, harr, hstep⟩ <;> rw [hstep] at hp <;>
            rw [hp] at hfile' ⊢
          · -- it was the last packet of the window, and the caller goes on
            have hj0 : j = 0 := by omega
            subst hj0
            have hempty : e.lib.window.drop (0 + 1) = [] := by
              rw [List.drop_eq_nil_iff, SockLib.length_window]
              omega
            obtain ⟨hphase, hwork⟩ := SenderPhase.confirmed (e := e) (s := s')
              (by rw [hremove.wSize_eq]; exact hremove.wSize_pos) h0 hk l
            have hmoves := Endpoint.moves_afterSend (A := idleApp)
              (e := ({ e with lib := s' } : Endpoint Unit)) k 0
            have hlog := numberedData_of_moves hmoves
            simp only [Endpoint.settle] at hfile' ⊢
            refine ⟨?_, hfile', ?_, ?_⟩
            · rw [hlog, hmoves.lib]
              exact hremove
            · rw [hempty]
              exact hphase
            · rw [hempty]
              refine hwork.trans ?_
              simp only [senderWork, hunsent, hc]
              omega
          · simp only [Endpoint.settle] at hfile' ⊢
            refine ⟨hremove, hfile', ?_, ?_⟩
            · refine ⟨⟨hl, harr⟩, Or.inl ⟨hmore, ?_, ?_, by rw [htail]⟩⟩
              · dsimp only
                omega
              · rw [hout, List.append_nil]
            · simp [senderWork, unsent, hc, senderRank_udpSendtoEx _ l k]
  · cases hback

/-- The receiver takes a packet from the wire: it is the next one. -/
theorem SenderPhase.taken (hbase : SendBase w start (numberedData e.log) b e.lib)
    (hfile : SenderFile content e) (h : SenderPhase content e (d :: out) back j)
    (hneed : bufferLength * (b + j) < content.length) :
    IsData start (numberedData e.log) (b + j) d.pkt ∧
      SenderPhase content e out (back ++ [ackOf d.pkt]) (j + 1) := by
  have hpos := hbase.pos
  have hb : bufferLength = 1024 := rfl
  -- the file is not all taken, so the sender has not finished with it
  have hnot : ¬ (e.lib.winBufPos = 0 ∧ j = 0 ∧
      (numberedData e.log).length = packetsSent content.length) := by
    rintro ⟨h0, rfl, hlast⟩
    unfold packetsSent at hlast
    rw [hb] at hneed hlast
    omega
  rcases hfile.ctl.cases with hc | ⟨rest, eof, hc⟩ | ⟨hc, -⟩ | ⟨l, k, hc, hk⟩ <;>
    simp only [SenderPhase, hc] at h ⊢
  · exact absurd ⟨h.1, h.2.1, h.2.2.2⟩ hnot
  · cases h.2.2.1
  · cases h.2.2.1
  · obtain ⟨hlive, ⟨hmore, hj, hout, hback⟩ | ⟨h0, hj, -, rfl⟩⟩ := h
    · have hlt : j < e.lib.window.length := by
        rw [SockLib.length_window]
        by_contra hge
        rw [List.drop_eq_nil_of_le (by rw [SockLib.length_window]; omega)] at hout
        cases hout
      have hget : e.lib.window[j] = e.lib.winBuf j := by simp [SockLib.window]
      rw [List.drop_eq_getElem_cons hlt, List.map_cons, List.cons.injEq, hget] at hout
      obtain ⟨rfl, rfl⟩ := hout
      rw [SockLib.length_window] at hlt
      refine ⟨hbase.slots j hlt, hlive, Or.inl ⟨hmore, hlt, rfl, ?_⟩⟩
      rw [hback, ← List.take_append_getElem (by rw [SockLib.length_window]; exact hlt),
        List.map_append, hget]
      rfl
    · exact absurd ⟨h0, hj, hk⟩ hnot

end

/-! ## The receiver -/

/-- The receiver after `m` packets; it began with the number `last`. -/
structure ReceiverAt (content : List Byte) (last : UInt32) (start m : Nat) (e : Endpoint Unit) :
    Prop where
  file : ReceiverFile content content.length m e
  handed : (handedData e.log).length = m
  kept : m = 0 → e.lib.lastSeq = last
  used : 0 < m → e.lib.lastSeq ≠ -1
  number : e.lib.lastSeq ≠ -1 → (e.lib.lastSeq.toNat + 1) % 32 = (start + m) % 32
  needed : bufferLength * m < content.length + bufferLength
  returned : ∀ r written, Event.returned (.file r written) ∈ e.log → r = 0 ∧ written = content

def receiverRank : Control → Nat
  | .recvFile _ _ => 1
  | _ => 0

section

variable {content : List Byte} {last : UInt32} {start m : Nat} {sub : List Payload}
  {e : Endpoint Unit} {o : Oracle} {p : Endpoint Unit × List Datagram} {d : Datagram}

/-- `recv_file` begins another piece, or returns. -/
theorem ReceiverAt.run (h : ReceiverAt content last start m e) (hrun : e.run idleApp o = some p) :
    ReceiverAt content last start m p.1 ∧ p.2 = [] ∧ receiverRank p.1.ctl < receiverRank e.ctl := by
  obtain ⟨hfile, hout⟩ := h.file.act (i := .run o) hrun
  have hctl := h.file.ctl
  rcases h.file.cases with hc | ⟨left, written, hc⟩ | ⟨left, recvLen, fleft, written, hc⟩
  · simp [Endpoint.run, Endpoint.nextCall, hc, idleApp] at hrun
  · rw [hc] at hctl
    simp only [Endpoint.run, hc, Option.some.injEq] at hrun
    subst hrun
    by_cases hpos : 0 < left
    · simp only [Endpoint.recvPiece, hpos, if_true] at hfile ⊢
      exact ⟨⟨hfile, h.handed, h.kept, h.used, h.number, h.needed, h.returned⟩, trivial,
        by simp [receiverRank, hc]⟩
    · simp only [Endpoint.recvPiece, hpos, if_false] at hfile ⊢
      -- the loop is over, and everything has been written
      have hwritten : written = content := by
        rcases hctl with hctl | ⟨-, hw, -⟩
        · exact absurd hctl.left_pos hpos
        · simpa using hw
      refine ⟨⟨hfile, ?_, h.kept, h.used, h.number, h.needed, ?_⟩, trivial,
        by simp [receiverRank, hc, Endpoint.finish]⟩
      · rw [handedData_of_moves (Endpoint.moves_finish (by simp [Ret.IsHandshake]))]
        exact h.handed
      · intro r written' hmem
        rcases List.mem_append.1 hmem with hmem | hmem
        · exact h.returned r written' hmem
        · rw [List.mem_singleton, Event.returned.injEq, Ret.file.injEq] at hmem
          exact ⟨hmem.1, hmem.2.trans hwritten⟩
  · simp [Endpoint.run, hc] at hrun

/-- While `recv_file` waits, packets are missing. -/
theorem ReceiverAt.waiting (h : ReceiverAt content last start m e)
    (hrecv : (machine idleApp).recv e o d = some p) :
    bufferLength * m < content.length ∧ ∃ (left fleft : Int) (written : List Byte),
      left ≤ bufferLength ∧ e.ctl = .sockRecvfrom left [] (.recvFile left fleft written) := by
  have hctl := h.file.ctl
  rcases h.file.cases with hc | ⟨left, written, hc⟩ | ⟨left, recvLen, fleft, written, hc⟩
  · simp [machine, Endpoint.packet, hc] at hrecv
  · simp [machine, Endpoint.packet, hc] at hrecv
  · rw [hc] at hctl
    obtain ⟨hw, -, rfl, hlen⟩ := hctl
    have hpos := hw.left_pos
    have hleft := hw.left_eq
    exact ⟨by omega, left, fleft, written, (recvLen_bounds hw.left_pos hlen).2.2.1, hc⟩

/-- The next packet is accepted and acknowledged. -/
theorem ReceiverAt.recv (h : ReceiverAt content last start m e) (hd : IsData start sub m d.pkt)
    (hchunk : d.pkt.data = chunk content m) (hok : SendsOk e o)
    (hrecv : (machine idleApp).recv e o d = some p) :
    ReceiverAt content last start (m + 1) p.1 ∧ p.2 = [ackOf d.pkt] ∧
      receiverRank p.1.ctl ≤ receiverRank e.ctl + 1 := by
  obtain ⟨hneed, left, fleft, written, hle, hc⟩ := h.waiting hrecv
  -- a fresh receiver takes any number, and one that is set the next
  have hnext : seqField ((e.lib.syncLastSeq d.pkt).lastSeq + 1) = d.pkt.seq := by
    by_cases hu : e.lib.lastSeq = -1
    · exact SockLib.syncLastSeq_of_eq hu
    · rw [SockLib.syncLastSeq_of_ne hu]
      apply Fin.ext
      rw [seqField_add_one, h.number hu, hd.1]
  have hfile := h.file.recv le_rfl hrecv
  simp only [machine, Endpoint.packet, hc, Option.some.injEq] at hrecv
  subst hrecv
  rcases recvInData_cases (A := idleApp) (o := o) e left [] (.recvFile left fleft written) d with
    ⟨htype, -⟩ | ⟨-, -, hp⟩ | ⟨-, hne, -⟩
  · rw [hd.2.1] at htype
    cases htype
  · rw [hp] at hfile ⊢
    -- one payload completes the piece, and `recv_file` writes it
    have hdone : ¬ 0 < left - bufferLength := by omega
    simp only [Endpoint.recvLoop, hdone, if_false] at hfile ⊢
    have hhanded : handedData (e.log ++ (if e.lib.lastSeq = -1 then [Event.synced d] else []) ++
        [.acked d, .handed d]) = handedData e.log ++ [d.pkt.data] := by
      split <;> simp
    have hsent : libSendto o [] (SockLib.ackPacket ((e.lib.syncLastSeq d.pkt).lastSeq + 1) .ack) =
        ([SockLib.ackPacket ((e.lib.syncLastSeq d.pkt).lastSeq + 1) .ack], true) :=
      libSendto_ok (hok 0 (by omega))
    refine ⟨⟨?_, ?_, by omega, fun _ => ofNat_seq_ne _, ?_, ?_, ?_⟩, ?_, ?_⟩
    · rcases hfile with ⟨hsame, -⟩ | ⟨-, hfile⟩
      · rw [hhanded] at hsame
        simp at hsame
      · exact hfile hchunk
    · rw [hhanded, List.length_append, h.handed]
      rfl
    · intro _
      have hseq := hd.1
      dsimp only
      rw [toNat_ofNat_seq]
      omega
    · have hb : bufferLength = 1024 := rfl
      rw [hb] at hneed ⊢
      omega
    · intro r written' hmem
      refine h.returned r written' ?_
      split at hmem <;> simpa using hmem
    · rw [hsent, ackPacket_eq_ackOf hnext]
    · simp [receiverRank]
  · exact absurd hnext.symm (hne hd.2.1)

end

/-! ## The file phase -/

/-- `b` packets are confirmed, and `j` packets of the window are accepted. -/
structure ExactAt (content : List Byte) (last : UInt32) (w start b j : Nat)
    (n : Net (Endpoint Unit) Datagram) : Prop where
  base : SendBase w start (numberedData (n.node .client).log) b (n.node .client).lib
  sender : SenderFile content (n.node .client)
  phase : SenderPhase content (n.node .client) (n.wire .client) (n.wire .server) j
  receiver : ReceiverAt content last start (b + j) (n.node .server)

def workLeft (content : List Byte) (n : Net (Endpoint Unit) Datagram) : Nat :=
  senderWork content (n.node .client) (n.wire .client) + 3 * (n.wire .server).length +
    receiverRank (n.node .server).ctl

section

variable {content : List Byte} {last : UInt32} {w start b j : Nat}
  {n n' : Net (Endpoint Unit) Datagram} {ev : FifoEvent Act Oracle}

/-- Every step of an undisturbed run keeps the count and leaves less to do. -/
theorem ExactAt.step (h : ExactAt content last w start b j n) (hok : Undisturbed n ev)
    (hstep : fifoStep (machine idleApp) n ev = some n') :
    (∃ b' j', ExactAt content last w start b' j' n') ∧ workLeft content n' < workLeft content n := by
  -- the step lemma of the party that moves, and the other one keeps its half
  cases ev with
  | act t i =>
      obtain ⟨p, hact, rfl⟩ := fifoStep_act.1 hstep
      cases i with
      | timeout o => cases hok
      | error => cases hok
      | run o =>
          cases t with
          | client =>
              obtain ⟨hbase, hsender, hphase, hwork⟩ := h.phase.run h.base h.sender hok hact
              refine ⟨⟨b, j, ?_, ?_, ?_, ?_⟩, ?_⟩
              · rwa [Net.emit_node_self]
              · rwa [Net.emit_node_self]
              · rwa [Net.emit_node_self, Net.emit_wire_self, Net.emit_client_wire]
              · rw [Net.emit_client_node]
                exact h.receiver
              · simp only [workLeft, Net.emit_node_self, Net.emit_wire_self, Net.emit_client_node,
                  Net.emit_client_wire]
                omega
          | server =>
              obtain ⟨hreceiver, hout, hrank⟩ := h.receiver.run hact
              have hself : (n.emit .server p).wire .server = n.wire .server := by
                rw [Net.emit_wire_self, hout, List.append_nil]
              refine ⟨⟨b, j, ?_, ?_, ?_, ?_⟩, ?_⟩
              · rw [Net.emit_server_node]
                exact h.base
              · rw [Net.emit_server_node]
                exact h.sender
              · rw [Net.emit_server_node, Net.emit_server_wire, hself]
                exact h.phase
              · rwa [Net.emit_node_self]
              · simp only [workLeft, Net.emit_node_self, Net.emit_server_node, Net.emit_server_wire,
                  hself]
                omega
  | deliver t o =>
      obtain ⟨d, rest, p, hwire, hrecv, rfl⟩ := fifoStep_deliver.1 hstep
      cases t with
      | client =>
          simp only [Side.peer] at hwire
          have hphase := h.phase
          rw [hwire] at hphase
          obtain ⟨b', j', hsum, hbase, hsender, hphase', hwork⟩ :=
            hphase.recv h.base h.sender hok hrecv
          simp only [Side.peer]
          refine ⟨⟨b', j', ?_, ?_, ?_, ?_⟩, ?_⟩
          · rwa [Net.emit_node_self]
          · rwa [Net.emit_node_self]
          · rwa [Net.emit_node_self, Net.emit_wire_self, Net.setWire_server_wire,
              Net.emit_client_wire, Net.setWire_wire_self]
          · rw [Net.emit_client_node, Net.setWire_node, hsum]
            exact h.receiver
          · simp only [workLeft, Net.emit_node_self, Net.emit_wire_self, Net.setWire_server_wire,
              Net.emit_client_wire, Net.setWire_wire_self, Net.emit_client_node, Net.setWire_node,
              hwire, List.length_cons]
            omega
      | server =>
          simp only [Side.peer] at hwire
          have hphase := h.phase
          rw [hwire] at hphase
          obtain ⟨hneed, left, fleft, written, -, hctl⟩ := h.receiver.waiting hrecv
          obtain ⟨hd, hphase'⟩ := hphase.taken h.base h.sender hneed
          have hchunk : d.pkt.data = chunk content (b + j) := by
            have hget := hd.2.2
            rw [h.sender.chunks, List.getElem?_map, List.getElem?_range hd.lt] at hget
            exact (Option.some.inj hget).symm
          obtain ⟨hreceiver, hout, hrank⟩ := h.receiver.recv hd hchunk hok hrecv
          have hself : ((n.setWire .client rest).emit .server p).wire .server =
              n.wire .server ++ [ackOf d.pkt] := by
            rw [Net.emit_wire_self, Net.setWire_client_wire, hout]
          have hpeer : ((n.setWire .client rest).emit .server p).wire .client = rest := by
            rw [Net.emit_server_wire, Net.setWire_wire_self]
          simp only [Side.peer]
          refine ⟨⟨b, j + 1, ?_, ?_, ?_, ?_⟩, ?_⟩
          · rw [Net.emit_server_node]
            exact h.base
          · rw [Net.emit_server_node]
            exact h.sender
          · rwa [Net.emit_server_node, hself, hpeer]
          · rwa [Net.emit_node_self]
          · simp only [workLeft, senderWork, Net.emit_node_self, hself, hpeer, Net.emit_server_node,
              Net.setWire_node, hwire, List.length_append, List.length_cons, List.length_nil]
            omega
  | lose t k => cases hok

theorem exactAt_start {sender receiver : SockLib} (hsize : 1 ≤ sender.wSize)
    (hempty : sender.winBufPos = 0) (hagree : Agree sender receiver) :
    ExactAt content receiver.lastSeq sender.wSize sender.seq.toNat 0 0
      (fileStart sender receiver content content.length) := by
  refine ⟨⟨rfl, hsize, rfl, hempty, ?_, ?_, ?_⟩, ⟨rfl, rfl, by simp [numberedData, fileStart]⟩,
    ?_, ⟨⟨?_⟩, rfl, fun _ => rfl, by omega, ?_, ?_, ?_⟩⟩
  · exact le_of_eq_of_le hempty (Nat.zero_le _)
  · intro i hi
    have : i < 0 := lt_of_lt_of_eq hi hempty
    omega
  · intro hne
    exact absurd rfl hne
  · -- the window has room for the first chunk
    refine ⟨?_, rfl, rfl, rfl⟩
    show sender.winBufPos < sender.wSize
    omega
  · by_cases hpos : (0 : Int) < content.length
    · exact Or.inl ⟨hpos, by simp, by simp⟩
    · have hnil : content = [] := List.eq_nil_of_length_eq_zero (by omega)
      exact Or.inr ⟨by omega, by simp [hnil], by simp [hnil]⟩
  · intro hset
    rcases hagree with hunset | hagree
    · exact absurd hunset hset
    · exact hagree.symm
  · have hb : bufferLength = 1024 := rfl
    rw [hb]
    omega
  · intro r written hmem
    cases hmem

/-- The invariant of an undisturbed run, and the bound on its length. -/
theorem exactAt_run {sender receiver : SockLib} {es : List (FifoEvent Act Oracle)}
    (hsize : 1 ≤ sender.wSize) (hempty : sender.winBufPos = 0) (hagree : Agree sender receiver)
    (hrun : Run (fifoStep (machine idleApp)) Undisturbed
      (fileStart sender receiver content content.length) es n) :
    (∃ b j, ExactAt content receiver.lastSeq sender.wSize sender.seq.toNat b j n) ∧
      es.length ≤ 9 * (packetsSent content.length + 1) := by
  have hstep : ∀ t e u,
      (∃ b j, ExactAt content receiver.lastSeq sender.wSize sender.seq.toNat b j t) → Undisturbed t e →
      fifoStep (machine idleApp) t e = some u →
      (∃ b j, ExactAt content receiver.lastSeq sender.wSize sender.seq.toNat b j u) ∧
        workLeft content u < workLeft content t := by
    rintro t e u ⟨b, j, ht⟩ hok hst
    exact ht.step hok hst
  have hstart : ExactAt content receiver.lastSeq sender.wSize sender.seq.toNat 0 0
      (fileStart sender receiver content content.length) := exactAt_start hsize hempty hagree
  have hinv := hrun.invariant (fun t e u ht hok hst => (hstep t e u ht hok hst).1) ⟨0, 0, hstart⟩
  -- every step leaves less to do than the one before
  have hlen := hrun.length_le (workLeft content) hstep ⟨0, 0, hstart⟩
  refine ⟨hinv, ?_⟩
  have hwork : workLeft content (fileStart sender receiver content content.length) =
      9 * (packetsSent content.length + 1) := by
    simp [workLeft, senderWork, fileStart, unsent, senderRank, receiverRank, hempty]
    omega
  omega

/-! ## Complete runs -/

theorem Complete.run (h : Complete n) (t : Side) : (n.node t).run idleApp .reliable = none := by
  have hrun := (h t).1
  simpa [fifoStep, runs, machine] using hrun

theorem Complete.packet (h : Complete n) (t : Side) {d : Datagram} {rest : List Datagram}
    (hwire : n.wire t.peer = d :: rest) : (n.node t).packet idleApp .reliable d = none := by
  have hrecv := (h t).2
  simpa [fifoStep, arrives, machine, hwire] using hrecv

/-- An undisturbed run that is not complete goes on. -/
theorem exists_step_of_not_complete (h : ¬ Complete n) :
    ∃ ev n', Undisturbed n ev ∧ fifoStep (machine idleApp) n ev = some n' := by
  have hok : ∀ t, SendsOk (n.node t) .reliable := fun _ _ _ => rfl
  simp only [Complete, not_forall, not_and_or, Bool.not_eq_true, Option.isNone_eq_false_iff,
    Option.isSome_iff_exists] at h
  obtain ⟨t, ⟨n', hn'⟩ | ⟨n', hn'⟩⟩ := h
  · exact ⟨runs t, n', hok t, hn'⟩
  · exact ⟨arrives t, n', hok t, hn'⟩

/-- The file has arrived where `recv_file` has returned. -/
theorem ReceiverAt.done {m : Nat} {e : Endpoint Unit} (h : ReceiverAt content last start m e)
    (hidle : e.ctl = .idle) : e.log.getLast? = some (.returned (.file 0 content)) ∧
      content.length ≤ bufferLength * m := by
  have hctl := h.file.ctl
  rw [hidle] at hctl
  obtain ⟨r, written, hlast, -, hlen⟩ := hctl
  obtain ⟨rfl, rfl⟩ := h.returned r written (List.mem_of_getLast? hlast)
  have := (hlen rfl).2
  exact ⟨hlast, by omega⟩

/-- Where the sender cannot go on, it has numbered and confirmed everything, or it waits for the
acknowledgement of a packet that has not been taken. -/
theorem ExactAt.sender_stuck (h : ExactAt content last w start b j n) (hdone : Complete n) :
    ((numberedData (n.node .client).log).length = packetsSent content.length ∧
        (n.node .client).lib.winBufPos = 0 ∧ j = 0) ∨
      (j = 0 ∧ 0 < (n.node .client).lib.winBufPos ∧ (∃ d rest, n.wire .client = d :: rest) ∧
        ∃ l k, (n.node .client).ctl = .udpSendtoEx l k) := by
  have hphase := h.phase
  have hrun := hdone.run .client
  -- the read loop never stops, so the sender is done or waits in `udp_sendtoEx`
  rcases h.sender.ctl.cases with hc | ⟨rest, eof, hc⟩ | ⟨hc, -⟩ | ⟨l, k, hc, hk⟩
  · simp only [SenderPhase, hc] at hphase
    exact Or.inl ⟨hphase.2.2.2, hphase.1, hphase.2.1⟩
  · simp [Endpoint.run, hc] at hrun
  · simp [Endpoint.run, hc] at hrun
  · simp only [SenderPhase, hc] at hphase
    obtain ⟨-, ⟨hmore, hj, hout, hback⟩ | ⟨h0, hj, -, rfl⟩⟩ := hphase
    · cases hwire : n.wire .server with
      | cons d rest =>
          have hpacket := hdone.packet .client hwire
          simp [Endpoint.packet, hc] at hpacket
      | nil =>
          -- no acknowledgement is left on the wire, so none of the window is accepted
          have hj0 : j = 0 := by
            rw [hwire] at hback
            have hlen := congrArg List.length hback
            simp only [List.length_map, List.length_take, SockLib.length_window,
              List.length_nil] at hlen
            omega
          refine Or.inr ⟨hj0, hmore, List.exists_cons_of_ne_nil ?_, l, k, hc⟩
          intro hnil
          rw [hnil] at hout
          have hlen := congrArg List.length hout
          simp only [List.length_map, List.length_drop, SockLib.length_window,
            List.length_nil] at hlen
          omega
    · exact Or.inl ⟨hk, h0, hj⟩

/-- Where nothing can go on, `recv_file` has returned and everything has been numbered. -/
theorem ExactAt.complete (h : ExactAt content last w start b j n) (hdone : Complete n) :
    (n.node .server).ctl = .idle ∧
      (numberedData (n.node .client).log).length = packetsSent content.length := by
  have hb : bufferLength = 1024 := rfl
  have hpos := h.base.pos
  have hidle : (n.node .server).ctl = .idle := by
    rcases h.receiver.file.cases with hc | ⟨left, written, hc⟩ | ⟨left, recvLen, fleft, written, hc⟩
    · exact hc
    · have hrun := hdone.run .server
      simp [Endpoint.run, hc] at hrun
    · have hpacket : ∀ d, (machine idleApp).recv (n.node .server) .reliable d ≠ none := by
        intro d
        simp [machine, Endpoint.packet, hc]
      rcases h.sender_stuck hdone with ⟨hlast, h0, hj⟩ | ⟨-, -, ⟨d, rest, hwire⟩, -⟩
      · -- everything has been taken, but a packet is missing
        obtain ⟨p, hp⟩ := Option.ne_none_iff_exists'.1 (hpacket ⟨UdpPacket.zero, .window⟩)
        have hneed := (h.receiver.waiting hp).1
        unfold packetsSent at hlast
        rw [hb] at hneed hlast
        omega
      · exact absurd (hdone.packet .server hwire) (hpacket d)
  refine ⟨hidle, ?_⟩
  rcases h.sender_stuck hdone with ⟨hlast, -, -⟩ | ⟨rfl, hmore, -, l, k, hc⟩
  · exact hlast
  · have hlen := (h.receiver.done hidle).2
    have hk := h.sender.ctl
    rw [hc] at hk
    cases k with
    | sendFileCopy rest eof =>
        cases eof with
        | true => exact hk
        | false =>
            -- the unconfirmed packets are full chunks, which the receiver has needed
            obtain ⟨-, hle⟩ := hk
            rw [hb] at hle hlen
            omega
    | sendFileLast => exact hk
    | sockSendtoExCopy _ => cases hk
    | sockSendtoEx => cases hk

end

/-- In every undisturbed run, whatever the size of the file and of the window and wherever the numbers start,
`recv_file` returns `0` and nothing else, having written the file; a run is no longer than its bound,
and where it cannot go on `recv_file` has returned. -/
theorem exact_delivery {sender receiver : SockLib} {content : List Byte}
    {es : List (FifoEvent Act Oracle)} {n : Net (Endpoint Unit) Datagram}
    (hsize : 1 ≤ sender.wSize) (hempty : sender.winBufPos = 0) (hagree : Agree sender receiver)
    (hrun : Run (fifoStep (machine idleApp)) Undisturbed
      (fileStart sender receiver content content.length) es n) :
    es.length ≤ 9 * (packetsSent content.length + 1) ∧
      (∀ r written, Event.returned (.file r written) ∈ (n.node .server).log →
        r = 0 ∧ written = content) ∧
      (Complete n → (n.node .server).log.getLast? = some (.returned (.file 0 content))) := by
  obtain ⟨⟨b, j, hexact⟩, hlen⟩ := exactAt_run hsize hempty hagree hrun
  refine ⟨hlen, hexact.receiver.returned, ?_⟩
  intro hdone
  exact (hexact.receiver.done (hexact.complete hdone).1).1

/-- Two windows of one packet, and the packet that `send_file` sends again at the end. -/
def twoWindowsEvents : List (FifoEvent Act Oracle) :=
  [runs .client, runs .server, arrives .server, runs .server, arrives .client, runs .client,
    arrives .server, runs .server, arrives .client, runs .client, runs .client]

theorem exact_delivery_two_windows :
    ∃ n : Net (Endpoint Unit) Datagram, (n.node .server).log.getLast? =
      some (.returned (.file 0 (List.replicate 1030 7))) := by
  have hex : ∃ n, Run (fifoStep (machine idleApp)) Undisturbed (fileStart (SockLib.zero.udpInit 1)
      (SockLib.zero.udpInit 1) (List.replicate 1030 7) (List.replicate 1030 7 : List Byte).length)
      twoWindowsEvents n ∧ Complete n :=
    exists_run_of_exec (by decide +kernel)
  obtain ⟨n, hrun, hdone⟩ := hex
  exact ⟨n, (exact_delivery (by decide) (by decide) (Or.inl rfl) hrun).2.2 hdone⟩

end Sample3
end FileTransfer
