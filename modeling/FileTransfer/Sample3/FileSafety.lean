import FileTransfer.Sample3.FilePhase

/-!
# The file phase over a network that loses datagrams

`FileInv` is the invariant of the file phase: the link is sound, the sender has numbered the chunks of
the file in order, and the receiver was handed the first of them.  It holds in every state of a run
whose events meet `FileOk`, so what `recv_file` has written is always a part of the file from its start.
Without `FileOk` it may not be: see `chunk_skipped`.
-/

namespace FileTransfer
namespace Sample3

/-- The condition on one event of the file phase:
* the read loop of `send_file` calls `copy_2_winbuf` with room in the window only;
* a NACK or SACK never makes `remove_packets_from_win` empty a window in which it has not found the
  packet before the one the receiver asks for;
* a receiver without `lastSeq` takes the packet with the sender's `first` number in, and no other. -/
def FileOk (first : SeqNum) (n : Net (Endpoint Unit) Datagram) : FifoEvent Act Oracle → Prop
  | .act .client _ => (n.node .client).ctl.Reads →
      (n.node .client).lib.winBufPos < (n.node .client).lib.wSize
  | .deliver .client o => ∀ d ∈ (n.wire .server).head?,
      d.pkt.ackType = .nack ∨ d.pkt.ackType = .sack →
      (n.node .client).lib.winBufPos = 0 ∨
        (n.node .client).lib.clearsUnfound o.beyond (d.pkt.seq - 1) = false
  | .deliver .server _ => ∀ d ∈ (n.wire .client).head?,
      (n.node .server).lib.lastSeq = -1 →
      d.pkt.ackType = .request ∧ d.pkt.seq = first
  | _ => True

instance (first : SeqNum) (n : Net (Endpoint Unit) Datagram) : DecidablePred (FileOk first n)
  | .act .client _ => inferInstanceAs (Decidable (_ → _))
  | .act .server _ => inferInstanceAs (Decidable True)
  | .deliver .client _ => inferInstanceAs (Decidable (∀ d ∈ (n.wire .server).head?, _ → _))
  | .deliver .server _ => inferInstanceAs (Decidable (∀ d ∈ (n.wire .client).head?, _ → _))
  | .lose _ _ => inferInstanceAs (Decidable True)

structure FileInv (content : List Byte) (len : Int) (w start : Nat)
    (n : Net (Endpoint Unit) Datagram) : Prop where
  link : ∃ g, LinkAt n .client w ⟨start, start, []⟩ g ∧
    handedData (n.node .server).log = g.submitted.take g.expected
  sender : SenderFile content (n.node .client)
  receiver : ReceiverFile content len (handedData (n.node .server).log).length (n.node .server)
  clientWire : ∀ d ∈ n.wire .client,
    d.site = .window ∨ (d.site = .specialRequest ∧ d.pkt.ackType = .sack)
  serverWire : ∀ d ∈ n.wire .server, d.site = .sendAck

section

variable {content : List Byte} {len : Int} {w start : Nat} {n n' : Net (Endpoint Unit) Datagram}
  {ev : FifoEvent Act Oracle} {first : SeqNum}

theorem FileInv.wellTyped (h : FileInv content len w start n) {d : Datagram}
    (hd : d ∈ n.wire .client) : WellTyped d := by
  obtain ⟨g, hlink, -⟩ := h.link
  rcases h.clientWire d hd with hsite | ⟨hsite, htype⟩
  · exact hlink.wellTyped_window hd hsite
  · simpa [WellTyped, hsite] using htype

/-- The condition of the file phase implies the one of the link. -/
theorem FileInv.linkOk (h : FileInv content len w start n) (hok : FileOk first n ev)
    (hstep : fifoStep (machine idleApp) n ev = some n') : LinkOk idleApp n ev := by
  cases ev with
  | act t i =>
      intro c hc
      rw [nextCall_idleApp] at hc
      cases hc
  | deliver t o =>
      intro d hd
      obtain ⟨d', rest, p, hwire, hrecv, -⟩ := fifoStep_deliver.1 hstep
      obtain rfl : d = d' := by
        rw [hwire] at hd
        simpa using hd.symm
      obtain ⟨g, hlink, -⟩ := h.link
      cases t with
      | client =>
          have hmem : d ∈ n.wire .server := by
            rw [show n.wire .server = d :: rest from hwire]
            exact List.mem_cons_self
          -- what the server sends in this phase are acknowledgements
          have hsite := h.serverWire d hmem
          have htyped := hlink.wellTyped_sendAck (d := d) hmem hsite
          obtain ⟨l, k, hctl, -, -⟩ := h.sender.recv hrecv
          simp only [WellTyped, hsite] at htyped
          have hclear := hok d hd
          cases htype : d.pkt.ackType <;>
            simp_all [Takes, SendTakes, AckType.IsAnswer]
      | server =>
          have hmem : d ∈ n.wire .client := by
            rw [show n.wire .client = d :: rest from hwire]
            exact List.mem_cons_self
          -- what the client sends in this phase are data and special requests
          have htyped := h.wellTyped hmem
          obtain ⟨left, got, k, hctl⟩ := h.receiver.recv_ctl hrecv
          have hfirst := hok d hd
          have hsites := h.clientWire d hmem
          simp only [Takes, hctl, RecvTakes]
          refine ⟨?_, ?_⟩
          · intro hunset
            rcases hsites with hsite | ⟨-, htype⟩
            · exact Or.inl hsite
            · rw [(hfirst hunset).1] at htype
              cases htype
          · intro hsite
            rcases hsites with hsite' | ⟨hsite', -⟩ <;> rw [hsite] at hsite' <;> cases hsite'
  | lose t k => trivial

/-- The receiver is handed the packets in order. -/
theorem FileInv.inOrder {g g' : GoBackN.State Payload} (hlink : LinkAt n .client w ⟨start, start, []⟩ g)
    (hhanded : handedData (n.node .server).log = g.submitted.take g.expected)
    (hfirst : first.val = start % 32) (hok : FileOk first n ev)
    (hafter : LinkAfter n ev n' .client w ⟨start, start, []⟩ g g') :
    handedData (n'.node .server).log = g'.submitted.take g'.expected := by
  -- what has been handed over stays a prefix when more is submitted
  obtain ⟨t, ht⟩ := hafter.submitted
  have hexp := hlink.inv.expected_le
  rcases hafter.progress with ⟨hsame, hlog⟩ | ⟨o, d, rest, rfl, hwire, m, hd, hm, hexp', hexact, hlog⟩
  · have hlog' : handedData (n'.node .server).log = handedData (n.node .server).log := hlog
    rw [hlog', hhanded, hsame, ← ht, List.take_append_of_le_length hexp]
  · have hm' : m = g.expected := by
      by_cases hunset : (n.node .server).lib.lastSeq = -1
      · -- the first packet a fresh receiver takes is the one with the sender's first number
        have hseq := (hok d (by rw [hwire]; rfl) hunset).2
        have h0 := (hlink.recv.unset hunset).1
        have hmod : d.pkt.seq.val = (start + m) % 32 := hd.1
        rw [hseq, hfirst] at hmod
        have hmem : m < g.submitted.length := hd.lt
        have h1 := hlink.inv.length_le
        have h2 := hlink.inv.base_le
        have h3 := hlink.inv.low_le
        have h4 := hlink.inv.window_lt
        omega
      · exact hexact hunset
    have hlog' : handedData (n'.node .server).log =
        handedData (n.node .server).log ++ [d.pkt.data] := hlog
    have hget : g.submitted[g.expected]? = some d.pkt.data := hm' ▸ hd.2.2
    have hlt := (List.getElem?_eq_some_iff.1 hget).1
    rw [hlog', hhanded, hexp', hm', ← ht, List.take_append_of_le_length hlt, List.take_add_one, hget]
    rfl

/-- The sender's half of the invariant after an event. -/
theorem FileInv.sender_step (h : FileInv content len w start n) (hok : FileOk first n ev)
    (hstep : fifoStep (machine idleApp) n ev = some n') :
    SenderFile content (n'.node .client) ∧ ∀ d ∈ n'.wire .client,
      d.site = .window ∨ (d.site = .specialRequest ∧ d.pkt.ackType = .sack) := by
  cases ev with
  | act t i =>
      obtain ⟨p, hact, rfl⟩ := fifoStep_act.1 hstep
      cases t with
      | client =>
          have hfile := h.sender.act (fun rest hc => hok (by rw [hc]; rfl)) hact
          have hq := quiet_act_idleApp hact
          refine ⟨by rw [Net.emit_node_self]; exact hfile, ?_⟩
          intro d hd
          rw [Net.emit_wire_self] at hd
          rcases List.mem_append.1 hd with hd | hd
          · exact h.clientWire d hd
          · have hsent := hq.out d hd
            unfold SentByAct at hsent
            split at hsent <;> rename_i hsite
            · exact Or.inl hsite
            · exact Or.inr ⟨hsite, hsent⟩
            · cases hsent
            · -- the sender is in no handshake
              obtain ⟨r, hs, hctl⟩ := hsent
              have hpart := hfile.ctl
              rw [hctl] at hpart
              cases hpart
            · cases hsent
      | server =>
          rw [Net.emit_server_node, Net.emit_server_wire]
          exact ⟨h.sender, h.clientWire⟩
  | deliver t o =>
      obtain ⟨d, rest, p, hwire, hrecv, rfl⟩ := fifoStep_deliver.1 hstep
      cases t with
      | client =>
          obtain ⟨l, k, hctl, hp, hfile⟩ := h.sender.recv hrecv
          refine ⟨by rw [Net.emit_node_self]; exact hfile, ?_⟩
          intro x hx
          rw [Net.emit_wire_self] at hx
          rcases List.mem_append.1 hx with hx | hx
          · exact h.clientWire x hx
          · have htakes := h.linkOk hok hstep d (by rw [hwire]; rfl)
            simp only [Takes, hctl] at htakes
            rw [hp] at hx
            rcases SockLib.mem_udpSendtoExPacket hx with ⟨-, rfl⟩ | ⟨htype, hacks, -⟩
            · exact Or.inl rfl
            · unfold SendTakes at htakes
              cases hcase : d.pkt.ackType <;> simp_all [AckType.IsAnswer]
      | server =>
          simp only [Side.peer] at hwire ⊢
          rw [Net.emit_server_node, Net.emit_server_wire, Net.setWire_node, Net.setWire_wire_self]
          exact ⟨h.sender, fun x hx => h.clientWire x (by rw [hwire]; exact List.mem_cons_of_mem _ hx)⟩
  | lose t k =>
      obtain ⟨-, rfl⟩ := fifoStep_lose.1 hstep
      refine ⟨h.sender, ?_⟩
      intro x hx
      cases t with
      | client =>
          rw [Net.setWire_wire_self] at hx
          exact h.clientWire x ((List.eraseIdx_sublist _ _).subset hx)
      | server =>
          rw [Net.setWire_server_wire] at hx
          exact h.clientWire x hx

/-- What the receiver sends are acknowledgements. -/
theorem repliesOnly (e : Endpoint Unit) (o : Oracle) (d : Datagram) (htype : d.pkt.ackType ≠ .handshake)
    (left : Int) (got : List Byte) (k : RecvCaller) :
    ∀ x ∈ (e.recvInData idleApp o left got k d).2, x.site = .sendAck := by
  intro x hx
  rcases recvInData_cases (A := idleApp) (o := o) e left got k d with
    ⟨hhs, -⟩ | ⟨-, -, hp⟩ | ⟨-, -, out, hp, hout⟩
  · exact absurd hhs htype
  · rw [hp] at hx
    rcases SockLib.mem_libSendto hx with hx | rfl
    · cases hx
    · rfl
  · rw [hp] at hx
    exact (hout x hx).1

/-- The receiver's half of the invariant after an event. -/
theorem FileInv.receiver_step (h : FileInv content len w start n) (hlen : len ≤ content.length)
    (hchunks : ∀ m x, handedData (n'.node .server).log = handedData (n.node .server).log ++ [x] →
      m = (handedData (n.node .server).log).length → x = chunk content m)
    (hstep : fifoStep (machine idleApp) n ev = some n') :
    ReceiverFile content len (handedData (n'.node .server).log).length (n'.node .server) ∧
      ∀ d ∈ n'.wire .server, d.site = .sendAck := by
  cases ev with
  | act t i =>
      obtain ⟨p, hact, rfl⟩ := fifoStep_act.1 hstep
      cases t with
      | client =>
          rw [Net.emit_client_node, Net.emit_client_wire]
          exact ⟨h.receiver, h.serverWire⟩
      | server =>
          obtain ⟨hfile, hout⟩ := h.receiver.act hact
          have hq := quiet_act_idleApp hact
          rw [Net.emit_node_self, Net.emit_wire_self, hout, List.append_nil, hq.handedData]
          exact ⟨hfile, h.serverWire⟩
  | deliver t o =>
      obtain ⟨d, rest, p, hwire, hrecv, rfl⟩ := fifoStep_deliver.1 hstep
      cases t with
      | client =>
          simp only [Side.peer] at hwire ⊢
          rw [Net.emit_client_node, Net.emit_client_wire, Net.setWire_node, Net.setWire_wire_self]
          exact ⟨h.receiver, fun x hx => h.serverWire x (by rw [hwire]; exact List.mem_cons_of_mem _ hx)⟩
      | server =>
          rw [Net.emit_node_self] at hchunks ⊢
          rw [Net.emit_wire_self]
          refine ⟨?_, ?_⟩
          · -- the packet hands over nothing, or the chunk whose turn it is
            rcases h.receiver.recv hlen hrecv with ⟨hsame, hfile⟩ | ⟨hnext, hfile⟩
            · rw [hsame]
              exact hfile
            · rw [hnext, List.length_append, List.length_singleton]
              exact hfile (hchunks _ _ hnext rfl)
          · intro x hx
            rcases List.mem_append.1 hx with hx | hx
            · exact h.serverWire x (by simpa using hx)
            · obtain ⟨left, got, k, hctl⟩ := h.receiver.recv_ctl hrecv
              have hmem : d ∈ n.wire .client := by
                rw [show n.wire .client = d :: rest from hwire]
                exact List.mem_cons_self
              -- a client in `send_file` sends no handshake, so no `handshakeAck` goes back
              have hnot : d.pkt.ackType ≠ .handshake := by
                have htyped := h.wellTyped hmem
                unfold WellTyped at htyped
                rcases h.clientWire d hmem with hsite | ⟨hsite, -⟩ <;> rw [hsite] at htyped <;>
                  simp_all
              simp only [machine, Endpoint.packet, hctl, Option.some.injEq] at hrecv
              subst hrecv
              exact repliesOnly _ _ _ hnot _ _ _ x hx
  | lose t k =>
      obtain ⟨-, rfl⟩ := fifoStep_lose.1 hstep
      refine ⟨h.receiver, ?_⟩
      intro x hx
      cases t with
      | server =>
          rw [Net.setWire_wire_self] at hx
          exact h.serverWire x ((List.eraseIdx_sublist _ _).subset hx)
      | client =>
          rw [Net.setWire_client_wire] at hx
          exact h.serverWire x hx

/-- Every event that meets `FileOk` keeps the invariant. -/
theorem FileInv.step (h : FileInv content len w start n) (hlen : len ≤ content.length)
    (hfirst : first.val = start % 32) (hok : FileOk first n ev)
    (hstep : fifoStep (machine idleApp) n ev = some n') :
    FileInv content len w start n' := by
  obtain ⟨g, hlink, hhanded⟩ := h.link
  obtain ⟨g', hafter⟩ := hlink.step (fun d hd => h.wellTyped hd) (h.linkOk hok hstep) (fun _ => rfl) hstep
  have horder := FileInv.inOrder hlink hhanded hfirst hok hafter
  obtain ⟨hsender, hclientWire⟩ := h.sender_step hok hstep
  -- what is handed over is the next packet the sender numbered, hence the next chunk
  have hchunks : ∀ m x, handedData (n'.node .server).log = handedData (n.node .server).log ++ [x] →
      m = (handedData (n.node .server).log).length → x = chunk content m := by
    rintro m x hx rfl
    have hget : (g'.submitted.take g'.expected)[(handedData (n.node .server).log).length]? =
        some x := by
      rw [← horder, hx]
      simp
    have hnumbered : g'.submitted = numberedData (n'.node .client).log :=
      hafter.link.send.submitted.symm
    rw [List.getElem?_take] at hget
    split at hget
    · rw [hnumbered, hsender.chunks] at hget
      simp only [List.getElem?_map, Option.map_eq_some_iff] at hget
      obtain ⟨j, hj, rfl⟩ := hget
      rw [(List.getElem?_eq_some_iff.1 hj).2.symm, List.getElem_range]
    · cases hget
  obtain ⟨hreceiver, hserverWire⟩ := h.receiver_step hlen hchunks hstep
  exact ⟨⟨g', hafter.link, horder⟩, hsender, hreceiver, hclientWire, hserverWire⟩

/-- At the start of the file phase nothing is numbered, and the receiver expects the sender's number. -/
theorem fileInv_start {sender receiver : SockLib} (hsize : 1 ≤ sender.wSize ∧ sender.wSize ≤ 31)
    (hempty : sender.winBufPos = 0)
    (hseq : receiver.lastSeq = -1 ∨
      (receiver.lastSeq.toNat + 1) % 32 = sender.seq.toNat % 32) :
    FileInv content len sender.wSize sender.seq.toNat (fileStart sender receiver content len) := by
  refine ⟨⟨.init, ⟨.init (by omega), ?_, ?_, fun _ => rfl, .nil, .nil⟩, rfl⟩, ?_, ⟨?_⟩, ?_, ?_⟩
  · -- the sender's part: an empty window
    refine ⟨rfl, ⟨rfl, by omega, rfl, hempty, ?_, ?_, ?_⟩, ?_⟩
    · exact le_of_eq_of_le hempty (by omega)
    · intro i hi
      rw [show (fileStart sender receiver content len).node .client =
        { lib := sender, ctl := .sendFile content false, app := (), log := [] } from rfl] at hi
      simp only [hempty] at hi
      omega
    · intro hne
      exact absurd rfl hne
    · intro heof
      cases heof
  · refine ⟨fun _ => ⟨rfl, rfl⟩, fun hset => hseq.resolve_left hset, ?_⟩
    intro hpos
    exact absurd hpos (by simp [GoBackN.State.init])
  · refine ⟨rfl, ?_⟩
    refine ⟨by simp [numberedData, fileStart], by simp [numberedData, fileStart]⟩
  · -- `recv_file` asks for packets unless the length is `0`
    by_cases hpos : 0 < len
    · exact Or.inl ⟨hpos, by simp [handedData, fileStart], by simp [handedData, fileStart]⟩
    · refine Or.inr ⟨by omega, ?_, ?_⟩
      · have hzero : len.toNat = 0 := by omega
        simp [hzero]
      · simp only [handedData, fileStart, List.filterMap_nil, List.length_nil]
        omega
  · simp [fileStart]
  · simp [fileStart]

/-- In every run of the file phase whose events meet `FileOk`, what `recv_file` has written is a part
of the file from its start. -/
theorem written_prefix {sender receiver : SockLib} {content : List Byte} {len : Int}
    {es : List (FifoEvent Act Oracle)} {n : Net (Endpoint Unit) Datagram}
    (hsize : 1 ≤ sender.wSize ∧ sender.wSize ≤ 31) (hempty : sender.winBufPos = 0)
    (hseq : (receiver.lastSeq.toNat + 1) % 32 = sender.seq.toNat % 32)
    (hlen : len ≤ content.length)
    (hrun : Run (fifoStep (machine idleApp)) (FileOk (seqField sender.seq))
      (fileStart sender receiver content len) es n) :
    fileWritten (n.node .server) <+: content := by
  have hinv : FileInv content len sender.wSize sender.seq.toNat n :=
    hrun.invariant (fun t e u ht hok hst => ht.step hlen rfl hok hst)
      (fileInv_start hsize hempty (Or.inr hseq))
  exact hinv.receiver.prefix

end

/-! ## Runs -/

/-- Two chunks, the first one sent again after a timeout. -/
def resentEvents : List (FifoEvent Act Oracle) :=
  [runs .client, timesOut .client, runs .server, arrives .server, runs .server, arrives .server,
    .lose .server 1, arrives .client, runs .client, .lose .client 0, arrives .server]

theorem written_prefix_resent :
    ∃ n : Net (Endpoint Unit) Datagram, fileWritten (n.node .server) <+: List.replicate 1030 7 ∧
      (fileWritten (n.node .server)).length = 1030 := by
  have hex : ∃ n, Run (fifoStep (machine idleApp)) (FileOk (seqField (SockLib.zero.udpInit 1).seq))
      (fileStart (SockLib.zero.udpInit 1) (SockLib.zero.udpInit 1) (List.replicate 1030 7) 1030)
      resentEvents n ∧ (fileWritten (n.node .server)).length = 1030 :=
    exists_run_of_exec (by decide +kernel)
  obtain ⟨n, hrun, hlen⟩ := hex
  exact ⟨n, written_prefix (by decide) (by decide) (by decide) (by decide +kernel) hrun, hlen⟩

/-- Four chunks that differ. -/
def skippedFile : List Byte :=
  List.replicate 1024 0 ++ List.replicate 1024 1 ++ List.replicate 1024 2 ++ [3]

/-- A window of one packet.  A premature timeout sends the first chunk three times, and the NACKs for
the two copies arrive while the second chunk is unconfirmed; the read loop goes on with a full window
and drops the third chunk. -/
def skippedEvents : List (FifoEvent Act Oracle) :=
  [runs .client, timesOut .client, runs .server, arrives .server, runs .server, arrives .server,
    arrives .server, arrives .client, runs .client, arrives .client, runs .client, arrives .server,
    runs .server, .lose .server 0, arrives .client, runs .client, arrives .server, arrives .server]

theorem chunk_skipped :
    ∃ n, Run (fifoStep (machine idleApp)) anyStep
        (fileStart (SockLib.zero.udpInit 1) (SockLib.zero.udpInit 1) skippedFile 3073)
        skippedEvents n ∧ ¬ fileWritten (n.node .server) <+: skippedFile :=
  exists_run_of_exec_any (by decide +kernel)

end Sample3
end FileTransfer
