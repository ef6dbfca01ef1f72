import FileTransfer.Sample3.ReceiverLink

/-!
# A link between two endpoints

`LinkAt n s w b g` relates the data that flows from `s` to its peer, in the network state `n`, to the
abstract state `g`: the sender's part, the receiver's part, and the two queues of a lossy network.  The two
ends may count from different numbers as long as nothing is submitted.
`LinkAt.step` says that every event that meets `LinkOk` keeps the relation; what it does to the payloads
handed over is recorded in `Progress`.
-/

namespace FileTransfer
namespace Sample3

/-- The receiver expects the sender's next number, or takes any. -/
def Agree (sender receiver : SockLib) : Prop :=
  receiver.lastSeq = -1 ∨ sender.seq.toNat % 32 = (receiver.lastSeq.toNat + 1) % 32

instance (sender receiver : SockLib) : Decidable (Agree sender receiver) :=
  inferInstanceAs (Decidable (_ ∨ _))

variable {π : Type*}

/-- Where a link began. -/
structure Origin where
  /-- the sender's first number -/
  first : Nat
  /-- the number the receiver counts from -/
  start : Nat
  /-- what had been numbered before -/
  old : List Payload

/-- The receiver expects the sender's first packet. -/
def Origin.Aligned (b : Origin) : Prop := b.first % 32 = b.start % 32

structure LinkAt (n : Net (Endpoint π) Datagram) (s : Side) (w : Nat) (b : Origin)
    (g : GoBackN.State Payload) : Prop where
  inv : GoBackN.Inv 32 w g
  send : SendPart w b.first b.old g (n.node s)
  recv : RecvPart b.start g (n.node s.peer)
  aligned : g.submitted ≠ [] → b.Aligned
  data : List.Forall₂ (IsData b.first g.submitted) g.data (dataOn (n.wire s))
  replies : List.Forall₂ (IsReply b.start) g.replies (repliesOn (n.wire s.peer))

/-- A packet arrives where the numbers stay sound: see `SendTakes`, `RecvTakes` and `LingerTakes`. -/
def Takes (e : Endpoint π) (o : Oracle) (d : Datagram) : Prop :=
  match e.ctl with
  | .udpSendtoEx _ _ => SendTakes e.lib o.beyond d
  | .sockRecvfrom _ _ _ => RecvTakes e.lib d
  | .srvWait4cnn _ => LingerTakes e.lib d
  | .udpSendto _ _ _ => False
  | .serverHandshake => False
  | _ => True

instance : (e : Endpoint π) → (o : Oracle) → (d : Datagram) → Decidable (Takes e o d)
  | ⟨s, .udpSendtoEx _ _, _, _⟩, o, d => inferInstanceAs (Decidable (SendTakes s o.beyond d))
  | ⟨s, .sockRecvfrom _ _ _, _, _⟩, _, d => inferInstanceAs (Decidable (RecvTakes s d))
  | ⟨s, .srvWait4cnn _, _, _⟩, _, d => inferInstanceAs (Decidable (LingerTakes s d))
  | ⟨_, .udpSendto _ _ _, _, _⟩, _, _ | ⟨_, .serverHandshake, _, _⟩, _, _ =>
      inferInstanceAs (Decidable False)
  | ⟨_, .idle, _, _⟩, _, _ | ⟨_, .sendFile _ _, _, _⟩, _, _ | ⟨_, .sendFileLast, _, _⟩, _, _
  | ⟨_, .sockSendtoEx, _, _⟩, _, _ | ⟨_, .recvFile _ _, _, _⟩, _, _ =>
      inferInstanceAs (Decidable True)

/-- The condition on one event that keeps the links of a session sound. -/
def LinkOk (A : App π) (n : Net (Endpoint π) Datagram) : FifoEvent Act Oracle → Prop
  | .act t _ => ∀ c ∈ (n.node t).nextCall A, ¬ c.Restarts
  | .deliver t o => ∀ d ∈ (n.wire t.peer).head?, Takes (n.node t) o d
  | .lose _ _ => True

/-- The step of the sender numbers the first packet of the link. -/
def NumbersFirst (n n' : Net (Endpoint π) Datagram) (s : Side) (g : GoBackN.State Payload) : Prop :=
  g.submitted = [] ∧ numberedData (n'.node s).log ≠ numberedData (n.node s).log

/-- What an event does at the receiving end of a link: it hands nothing over, or it accepts the packet
that was next on the wire. -/
def Progress (n : Net (Endpoint π) Datagram) (s : Side) (ev : FifoEvent Act Oracle) (start : Nat)
    (g g' : GoBackN.State Payload) (e' : Endpoint π) : Prop :=
  HandsNothing g g' (n.node s.peer) e' ∨
    ∃ o d rest, ev = .deliver s.peer o ∧ n.wire s = d :: rest ∧
      HandsOver start g g' (n.node s.peer) e' d

/-- The link after an event. -/
structure LinkAfter (n : Net (Endpoint π) Datagram) (ev : FifoEvent Act Oracle)
    (n' : Net (Endpoint π) Datagram) (s : Side) (w : Nat) (b : Origin)
    (g g' : GoBackN.State Payload) : Prop where
  link : LinkAt n' s w b g'
  submitted : g.submitted <+: g'.submitted
  progress : Progress n s ev b.start g g' (n'.node s.peer)
  set : (n.node s.peer).lib.lastSeq ≠ -1 → (n'.node s.peer).lib.lastSeq ≠ -1

section

variable {A : App π} {n n' : Net (Endpoint π) Datagram} {s : Side} {w start : Nat} {b : Origin}
  {g g' : GoBackN.State Payload} {e e' : Endpoint π} {i : Act} {o : Oracle} {d : Datagram}
  {p : Endpoint π × List Datagram} {ev : FifoEvent Act Oracle}

theorem forall₂_isData_mono {sub sub' : List Payload} (hsub : sub <+: sub') {ns : List Nat}
    {l : List UdpPacket} (h : List.Forall₂ (IsData start sub) ns l) :
    List.Forall₂ (IsData start sub') ns l :=
  h.imp fun _ _ h => h.mono hsub

theorem RecvPart.of_send (h : RecvPart start g e) (hexp : g'.expected = g.expected)
    (hrep : g'.replies = g.replies) (hsub : g.submitted <+: g'.submitted) :
    RecvPart start g' e := by
  refine ⟨?_, ?_, ?_⟩
  · rw [hexp, hrep]
    exact h.unset
  · rw [hexp]
    exact h.set
  · rw [hexp]
    intro hpos
    obtain ⟨d, hd, hsite, hdata⟩ := h.last hpos
    exact ⟨d, hd, hsite, hdata.mono hsub⟩

/-- The link after a step of its sender. -/
theorem LinkAt.emit_sender (h : LinkAt n s w b g) (hs : SendStep w b.first b.old g g' p.1 p.2)
    (hfirst : NumbersFirst n (n.emit s p) s g → b.Aligned) : LinkAt (n.emit s p) s w b g' := by
  obtain ⟨ns, hns, hmatch⟩ := hs.data
  have haligned : g'.submitted ≠ [] → b.Aligned := by
    intro hne
    by_cases hnil : g.submitted = []
    · -- the history has grown by what was submitted
      refine hfirst ⟨hnil, ?_⟩
      rw [Net.emit_node_self, hs.part.submitted, h.send.submitted, hnil, List.append_nil]
      simpa using hne
    · exact h.aligned hnil
  refine ⟨hs.inv, by simpa using hs.part, ?_, haligned, ?_, ?_⟩
  · rw [Net.emit_node_peer]
    exact h.recv.of_send hs.expected hs.replies hs.submitted
  · rw [Net.emit_wire_self, dataOn_append, hns]
    exact List.rel_append (forall₂_isData_mono hs.submitted h.data) hmatch
  · rw [Net.emit_wire_peer, hs.replies]
    exact h.replies

/-- The link after a step of its receiver without a packet. -/
theorem LinkAt.emit_quiet (h : LinkAt n s w b g) (hq : Quiet (n.node s.peer) p) :
    LinkAt (n.emit s.peer p) s w b g := by
  refine ⟨h.inv, by rw [Net.peer_emit_node]; exact h.send, ?_, h.aligned,
    by rw [Net.peer_emit_wire]; exact h.data, ?_⟩
  · rw [Net.emit_node_self]
    exact hq.recvPart h.recv
  · rw [Net.emit_wire_self, repliesOn_append, hq.repliesOn, List.append_nil]
    exact h.replies

theorem mem_dataOn {wire : List Datagram} (hd : d ∈ wire) (hsite : d.site = .window) :
    d.pkt ∈ dataOn wire := by
  simp only [dataOn, List.mem_map, List.mem_filter, decide_eq_true_eq]
  exact ⟨d, ⟨hd, hsite⟩, rfl⟩

theorem mem_repliesOn {wire : List Datagram} (hd : d ∈ wire) (hsite : d.site = .sendAck) :
    d.pkt ∈ repliesOn wire := by
  simp only [repliesOn, List.mem_map, List.mem_filter, decide_eq_true_eq]
  exact ⟨d, ⟨hd, hsite⟩, rfl⟩

/-- Data packets and replies on the wires of a link have the types they should have. -/
theorem LinkAt.wellTyped_window (h : LinkAt n s w b g) (hd : d ∈ n.wire s)
    (hsite : d.site = .window) : WellTyped d := by
  obtain ⟨m, -, hdata⟩ := exists_mem_of_forall₂ h.data (mem_dataOn hd hsite)
  simpa [WellTyped, hsite] using hdata.2.1

theorem LinkAt.wellTyped_sendAck (h : LinkAt n s w b g) (hd : d ∈ n.wire s.peer)
    (hsite : d.site = .sendAck) : WellTyped d := by
  obtain ⟨m, -, hreply⟩ := exists_mem_of_forall₂ h.replies (mem_repliesOn hd hsite)
  rcases hreply with ⟨htype, -⟩ | ⟨htype | htype, -⟩ <;> simp [WellTyped, hsite, htype, AckType.IsAnswer]

/-! ## One event -/

theorem LinkAt.act_sender (h : LinkAt n s w b g)
    (hcall : ∀ c ∈ (n.node s).nextCall A, ¬ c.Restarts)
    (hfirst : NumbersFirst n (n.emit s p) s g → b.Aligned)
    (hact : (machine A).act (n.node s) i = some p) :
    ∃ g', LinkAfter n ev (n.emit s p) s w b g g' := by
  obtain ⟨g', hs⟩ := sendStep_act h.inv h.send hcall hact
  have hpeer : (n.emit s p).node s.peer = n.node s.peer := n.emit_node_peer s p
  refine ⟨g', h.emit_sender hs hfirst, hs.submitted, Or.inl ⟨hs.expected, by rw [hpeer]⟩, ?_⟩
  rw [hpeer]
  exact id

theorem not_isInit_of_not_restarts {c : Call} (h : ¬ c.Restarts) : ¬ c.IsInit := by
  cases c <;> simp_all [Call.Restarts, Call.IsInit]

theorem LinkAt.act_receiver (h : LinkAt n s w b g)
    (hcall : ∀ c ∈ (n.node s.peer).nextCall A, ¬ c.Restarts)
    (hact : (machine A).act (n.node s.peer) i = some p) :
    ∃ g', LinkAfter n ev (n.emit s.peer p) s w b g g' := by
  have hq := quiet_act (fun c hc => not_isInit_of_not_restarts (hcall c hc)) hact
  refine ⟨g, h.emit_quiet hq, List.prefix_refl _, Or.inl ⟨rfl, ?_⟩, ?_⟩
  · rw [Net.emit_node_self]
    exact hq.handedData
  · rw [Net.emit_node_self, hq.lastSeq]
    exact id

/-- A reply, or something else, reaches the sender. -/
theorem LinkAt.deliver_sender (h : LinkAt n s w b g) {rest : List Datagram}
    (hwire : n.wire s.peer = d :: rest) (htakes : Takes (n.node s) o d)
    (hrecv : (machine A).recv (n.node s) o d = some p) :
    ∃ g', LinkAfter n ev ((n.setWire s.peer rest).emit s p) s w b g g' := by
  have hctl : ¬ (n.node s).ctl.Restarts := by
    unfold Takes at htakes
    split at htakes <;> rename_i heq <;> simp_all [Control.Restarts]
  have hsend : ∀ l k, (n.node s).ctl = .udpSendtoEx l k → SendTakes (n.node s).lib o.beyond d := by
    intro l k heq
    simpa [Takes, heq] using htakes
  have hreplies := h.replies
  rw [hwire, repliesOn_cons] at hreplies
  -- the link once the datagram has left the wire
  have hpop : ∃ g₁, LinkAt (n.setWire s.peer rest) s w b g₁ ∧
      g₁.submitted = g.submitted ∧ g₁.expected = g.expected ∧
      (d.site = .sendAck → IsReply b.start g₁.low d.pkt) := by
    by_cases hsite : d.site = .sendAck
    · rw [if_pos hsite] at hreplies
      cases hg : g.replies with
      | nil =>
          rw [hg] at hreplies
          cases hreplies
      | cons x xs =>
          rw [hg] at hreplies
          cases hreplies with
          | cons hhead htail =>
              refine ⟨g.hear x xs, ⟨h.inv.hear hg, h.send.hear h.inv hg, ?_, h.aligned, ?_, ?_⟩, rfl,
                rfl, fun _ => hhead⟩
              · refine ⟨?_, h.recv.set, h.recv.last⟩
                intro hu
                have := (h.recv.unset hu).2
                rw [hg] at this
                cases this
              · rw [Net.setWire_peer_wire]
                exact h.data
              · rw [Net.setWire_wire_self]
                exact htail
    · rw [if_neg hsite] at hreplies
      refine ⟨g, ⟨h.inv, h.send, h.recv, h.aligned, ?_, ?_⟩, rfl, rfl, fun hs => absurd hs hsite⟩
      · rw [Net.setWire_peer_wire]
        exact h.data
      · rw [Net.setWire_wire_self]
        exact hreplies
  obtain ⟨g₁, h₁, hsub, hexp, hreply⟩ := hpop
  -- a sender that waits has submitted something, so that both ends count alike
  obtain ⟨g', hs⟩ := sendStep_recv h₁.inv h₁.send hctl hsend
    (fun hne hsite => (hreply hsite).recount (h₁.aligned hne).symm) hrecv
  have hpeer : ((n.setWire s.peer rest).emit s p).node s.peer = n.node s.peer := by
    rw [Net.emit_node_peer, Net.setWire_node]
  have hsame : ¬ NumbersFirst (n.setWire s.peer rest) ((n.setWire s.peer rest).emit s p) s g₁ := by
    rintro ⟨-, hnew⟩
    rw [Net.emit_node_self, Net.setWire_node] at hnew
    exact hnew (numberedData_of_recv hrecv)
  refine ⟨g', h₁.emit_sender hs fun hfirst => absurd hfirst hsame, hsub ▸ hs.submitted,
    Or.inl ⟨hs.expected.trans hexp, by rw [hpeer]⟩, ?_⟩
  rw [hpeer]
  exact id

/-- A packet reaches the receiver. -/
theorem LinkAt.deliver_receiver (h : LinkAt n s w b g) {rest : List Datagram}
    (hwire : n.wire s = d :: rest) (htyped : WellTyped d) (htakes : Takes (n.node s.peer) o d)
    (hrecv : (machine A).recv (n.node s.peer) o d = some p) :
    ∃ g', LinkAfter n (.deliver s.peer o) ((n.setWire s rest).emit s.peer p) s w b g g' := by
  -- what the receiver takes here is no handshake
  have hctl : ¬ (n.node s.peer).ctl.Restarts := by
    unfold Takes at htakes
    split at htakes <;> rename_i heq <;> simp_all [Control.Restarts]
  have hdata := h.data
  rw [hwire, dataOn_cons] at hdata
  -- a packet of the window is the oldest number on its way
  have harr : ∃ ns, Arrival b.start g d ns ∧
      List.Forall₂ (IsData b.first g.submitted) ns (dataOn rest) := by
    by_cases hsite : d.site = .window
    · rw [if_pos hsite] at hdata
      cases hg : g.data with
      | nil =>
          rw [hg] at hdata
          cases hdata
      | cons m ms =>
          rw [hg] at hdata
          cases hdata with
          | cons hhead htail =>
              have hne : g.submitted ≠ [] := List.length_pos_iff.1 (Nat.zero_lt_of_lt hhead.lt)
              exact ⟨ms, .data hsite hg (hhead.recount (h.aligned hne)), htail⟩
    · rw [if_neg hsite] at hdata
      exact ⟨g.data, .other hsite, hdata⟩
  obtain ⟨ns, harr, hrest⟩ := harr
  obtain ⟨g', hs⟩ := recvStep_recv h.inv h.recv harr htyped hctl
    (fun l k heq => by simpa [Takes, heq] using htakes)
    (fun left got k heq => by simpa [Takes, heq] using htakes)
    (fun sec heq => by simpa [Takes, heq] using htakes) hrecv
  obtain ⟨xs, hxs, hmatch⟩ := hs.replies
  refine ⟨g', ⟨hs.inv, ?_, ?_, hs.submitted ▸ h.aligned, ?_, ?_⟩, ⟨[], by simp [hs.submitted]⟩, ?_, ?_⟩
  · rw [Net.peer_emit_node, Net.setWire_node]
    exact ⟨by rw [hs.submitted]; exact h.send.submitted,
      by rw [hs.submitted, hs.base]; exact h.send.base,
      by rw [hs.submitted, hs.base, hs.low]; exact h.send.ctl⟩
  · rw [Net.emit_node_self]
    exact hs.part
  · rw [Net.peer_emit_wire, Net.setWire_wire_self, hs.data, hs.submitted]
    exact hrest
  · rw [Net.emit_wire_self, Net.setWire_wire_peer, repliesOn_append, hxs]
    exact List.rel_append h.replies hmatch
  · rw [Net.emit_node_self]
    rcases hs.hands with hands | hands
    · exact Or.inl hands
    · exact Or.inr ⟨o, d, rest, rfl, hwire, hands⟩
  · rw [Net.emit_node_self]
    exact hs.set

/-- A datagram of the sender is lost. -/
theorem LinkAt.lose_sender (h : LinkAt n s w b g) (k : Nat) :
    ∃ g', LinkAfter n ev (n.setWire s ((n.wire s).eraseIdx k)) s w b g g' := by
  obtain ⟨ns, hns, hmatch⟩ := forall₂_of_sublist h.data (dataOn_eraseIdx (n.wire s) k)
  refine ⟨g.setData ns, ⟨h.inv.dropData hns, ⟨h.send.submitted, h.send.base, h.send.ctl⟩,
    ⟨h.recv.unset, h.recv.set, h.recv.last⟩, h.aligned, ?_, ?_⟩, List.prefix_refl _,
    Or.inl ⟨rfl, rfl⟩, id⟩
  · rw [Net.setWire_wire_self]
    exact hmatch
  · rw [Net.setWire_wire_peer]
    exact h.replies

/-- A datagram of the receiver is lost. -/
theorem LinkAt.lose_receiver (h : LinkAt n s w b g) (k : Nat) :
    ∃ g', LinkAfter n ev (n.setWire s.peer ((n.wire s.peer).eraseIdx k)) s w b g g' := by
  obtain ⟨xs, hxs, hmatch⟩ := forall₂_of_sublist h.replies (repliesOn_eraseIdx (n.wire s.peer) k)
  refine ⟨g.setReplies xs, ⟨h.inv.dropReplies hxs, ⟨h.send.submitted, h.send.base, h.send.ctl⟩,
    ⟨?_, h.recv.set, h.recv.last⟩, h.aligned, ?_, ?_⟩, List.prefix_refl _, Or.inl ⟨rfl, rfl⟩, id⟩
  · intro hu
    obtain ⟨h1, h2⟩ := h.recv.unset hu
    rw [h2] at hxs
    exact ⟨h1, List.sublist_nil.1 hxs⟩
  · rw [Net.setWire_peer_wire]
    exact h.data
  · rw [Net.setWire_wire_self]
    exact hmatch

/-- Every event that meets `LinkOk` keeps the link. -/
theorem LinkAt.step (h : LinkAt n s w b g) (htyped : ∀ d ∈ n.wire s, WellTyped d)
    (hok : LinkOk A n ev) (hfirst : NumbersFirst n n' s g → b.Aligned)
    (hstep : fifoStep (machine A) n ev = some n') :
    ∃ g', LinkAfter n ev n' s w b g g' := by
  cases ev with
  | act t i =>
      obtain ⟨p, hact, rfl⟩ := fifoStep_act.1 hstep
      rcases Side.eq_or_eq_peer s t with rfl | rfl
      · exact h.act_sender hok hfirst hact
      · exact h.act_receiver hok hact
  | deliver t o =>
      obtain ⟨d, rest, p, hwire, hrecv, rfl⟩ := fifoStep_deliver.1 hstep
      have htakes := hok d (by simp [hwire])
      rcases Side.eq_or_eq_peer s t with rfl | rfl
      · exact h.deliver_sender hwire htakes hrecv
      · rw [Side.peer_peer] at hwire ⊢
        exact h.deliver_receiver hwire (htyped d (by rw [hwire]; exact List.mem_cons_self)) htakes
          hrecv
  | lose t k =>
      obtain ⟨-, rfl⟩ := fifoStep_lose.1 hstep
      rcases Side.eq_or_eq_peer s t with rfl | rfl
      · exact h.lose_sender k
      · exact h.lose_receiver k

end

end Sample3
end FileTransfer
