import FileTransfer.Lib.Network
import FileTransfer.Udp.StopAndWait

/-!
# Steps of one direction

`SendStep` and `RecvStep` list what an endpoint may do to the sending and to the receiving half of one
direction; everything else it does on the socket leaves the half alone.  `Exchanges.run` is the rule
the builds use: when every step of a run is of this kind, the two halves stay linked.
-/

namespace FileTransfer
namespace Udp

/-- The sending half. -/
structure Sending where
  mode : Mode
  sendSeq : Int
  passed : List Message

/-- The receiving half. -/
structure Receiving where
  prevRecvSeq : Int
  returned : List (Udppacket × Origin)

def messages (w : List Datagram) : List Datagram := w.filter Datagram.isMessage
def ackNumbers (w : List Datagram) : List Int := w.filterMap Datagram.ackNumber

/-- The direction with the wire `w`, and `w'` back. -/
def view (S : Sending) (R : Receiving) (w w' : List Datagram) : View where
  mode := S.mode
  sendSeq := S.sendSeq
  passed := S.passed
  prevRecvSeq := R.prevRecvSeq
  returned := R.returned
  data := messages w
  acks := ackNumbers w'

/-- What a step of the endpoint does to its sending half: the half before, the datagram taken, the half
after and the datagrams sent.  `prev` is the peer's `prev_Recv_Seq`. -/
inductive SendStep (prev : Int) : Sending → Option Datagram → Sending → List Datagram → Prop where
  | stay {S d? out} : messages out = [] → SendStep prev S d? S out
  /-- a sending function begins -/
  | pass {S m d} : S.mode = .idle → d.origin = .message m → d.pkt = ⟨S.sendSeq, m.data⟩ →
      SendStep prev S none { S with mode := .waiting, passed := S.passed ++ [m] } [d]
  /-- it sends its message again -/
  | again {S m d} : S.mode = .waiting → S.passed.getLast? = some m → d.origin = .message m →
      d.pkt = ⟨S.sendSeq, m.data⟩ → SendStep prev S none S [d]
  /-- the acknowledgement of `Send_Seq` ends its wait -/
  | acknowledged {S d} : S.mode = .waiting → d.ackNumber = some S.sendSeq →
      SendStep prev S (some d) { S with mode := .draining } []
  /-- it returns -/
  | finish {S d?} : S.mode = .draining →
      SendStep prev S d? { S with mode := .idle, sendSeq := 1 - S.sendSeq } []
  /-- it returns with the end of its wait -/
  | returns {S d} : S.mode = .waiting → d.ackNumber = some S.sendSeq →
      SendStep prev S (some d) { S with mode := .idle, sendSeq := 1 - S.sendSeq } []
  /-- the program sets `Send_Seq` to zero -/
  | reset {S} : S.mode = .idle → (S.sendSeq = 0 ∨ prev ≠ 0) →
      SendStep prev S none { S with sendSeq := 0 } []

/-- What a step of the endpoint does to its receiving half. -/
inductive RecvStep : Receiving → Option Datagram → Receiving → List Datagram → Prop where
  | stay {R d? out} : ackNumbers out = [] → RecvStep R d? R out
  /-- a datagram with the last number is acknowledged again -/
  | repeats {R d? out} : ackNumbers out = [R.prevRecvSeq] → RecvStep R d? R out
  /-- a whole copy of a message with another number is returned -/
  | accepts {R d m p out} : d.origin = .message m → m.IsIn p → p.seqNo = d.pkt.seqNo →
      p.seqNo ≠ R.prevRecvSeq → ackNumbers out = [p.seqNo] →
      RecvStep R (some d) ⟨p.seqNo, R.returned ++ [(p, d.origin)]⟩ out

section Lists

variable {d : Datagram} {w w₁ w₂ : List Datagram}

@[simp] theorem messages_append : messages (w₁ ++ w₂) = messages w₁ ++ messages w₂ :=
  List.filter_append _ _

@[simp] theorem ackNumbers_append : ackNumbers (w₁ ++ w₂) = ackNumbers w₁ ++ ackNumbers w₂ :=
  List.filterMap_append

theorem messages_answer (x : Udppacket) (a : Int) : messages [.whole x (.ack a)] = [] := rfl

theorem ackNumbers_message {m : Message} (hd : d.origin = .message m) : ackNumbers [d] = [] := by
  simp [ackNumbers, Datagram.ackNumber, hd]

theorem messages_cons_message {m : Message} (hd : d.origin = .message m) :
    messages (d :: w) = d :: messages w := by
  have hmsg : d.isMessage = true := by
    simp only [Datagram.isMessage, hd]
  simp only [messages, List.filter_cons, hmsg, if_true]

theorem ackNumbers_cons_ack {a : Int} (hd : d.ackNumber = some a) :
    ackNumbers (d :: w) = a :: ackNumbers w := by
  simp only [ackNumbers, List.filterMap_cons, hd]

theorem messages_sublist (h : w₁.Sublist w₂) : (messages w₁).Sublist (messages w₂) := h.filter _

theorem ackNumbers_sublist (h : w₁.Sublist w₂) : (ackNumbers w₁).Sublist (ackNumbers w₂) :=
  h.filterMap _

end Lists

section Steps

variable {S S' : Sending} {R R' : Receiving} {w w' w₁ w₁' out : List Datagram} {d : Datagram}

/-- Losses on both wires. -/
theorem Link.lose (h : Link (view S R w w')) (hw : w₁.Sublist w) (hw' : w₁'.Sublist w') :
    Link (view S R w₁ w₁') := by
  obtain ⟨prev, start, g, hg⟩ := h
  obtain ⟨g₁, hg₁⟩ := hg.setData (messages_sublist hw)
  obtain ⟨g₂, hg₂⟩ := hg₁.setAcks (ackNumbers_sublist hw')
  exact ⟨prev, start, g₂, hg₂⟩

/-- A datagram that the endpoint takes from the wire `w'`, if it takes one. -/
def taken (d? : Option Datagram) (w' : List Datagram) : List Datagram := d?.toList ++ w'

theorem sublist_taken (d? : Option Datagram) : w'.Sublist (taken d? w') :=
  List.sublist_append_right _ _

/-- A step of the sending endpoint. -/
theorem Link.send (d? : Option Datagram) (h : Link (view S R w (taken d? w')))
    (hstep : SendStep R.prevRecvSeq S d? S' out) : Link (view S' R (w ++ out) w') := by
  -- a datagram that is not taken for anything is as good as lost
  have hlost : Link (view S R w w') := h.lose (List.Sublist.refl _) (sublist_taken d?)
  cases hstep with
  | stay hout =>
      simp only [view, messages_append, hout, List.append_nil]
      exact hlost
  | pass hmode hd hpkt =>
      obtain ⟨prev, start, g, hg⟩ := hlost
      obtain ⟨start', g', hg'⟩ := hg.pass hmode hd hpkt
      simp only [view, messages_append, messages_cons_message hd]
      exact ⟨prev, start', g', hg'⟩
  | again hmode hlast hd hpkt =>
      obtain ⟨prev, start, g, hg⟩ := hlost
      obtain ⟨g', hg'⟩ := hg.again hmode hlast hd hpkt
      simp only [view, messages_append, messages_cons_message hd]
      exact ⟨prev, start, g', hg'⟩
  | acknowledged hmode hd =>
      obtain ⟨prev, start, g, hg⟩ := h
      obtain ⟨g', hg'⟩ := hg.acknowledged hmode (ackNumbers_cons_ack hd)
      rw [List.append_nil]
      exact ⟨prev, start, g', hg'⟩
  | finish hmode =>
      obtain ⟨prev, start, g, hg⟩ := hlost
      rw [List.append_nil]
      exact ⟨prev, start, g, hg.finish hmode⟩
  | returns hmode hd =>
      obtain ⟨prev, start, g, hg⟩ := h
      obtain ⟨g', hg'⟩ := hg.acknowledged hmode (ackNumbers_cons_ack hd)
      rw [List.append_nil]
      exact ⟨prev, start, g', hg'.finish rfl⟩
  | reset hmode hok =>
      obtain ⟨prev, start, g, hg⟩ := hlost
      rw [List.append_nil]
      exact ⟨prev, start, g, hg.reset hmode hok⟩

/-- A step of the receiving endpoint. -/
theorem Link.recv (d? : Option Datagram) (h : Link (view S R (taken d? w) w'))
    (hstep : RecvStep R d? R' out) : Link (view S R' w (w' ++ out)) := by
  -- likewise for the receiver
  have hlost : Link (view S R w w') := h.lose (sublist_taken d?) (List.Sublist.refl _)
  cases hstep with
  | stay hout =>
      simp only [view, ackNumbers_append, hout, List.append_nil]
      exact hlost
  | repeats hout =>
      obtain ⟨prev, start, g, hg⟩ := hlost
      simp only [view, ackNumbers_append, hout]
      exact ⟨prev, start, _, hg.repeatAck⟩
  | accepts hd hin hseq hne hout =>
      obtain ⟨prev, start, g, hg⟩ := h
      obtain ⟨-, g', hg'⟩ := hg.accept (messages_cons_message hd) hd hin hseq hne
      simp only [view, ackNumbers_append, hout]
      exact ⟨prev, start, g', hg'⟩

end Steps

/-! ## Runs -/

section Runs

variable {σ ι ρ : Type*} (M : Machine σ ι ρ Datagram) (send : σ → Sending) (recv : σ → Receiving)

/-- The direction from `s` to its peer. -/
def direction (s : Side) (n : Net σ Datagram) : View :=
  view (send (n.node s)) (recv (n.node s.peer)) (n.wire s) (n.wire s.peer)

/-- Every step that `ok` allows acts on the two halves of the direction from `s` as listed, when the
sending endpoint has kept `senderOk`. -/
structure Exchanges (s : Side) (senderOk : σ → Prop)
    (ok : Net σ Datagram → FifoEvent ι ρ → Prop) : Prop where
  saneAct : ∀ e i p, M.act e i = some p → ∀ d ∈ p.2, Sane d
  saneRecv : ∀ e r d p, M.recv e r d = some p → ∀ d' ∈ p.2, Sane d'
  sendAct : ∀ n i p, senderOk (n.node s) → ok n (.act s i) → M.act (n.node s) i = some p →
    senderOk p.1 ∧
      SendStep (recv (n.node s.peer)).prevRecvSeq (send (n.node s)) none (send p.1) p.2
  sendRecv : ∀ n r d rest p, senderOk (n.node s) → ok n (.deliver s r) →
    n.wire s.peer = d :: rest → M.recv (n.node s) r d = some p →
    senderOk p.1 ∧
      SendStep (recv (n.node s.peer)).prevRecvSeq (send (n.node s)) (some d) (send p.1) p.2
  recvAct : ∀ e i p, M.act e i = some p → RecvStep (recv e) none (recv p.1) p.2
  recvRecv : ∀ n r d rest p, ok n (.deliver s.peer r) → n.wire s = d :: rest → Sane d →
    M.recv (n.node s.peer) r d = some p →
    RecvStep (recv (n.node s.peer)) (some d) (recv p.1) p.2

/-- What holds in a run, in the direction from `s`. -/
structure Linked (s : Side) (senderOk : σ → Prop) (n : Net σ Datagram) : Prop where
  sender : senderOk (n.node s)
  sane : ∀ d ∈ n.wire s, Sane d
  link : Link (direction send recv s n)

variable {M send recv} {s : Side} {senderOk : σ → Prop}
  {ok : Net σ Datagram → FifoEvent ι ρ → Prop} {n n' : Net σ Datagram}

theorem Exchanges.act_step (h : Exchanges M send recv s senderOk ok) {t : Side} {i : ι}
    {p : σ × List Datagram} (hl : Linked send recv s senderOk n) (hok : ok n (.act t i))
    (hact : M.act (n.node t) i = some p) : Linked send recv s senderOk (n.emit t p) := by
  rcases Side.eq_or_eq_peer s t with rfl | rfl
  · obtain ⟨hsender, hsend⟩ := h.sendAct n i p hl.sender hok hact
    refine ⟨?_, ?_, ?_⟩
    · rw [Net.emit_node_self]
      exact hsender
    · intro d hd
      rw [Net.emit_wire_self] at hd
      rcases List.mem_append.1 hd with hd | hd
      · exact hl.sane d hd
      · exact h.saneAct _ i p hact d hd
    · simp only [direction, Net.emit_node_self, Net.emit_node_peer, Net.emit_wire_self,
        Net.emit_wire_peer]
      exact hl.link.send none hsend
  · refine ⟨n.peer_emit_node s p ▸ hl.sender, n.peer_emit_wire s p ▸ hl.sane, ?_⟩
    simp only [direction, Net.emit_node_self, Net.emit_wire_self, Net.peer_emit_node,
      Net.peer_emit_wire]
    exact hl.link.recv none (h.recvAct _ i p hact)

theorem Exchanges.deliver_step (h : Exchanges M send recv s senderOk ok) {t : Side} {r : ρ}
    {d : Datagram} {rest : List Datagram} {p : σ × List Datagram}
    (hl : Linked send recv s senderOk n) (hok : ok n (.deliver t r))
    (hd : n.wire t.peer = d :: rest) (hrecv : M.recv (n.node t) r d = some p) :
    Linked send recv s senderOk ((n.setWire t.peer rest).emit t p) := by
  have hlink := hl.link
  unfold direction at hlink
  rcases Side.eq_or_eq_peer s t with rfl | rfl
  · -- the datagram arrives at the sender
    obtain ⟨hsender, hsend⟩ := h.sendRecv n r d rest p hl.sender hok hd hrecv
    rw [hd] at hlink
    refine ⟨?_, ?_, ?_⟩
    · rw [Net.emit_node_self]
      exact hsender
    · intro d' hd'
      rw [Net.emit_wire_self, Net.setWire_peer_wire] at hd'
      rcases List.mem_append.1 hd' with hd' | hd'
      · exact hl.sane d' hd'
      · exact h.saneRecv _ r d p hrecv d' hd'
    · simp only [direction, Net.emit_node_self, Net.emit_node_peer, Net.emit_wire_self,
        Net.emit_wire_peer, Net.setWire_node, Net.setWire_wire_self, Net.setWire_peer_wire]
      exact Link.send (some d) hlink hsend
  · -- the datagram arrives at the receiver
    rw [Side.peer_peer] at hd ⊢
    rw [hd] at hlink
    refine ⟨(n.setWire s rest).peer_emit_node s p ▸ hl.sender, ?_, ?_⟩
    · rw [Net.peer_emit_wire, Net.setWire_wire_self]
      intro d' hd'
      exact hl.sane d' (by rw [hd]; exact List.mem_cons_of_mem _ hd')
    · simp only [direction, Net.emit_node_self, Net.emit_wire_self, Net.peer_emit_node,
        Net.peer_emit_wire, Net.setWire_node, Net.setWire_wire_self, Net.setWire_wire_peer]
      exact Link.recv (some d) hlink
        (h.recvRecv n r d rest p hok hd (hl.sane d (by simp [hd])) hrecv)

theorem Linked.lose (hl : Linked send recv s senderOk n) (t : Side) (k : Nat) :
    Linked send recv s senderOk (n.setWire t ((n.wire t).eraseIdx k)) := by
  have hsub : ∀ u, ((n.setWire t ((n.wire t).eraseIdx k)).wire u).Sublist (n.wire u) := by
    intro u
    rcases Side.eq_or_eq_peer t u with rfl | rfl
    · rw [Net.setWire_wire_self]
      exact List.eraseIdx_sublist _ _
    · rw [Net.setWire_wire_peer]
  exact ⟨hl.sender, fun d hd => hl.sane d ((hsub s).subset hd), hl.link.lose (hsub s) (hsub s.peer)⟩

/-- The two halves stay linked. -/
theorem Exchanges.run (h : Exchanges M send recv s senderOk ok) {evs : List (FifoEvent ι ρ)}
    (hl : Linked send recv s senderOk n) (hrun : Run (fifoStep M) ok n evs n') :
    Linked send recv s senderOk n' := by
  refine hrun.invariant ?_ hl
  intro t ev u hlt hok hstep
  cases ev with
  | act x i =>
      obtain ⟨p, hact, rfl⟩ := fifoStep_act.1 hstep
      exact h.act_step hlt hok hact
  | deliver x r =>
      obtain ⟨d, rest, p, hd, hrecv, rfl⟩ := fifoStep_deliver.1 hstep
      exact h.deliver_step hlt hok hd hrecv
  | lose x k =>
      obtain ⟨-, rfl⟩ := fifoStep_lose.1 hstep
      exact hlt.lose x k

theorem ne_of_bit {a b : Int} (ha : a = 0 ∨ a = 1) (hb : b ≠ 0 ∧ b ≠ 1) : a ≠ b := by
  rcases ha with rfl | rfl
  · exact hb.1.symm
  · exact hb.2.symm

/-- Nothing has been passed or returned, and the first number is not the last one. -/
theorem Linked.start (hsender : senderOk (n.node s)) (hmode : (send (n.node s)).mode = .idle)
    (hpassed : (send (n.node s)).passed = []) (hreturned : (recv (n.node s.peer)).returned = [])
    (hwire : ∀ t, n.wire t = [])
    (hbit : (send (n.node s)).sendSeq = 0 ∨ (send (n.node s)).sendSeq = 1)
    (hne : (send (n.node s)).sendSeq ≠ (recv (n.node s.peer)).prevRecvSeq) :
    Linked send recv s senderOk n where
  sender := hsender
  sane d hd := by
    rw [hwire] at hd
    cases hd
  link := by
    unfold direction
    rw [hwire, hwire]
    exact link_start hmode hpassed hreturned rfl rfl hbit hne

/-- Between two messages the number of the sender is not the last one that its peer returned. -/
theorem Exchanges.sendSeq_ne (h : Exchanges M send recv s senderOk ok) {evs : List (FifoEvent ι ρ)}
    (hl : Linked send recv s senderOk n) (hrun : Run (fifoStep M) ok n evs n')
    (hidle : (send (n'.node s)).mode = .idle) :
    (send (n'.node s)).sendSeq ≠ (recv (n'.node s.peer)).prevRecvSeq :=
  (h.run hl hrun).link.sendSeq_ne hidle

end Runs

end Udp
end FileTransfer
