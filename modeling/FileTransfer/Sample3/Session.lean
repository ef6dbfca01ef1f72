import FileTransfer.Sample3.Link

/-!
# Sessions

Two endpoints after `udp_init`, each running a program of its own.  A session keeps both links sound
over every run whose events meet `SessionOk`: handshakes and new objects only while the session is `Drained`,
and packets only where `Takes` allows them.  A link begins anew with each of them.  A program that then
numbers a packet its peer does not expect leaves the session.
-/

namespace FileTransfer
namespace Sample3

variable {π : Type*}

/-- Control states inside the sending functions. -/
def Control.Sending : Control → Prop
  | .sendFile _ _ => True
  | .sendFileLast => True
  | .sockSendtoEx => True
  | .udpSendtoEx _ _ => True
  | _ => False

/-- Nobody is sending, both windows are empty, and neither data nor replies are on the way. -/
def Drained (n : Net (Endpoint π) Datagram) : Prop :=
  ∀ s, ¬ (n.node s).ctl.Sending ∧ (n.node s).lib.winBufPos = 0 ∧ dataOn (n.wire s) = [] ∧
    repliesOn (n.wire s) = []

/-- The window size of a new object is one that five-bit numbers can tell apart. -/
def Call.WindowOk : Call → Prop
  | .udpInit windowSize _ => 1 ≤ windowSize ∧ windowSize ≤ 31
  | _ => True

/-- The condition on one event of a session. -/
def SessionOk (A : App π) (n : Net (Endpoint π) Datagram) : FifoEvent Act Oracle → Prop
  | .act t _ => ∀ c ∈ (n.node t).nextCall A, c.Restarts → Drained n ∧ c.WindowOk
  | .deliver t o => ∀ d ∈ (n.wire t.peer).head?,
      ((n.node t).ctl.Restarts → Drained n) ∧ (¬ (n.node t).ctl.Restarts → Takes (n.node t) o d)
  | .lose _ _ => True

/-- A packet is numbered into an empty window only where the peer expects its number, or any. -/
def NumbersOk (A : App π) (n : Net (Endpoint π) Datagram) : FifoEvent Act Oracle → Prop
  | .act t _ => (n.node t).Numbers A → (n.node t).lib.winBufPos = 0 →
      Agree (n.node t).lib (n.node t.peer).lib
  | _ => True

instance : DecidablePred Control.Sending
  | .sendFile _ _ | .sendFileLast | .sockSendtoEx | .udpSendtoEx _ _ => inferInstanceAs (Decidable True)
  | .idle | .recvFile _ _ | .udpSendto _ _ _ | .sockRecvfrom _ _ _ | .serverHandshake
  | .srvWait4cnn _ => inferInstanceAs (Decidable False)

instance (n : Net (Endpoint π) Datagram) : Decidable (Drained n) :=
  inferInstanceAs (Decidable (∀ _ : Side, _ ∧ _ ∧ _ ∧ _))

instance : DecidablePred Call.WindowOk
  | .udpInit _ _ => inferInstanceAs (Decidable (_ ∧ _))
  | .clientHandshake _ _ | .serverHandshake _ | .sockSendtoEx _ _ | .sendFile _ | .sockRecvfrom _
  | .recvFile _ _ | .srvWait4cnn _ => inferInstanceAs (Decidable True)

instance (A : App π) (n : Net (Endpoint π) Datagram) : DecidablePred (SessionOk A n)
  | .act t _ => inferInstanceAs (Decidable (∀ c ∈ (n.node t).nextCall A, _ → _))
  | .deliver t _ => inferInstanceAs (Decidable (∀ d ∈ (n.wire t.peer).head?, _ ∧ _))
  | .lose _ _ => inferInstanceAs (Decidable True)

instance (A : App π) (n : Net (Endpoint π) Datagram) : DecidablePred (NumbersOk A n)
  | .act _ _ => inferInstanceAs (Decidable (_ → _ → _))
  | .deliver _ _ | .lose _ _ => inferInstanceAs (Decidable True)

/-- The packets that are neither data nor replies have the types they should have. -/
structure Typed (n : Net (Endpoint π) Datagram) : Prop where
  wire : ∀ s, ∀ d ∈ n.wire s, d.site ≠ .window → d.site ≠ .sendAck → WellTyped d
  ctl : ∀ s udp retryCnt hs, (n.node s).ctl = .udpSendto udp retryCnt hs →
    udp.ackType = .handshake

/-- Both links are sound.  Where a link has not been used, the receiver may expect another number than the
sender's as long as the sender is one of `P`. -/
structure Session (P : Endpoint π → Prop) (n : Net (Endpoint π) Datagram) : Prop where
  links : ∀ s, ∃ w b g, LinkAt n s w b g ∧ (P (n.node s) ∨ b.Aligned)
  typed : Typed n

section

variable {P : Endpoint π → Prop} {A : App π} {n n' : Net (Endpoint π) Datagram} {s t : Side} {w : Nat}
  {b : Origin} {g : GoBackN.State Payload} {e : Endpoint π} {i : Act} {o : Oracle} {d : Datagram}
  {p : Endpoint π × List Datagram} {ev : FifoEvent Act Oracle}

theorem Session.wellTyped (h : Session P n) {s : Side} {d : Datagram} (hd : d ∈ n.wire s) :
    WellTyped d := by
  by_cases hwindow : d.site = .window
  · obtain ⟨w, b, g, hlink, -⟩ := h.links s
    exact hlink.wellTyped_window hd hwindow
  · by_cases hack : d.site = .sendAck
    · obtain ⟨w, b, g, hlink, -⟩ := h.links s.peer
      exact hlink.wellTyped_sendAck (by rwa [Side.peer_peer]) hack
    · exact h.typed.wire s d hd hwindow hack

/-! ## The beginning of a link -/

/-- A link on which nothing is on the way. -/
structure Idle (n : Net (Endpoint π) Datagram) (s : Side) : Prop where
  size : 1 ≤ (n.node s).lib.wSize ∧ (n.node s).lib.wSize ≤ 31
  empty : (n.node s).lib.winBufPos = 0
  ctl : ¬ (n.node s).ctl.Sending
  data : dataOn (n.wire s) = []
  replies : repliesOn (n.wire s.peer) = []

theorem ctlPart_of_not_sending {sub : List Payload} {base low : Nat} {lib : SockLib} {c : Control}
    (h : ¬ c.Sending) : CtlPart sub base low lib c := by
  cases c <;> simp_all [Control.Sending, CtlPart]

/-- The link begins anew there: the receiver counts from the number it expects, or from the sender's. -/
theorem Idle.linkAt (h : Idle n s) :
    ∃ b, LinkAt n s (n.node s).lib.wSize b .init ∧
      (Agree (n.node s).lib (n.node s.peer).lib → b.Aligned) := by
  let start := if (n.node s.peer).lib.lastSeq = -1 then (n.node s).lib.seq.toNat
    else (n.node s.peer).lib.lastSeq.toNat + 1
  refine ⟨⟨(n.node s).lib.seq.toNat, start, numberedData (n.node s).log⟩,
    ⟨.init (by have := h.size; omega), ⟨?_, ⟨rfl, h.size.1, rfl, h.empty, ?_, ?_, ?_⟩,
      ctlPart_of_not_sending h.ctl⟩, ⟨fun _ => ⟨rfl, rfl⟩, ?_, ?_⟩, ?_, ?_, ?_⟩, ?_⟩
  · exact (List.append_nil _).symm
  · rw [h.empty]
    exact Nat.zero_le _
  · intro i hi
    rw [h.empty] at hi
    omega
  · intro hne
    exact absurd rfl hne
  · intro hset
    simp only [start, if_neg hset]
    rfl
  · intro hpos
    exact absurd hpos (lt_irrefl 0)
  · intro hne
    exact absurd rfl hne
  · rw [h.data]
    exact .nil
  · rw [h.replies]
    exact .nil
  · intro hagree
    by_cases hunset : (n.node s.peer).lib.lastSeq = -1
    · simp [Origin.Aligned, start, hunset]
    · simpa [Origin.Aligned, start, hunset] using hagree.resolve_left hunset

/-- In a drained session both links may begin anew. -/
theorem Session.idle (h : Session P n) (hdrained : Drained n) (s : Side) : Idle n s := by
  obtain ⟨w, b, g, hlink, -⟩ := h.links s
  have hsize := hlink.send.base.wSize_eq
  have hpos := hlink.send.base.wSize_pos
  have hlt := hlink.inv.window_lt
  exact ⟨by omega, (hdrained s).2.1, (hdrained s).1, (hdrained s).2.2.1, (hdrained s.peer).2.2.2⟩

/-- A link that has not been used begins where its two ends agree. -/
theorem LinkAt.align (h : LinkAt n s w b g) (hnil : g.submitted = [])
    (hagree : Agree (n.node s).lib (n.node s.peer).lib) : ∃ b', b'.Aligned ∧ LinkAt n s w b' g := by
  have h1 := h.inv.expected_le
  have hseq := h.send.base.seq_mod
  rw [hnil, List.length_nil] at h1 hseq
  by_cases hunset : (n.node s.peer).lib.lastSeq = -1
  · obtain ⟨hexp, hreplies⟩ := h.recv.unset hunset
    refine ⟨{ b with start := b.first }, rfl, h.inv, h.send,
      ⟨fun _ => ⟨hexp, hreplies⟩, fun hset => absurd hunset hset, ?_⟩, fun _ => rfl, h.data, ?_⟩
    · intro hpos
      omega
    · have hnone := h.replies
      rw [hreplies] at hnone ⊢
      cases hwire : repliesOn (n.wire s.peer) with
      | nil => exact .nil
      | cons _ _ =>
          rw [hwire] at hnone
          cases hnone
  · have hset := h.recv.set hunset
    have hexpected := hagree.resolve_left hunset
    have haligned : b.first % 32 = b.start % 32 := by
      have h0 : g.expected = 0 := by omega
      rw [h0] at hset
      omega
    exact ⟨b, haligned, h⟩

/-- What a step that gives an object new numbers leaves in place in a drained session. -/
structure Restarted (e : Endpoint π) (p : Endpoint π × List Datagram) : Prop where
  size : 1 ≤ p.1.lib.wSize ∧ p.1.lib.wSize ≤ 31
  empty : p.1.lib.winBufPos = 0
  lastSeq : p.1.lib.lastSeq = -1 ∨ p.1.lib.lastSeq = e.lib.lastSeq
  ctl : ¬ p.1.ctl.Sending
  data : dataOn p.2 = []
  replies : repliesOn p.2 = []

/-- A drained session after such a step, whatever has been taken off the wires. -/
theorem Restarted.idle (hr : Restarted (n.node t) p) (hidle : ∀ s, Idle n s)
    {m : Net (Endpoint π) Datagram}
    (hnode : m.node = n.node) (hdata : ∀ s, dataOn (m.wire s) = [])
    (hreplies : ∀ s, repliesOn (m.wire s) = []) (s : Side) : Idle (m.emit t p) s := by
  rcases Side.eq_or_eq_peer s t with rfl | rfl
  · refine ⟨by rw [Net.emit_node_self]; exact hr.size, by rw [Net.emit_node_self]; exact hr.empty,
      by rw [Net.emit_node_self]; exact hr.ctl, ?_, ?_⟩
    · rw [Net.emit_wire_self, dataOn_append, hdata, hr.data]
      rfl
    · rw [Net.emit_wire_peer]
      exact hreplies _
  · have hsame : (m.emit s.peer p).node s = n.node s := by rw [Net.peer_emit_node, hnode]
    refine ⟨by rw [hsame]; exact (hidle s).size, by rw [hsame]; exact (hidle s).empty,
      by rw [hsame]; exact (hidle s).ctl, by rw [Net.peer_emit_wire]; exact hdata s, ?_⟩
    rw [Net.emit_wire_self, repliesOn_append, hreplies, hr.replies]
    rfl

theorem repliesOn_libSendto {d : Datagram} (hd : d.site ≠ .sendAck) :
    repliesOn (libSendto o [] d).1 = [] := by
  rcases libSendto_cases (o := o) d with h | h <;> rw [h]
  · rw [repliesOn_cons, if_neg hd]
    rfl
  · rfl

theorem restarted_finish (s : SockLib) (r : Int) (out : List Datagram)
    (hsize : 1 ≤ s.wSize ∧ s.wSize ≤ 31) (hempty : s.winBufPos = 0)
    (hlast : s.lastSeq = -1 ∨ s.lastSeq = e.lib.lastSeq)
    (hdata : dataOn out = []) (hreplies : repliesOn out = []) :
    Restarted e (({ e with lib := s } : Endpoint π).finishHandshake A r, out) :=
  ⟨hsize, hempty, hlast, id, hdata, hreplies⟩

/-- A call that restarts a drained session. -/
theorem restarted_begin {c : Call} (hc : c.Restarts) (hw : c.WindowOk)
    (hsize : 1 ≤ e.lib.wSize ∧ e.lib.wSize ≤ 31) (hempty : e.lib.winBufPos = 0) :
    Restarted e (e.begin A o c) := by
  cases c with
  | udpInit windowSize memory => exact ⟨hw, rfl, Or.inl rfl, id, rfl, rfl⟩
  | clientHandshake n junk =>
      unfold Endpoint.begin Endpoint.sendHandshake
      dsimp only
      split
      · exact restarted_finish _ (-1) [] hsize hempty (Or.inr rfl) rfl rfl
      · split <;> rename_i out heq
        · have hout : out = (libSendto o [] ⟨e.handshakeRequest n junk, .handshakeRequest⟩).1 := by
            rw [heq]
          refine ⟨hsize, hempty, Or.inr rfl, id, ?_, ?_⟩
          · rw [hout]
            exact dataOn_libSendto (by simp)
          · rw [hout]
            exact repliesOn_libSendto (by simp)
        · have hout : out = (libSendto o [] ⟨e.handshakeRequest n junk, .handshakeRequest⟩).1 := by
            rw [heq]
          refine restarted_finish _ (-1) out hsize hempty (Or.inr rfl) ?_ ?_
          · rw [hout]
            exact dataOn_libSendto (by simp)
          · rw [hout]
            exact repliesOn_libSendto (by simp)
  | _ => cases hc

/-- A packet that ends a handshake in a drained session. -/
theorem restarted_recv (hctl : e.ctl.Restarts) (hsize : 1 ≤ e.lib.wSize ∧ e.lib.wSize ≤ 31)
    (hempty : e.lib.winBufPos = 0) (hrecv : (machine A).recv e o d = some p) : Restarted e p := by
  rcases recv_cases hrecv with ⟨l, k, hc, -⟩ | ⟨udp, r, hs, -, rfl⟩ | ⟨left, got, k, hc, -⟩ |
    ⟨-, rfl⟩ | ⟨sec, hc, -⟩
  · rw [hc] at hctl
    cases hctl
  · unfold Endpoint.recvInHandshake
    dsimp only
    split
    · exact restarted_finish _ (-1) [] hsize hempty (Or.inr rfl) rfl rfl
    · exact restarted_finish _ 0 [] hsize hempty (Or.inl rfl) rfl rfl
  · rw [hc] at hctl
    cases hctl
  · unfold Endpoint.recvInServerHandshake
    dsimp only
    split
    · exact restarted_finish e.lib (-1) [] hsize hempty (Or.inr rfl) rfl rfl
    · refine restarted_finish _ 0 _ hsize hempty (Or.inl rfl) ?_ ?_
      · exact dataOn_libSendto (by simp [SockLib.handshakeReply])
      · exact repliesOn_libSendto (by simp [SockLib.handshakeReply])
  · rw [hc] at hctl
    cases hctl

/-! ## One event -/

theorem Typed.emit (h : Typed n) {m : Net (Endpoint π) Datagram} (hnode : m.node = n.node)
    (hwire : ∀ s, ∀ d ∈ m.wire s, d ∈ n.wire s)
    (hctl : ∀ udp retryCnt hs, p.1.ctl = .udpSendto udp retryCnt hs → udp.ackType = .handshake)
    (hout : ∀ d ∈ p.2, d.site ≠ .window → d.site ≠ .sendAck → WellTyped d) :
    Typed (m.emit t p) := by
  refine ⟨?_, ?_⟩
  · intro s d hd
    rcases Side.eq_or_eq_peer t s with rfl | rfl
    · rw [Net.emit_wire_self] at hd
      rcases List.mem_append.1 hd with hd | hd
      · exact h.wire _ d (hwire _ d hd)
      · exact hout d hd
    · rw [Net.emit_wire_peer] at hd
      exact h.wire _ d (hwire _ d hd)
  · intro s
    rcases Side.eq_or_eq_peer t s with rfl | rfl
    · rw [Net.emit_node_self]
      exact hctl
    · rw [Net.emit_node_peer, hnode]
      exact h.ctl _

theorem Typed.step (h : Typed n) (hstep : fifoStep (machine A) n ev = some n') : Typed n' := by
  cases ev with
  | act t i =>
      obtain ⟨p, hact, rfl⟩ := fifoStep_act.1 hstep
      have hctl : ∀ udp retryCnt hs, p.1.ctl = .udpSendto udp retryCnt hs →
          udp.ackType = .handshake := by
        intro udp retryCnt hs hc
        rcases udpSendto_of_act hact hc with ⟨r, hc'⟩ | ⟨c, junk, -, rfl, -⟩
        · exact h.ctl t _ _ _ hc'
        · rfl
      -- an endpoint gives every datagram the type of the place that sends it
      refine h.emit rfl (fun _ _ hd => hd) hctl ?_
      intro d hd hwindow hack
      have hsent := (act_frame hact).1 d hd
      unfold SentByAct at hsent
      unfold WellTyped
      cases hsite : d.site <;> rw [hsite] at hsent <;> simp_all
      obtain ⟨r, hs, hc⟩ := hsent
      exact hctl _ _ _ hc
  | deliver t o =>
      obtain ⟨d, rest, p, hwire, hrecv, rfl⟩ := fifoStep_deliver.1 hstep
      refine h.emit rfl ?_ ?_ ?_
      · intro s x hx
        rcases Side.eq_or_eq_peer t s with rfl | rfl
        · rwa [Net.setWire_peer_wire] at hx
        · rw [Net.setWire_wire_self] at hx
          rw [hwire]
          exact List.mem_cons_of_mem _ hx
      · intro udp retryCnt hs hc
        refine absurd ?_ (recv_not_awaitsHandshake hrecv)
        rw [hc]
        trivial
      · intro x hx hwindow hack
        have hsent := recv_sent hrecv x hx
        unfold SentByRecv at hsent
        unfold WellTyped
        cases hsite : x.site <;> rw [hsite] at hsent <;> simp_all
  | lose t k =>
      obtain ⟨-, rfl⟩ := fifoStep_lose.1 hstep
      refine ⟨?_, h.ctl⟩
      intro s d hd
      rcases Side.eq_or_eq_peer t s with rfl | rfl
      · rw [Net.setWire_wire_self] at hd
        exact h.wire _ d ((List.eraseIdx_sublist _ _).subset hd)
      · rw [Net.setWire_wire_peer] at hd
        exact h.wire _ d hd

/-- The events of a session that give an object new numbers. -/
def Restarting (A : App π) (n : Net (Endpoint π) Datagram) : FifoEvent Act Oracle → Prop
  | .act t _ => ∃ c ∈ (n.node t).nextCall A, c.Restarts
  | .deliver t _ => (n.node t).ctl.Restarts
  | .lose _ _ => False

theorem SessionOk.linkOk (hok : SessionOk A n ev) (hr : ¬ Restarting A n ev) : LinkOk A n ev := by
  cases ev with
  | act t i => exact fun c hc hrest => hr ⟨c, hc, hrest⟩
  | deliver t o => exact fun d hd => (hok d hd).2 hr
  | lose t k => trivial

/-- The links of a drained session after an event that gives an object new numbers. -/
theorem Session.restart (h : Session P n) (hok : SessionOk A n ev) (hr : Restarting A n ev)
    (hstep : fifoStep (machine A) n ev = some n') : ∀ s, Idle n' s := by
  have hreplies : Drained n → ∀ s, repliesOn (n.wire s) = [] := fun hdrained s => (hdrained s).2.2.2
  have hdata : Drained n → ∀ s, dataOn (n.wire s) = [] := fun hdrained s => (hdrained s).2.2.1
  cases ev with
  | act t i =>
      obtain ⟨p, hact, rfl⟩ := fifoStep_act.1 hstep
      obtain ⟨c, hc, hrest⟩ := hr
      obtain ⟨hdrained, hw⟩ := hok c hc hrest
      have hi := h.idle hdrained
      have hctl := (Endpoint.nextCall_eq_some.1 hc).1
      cases i with
      | run o =>
          simp only [machine, Endpoint.run, hctl, Option.map_eq_some_iff] at hact
          obtain ⟨c', hc', rfl⟩ := hact
          cases hc.symm.trans hc'
          exact (restarted_begin hrest hw (hi t).size (hi t).empty).idle hi rfl (hdata hdrained)
            (hreplies hdrained)
      | timeout o => simp [machine, Endpoint.timeout, hctl] at hact
      | error => simp [machine, Endpoint.error, hctl] at hact
  | deliver t o =>
      obtain ⟨d, rest, p, hwire, hrecv, rfl⟩ := fifoStep_deliver.1 hstep
      have hdrained := (hok d (by rw [hwire]; rfl)).1 hr
      have hi := h.idle hdrained
      have hpop : ∀ s, ((n.setWire t.peer rest).wire s).Sublist (n.wire s) := by
        intro s
        rcases Side.eq_or_eq_peer t s with rfl | rfl
        · rw [Net.setWire_peer_wire]
        · rw [Net.setWire_wire_self, hwire]
          exact List.sublist_cons_self _ _
      refine (restarted_recv hr (hi t).size (hi t).empty hrecv).idle hi rfl ?_ ?_
      · intro s
        have := (((hpop s).filter fun d => d.site = .window).map Datagram.pkt)
        exact List.sublist_nil.1 (hdata hdrained s ▸ this)
      · intro s
        have := (((hpop s).filter fun d => d.site = .sendAck).map Datagram.pkt)
        exact List.sublist_nil.1 (hreplies hdrained s ▸ this)
  | lose t k => cases hr

/-- Only a call of `copy_2_winbuf` numbers a packet. -/
theorem numbers_of_step (hstep : fifoStep (machine A) n ev = some n')
    (hnew : numberedData (n'.node s).log ≠ numberedData (n.node s).log) :
    ∃ i, ev = .act s i ∧ (n.node s).Numbers A := by
  cases ev with
  | act t i =>
      obtain ⟨p, hact, rfl⟩ := fifoStep_act.1 hstep
      rcases Side.eq_or_eq_peer t s with rfl | rfl
      · rw [Net.emit_node_self] at hnew
        exact ⟨i, rfl, numbers_of_act hact hnew⟩
      · rw [Net.emit_node_peer] at hnew
        exact absurd rfl hnew
  | deliver t o =>
      obtain ⟨d, rest, p, -, hrecv, rfl⟩ := fifoStep_deliver.1 hstep
      rcases Side.eq_or_eq_peer t s with rfl | rfl
      · rw [Net.emit_node_self] at hnew
        exact absurd (numberedData_of_recv hrecv) hnew
      · rw [Net.emit_node_peer] at hnew
        exact absurd rfl hnew
  | lose t k =>
      obtain ⟨-, rfl⟩ := fifoStep_lose.1 hstep
      exact absurd rfl hnew

/-- What an event must be like for a session to stay one with the unaligned senders in `P`. -/
structure Admits (P : Endpoint π → Prop) (A : App π) (n : Net (Endpoint π) Datagram)
    (ev : FifoEvent Act Oracle) (n' : Net (Endpoint π) Datagram) : Prop where
  /-- a sender in `P` numbers a packet only where its peer expects it -/
  numbers : ∀ s, numberedData (n'.node s).log ≠ numberedData (n.node s).log → P (n.node s) →
    (n.node s).lib.winBufPos = 0 → Agree (n.node s).lib (n.node s.peer).lib
  /-- only new numbers take a sender out of `P` -/
  keeps : ¬ Restarting A n ev → ∀ s, P (n.node s) → P (n'.node s)
  restarts : Restarting A n ev → ∀ s, P (n'.node s) ∨ Agree (n'.node s).lib (n'.node s.peer).lib

/-- Every event that meets `SessionOk` keeps the session sound. -/
theorem Session.step (h : Session P n) (hok : SessionOk A n ev) (hadmits : Admits P A n ev n')
    (hstep : fifoStep (machine A) n ev = some n') : Session P n' := by
  refine ⟨?_, h.typed.step hstep⟩
  intro s
  by_cases hr : Restarting A n ev
  · obtain ⟨b, hlink, haligned⟩ := (h.restart hok hr hstep s).linkAt
    exact ⟨_, b, _, hlink, (hadmits.restarts hr s).imp_right haligned⟩
  · obtain ⟨w, b, g, hlink, hor⟩ := h.links s
    by_cases hfirst : NumbersFirst n n' s g
    · -- the first packet of the link: from here on the two ends count alike
      have hempty : (n.node s).lib.winBufPos = 0 := by
        have hpos := hlink.send.base.pos
        rw [hfirst.1, List.length_nil] at hpos
        omega
      have halign : ∃ b', b'.Aligned ∧ LinkAt n s w b' g := by
        rcases hor with hP | haligned
        · exact hlink.align hfirst.1 (hadmits.numbers s hfirst.2 hP hempty)
        · exact ⟨b, haligned, hlink⟩
      obtain ⟨b', haligned, hlink'⟩ := halign
      obtain ⟨g', hafter⟩ := hlink'.step (fun d hd => h.wellTyped hd) (hok.linkOk hr)
        (fun _ => haligned) hstep
      exact ⟨w, b', g', hafter.link, Or.inr haligned⟩
    · obtain ⟨g', hafter⟩ := hlink.step (fun d hd => h.wellTyped hd) (hok.linkOk hr)
        (fun hf => absurd hf hfirst) hstep
      exact ⟨w, b, g', hafter.link, hor.imp_left (hadmits.keeps hr s)⟩

/-- A session starts with empty windows and no `lastSeq`. -/
theorem session_start {lib : Side → SockLib} {app : Side → π}
    (hsize : ∀ s, 1 ≤ (lib s).wSize ∧ (lib s).wSize ≤ 31) (hempty : ∀ s, (lib s).winBufPos = 0)
    (hunset : ∀ s, (lib s).lastSeq = -1) : Session P (sessionStart lib app) := by
  have hidle : ∀ s, Idle (sessionStart lib app) s := fun s => ⟨hsize s, hempty s, id, rfl, rfl⟩
  refine ⟨fun s => ?_, ?_, ?_⟩
  · obtain ⟨b, hlink, haligned⟩ := (hidle s).linkAt
    exact ⟨_, b, _, hlink, Or.inr (haligned (Or.inl (hunset s.peer)))⟩
  · intro s d hd
    cases hd
  · intro s udp r hs hc
    cases hc

end

end Sample3
end FileTransfer
