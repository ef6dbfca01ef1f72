import FileTransfer.Assign3.ControlRuns
import FileTransfer.Lib.Until

/-!
# Turns of a conversation over a calm network

When nothing is lost and no timeout fires while something is on its way, the two programs take turns:
one sends a message while the other one waits for it, and the receiver answers with the next message.
The acknowledgement ends the sender's wait, and its second wait reads the answer away if it comes soon;
then the answer is sent once more.  `Turn.Open` lists the states in which a turn begins,
`Turn.until_next` says that every run comes from there to the next turn, and `Turn.until_rest` that it
comes to an end when there is no next one.
-/

namespace FileTransfer
namespace Assign3

open Relation Udp

variable {π : Type*} {A : App π}

/-! ## Calm networks -/

/-- Nothing is lost, and a timeout fires only when nothing is on its way. -/
def Calm (n : Net (Endpoint π) Datagram) : FifoEvent Act Junk → Prop
  | .act _ .timeout => ∀ t, n.wire t = []
  | .lose _ _ => False
  | _ => True

instance (n : Net (Endpoint π) Datagram) (ev : FifoEvent Act Junk) : Decidable (Calm n ev) :=
  match ev with
  | .act _ .timeout => inferInstanceAs (Decidable (∀ t, n.wire t = []))
  | .act _ .run | .deliver _ _ => isTrue trivial
  | .lose _ _ => isFalse id

/-- The network as one of the two ends sees it: its own endpoint and wire, and the peer's. -/
structure Joint (π : Type*) where
  e : Endpoint π
  f : Endpoint π
  w : List Datagram
  v : List Datagram

def Joint.swap (J : Joint π) : Joint π := ⟨J.f, J.e, J.v, J.w⟩

def joint (s : Side) (n : Net (Endpoint π) Datagram) : Joint π :=
  ⟨n.node s, n.node s.peer, n.wire s, n.wire s.peer⟩

theorem joint_peer (s : Side) (n : Net (Endpoint π) Datagram) :
    joint s.peer n = (joint s n).swap := by
  simp only [joint, Joint.swap, Side.peer_peer]

theorem joint_emit (s : Side) (n : Net (Endpoint π) Datagram) (p : Endpoint π × List Datagram) :
    joint s (n.emit s p) = ⟨p.1, n.node s.peer, n.wire s ++ p.2, n.wire s.peer⟩ := by
  simp only [joint, Net.emit_node_self, Net.emit_node_peer, Net.emit_wire_self, Net.emit_wire_peer]

/-- What one end does in a calm network. -/
inductive Own (A : App π) (J : Joint π) : Joint π → Prop where
  | run {c : Call} : J.e.nextCall A = some c →
      Own A J ⟨(J.e.begin A c).1, J.f, J.w ++ (J.e.begin A c).2, J.v⟩
  | timeout {p : Endpoint π × List Datagram} : J.w = [] → J.v = [] → J.e.timeout A = some p →
      Own A J ⟨p.1, J.f, p.2, []⟩
  | deliver {d : Datagram} {v : List Datagram} {j : Junk} {p : Endpoint π × List Datagram} :
      J.v = d :: v → J.e.packet A j d = some p → Own A J ⟨p.1, J.f, J.w ++ p.2, v⟩

/-- A step of a calm network. -/
def JStep (A : App π) (J J' : Joint π) : Prop := Own A J J' ∨ Own A J.swap J'.swap

theorem JStep.swap {J J' : Joint π} (h : JStep A J J') : JStep A J.swap J'.swap := Or.symm h

theorem own_of_calm {s : Side} {n n' : Net (Endpoint π) Datagram} {ev : FifoEvent Act Junk}
    (hcalm : Calm n ev) (hstep : fifoStep (machine A) n ev = some n') :
    Own A (joint s n) (joint s n') ∨ Own A (joint s.peer n) (joint s.peer n') := by
  -- the two kinds of steps, for whichever end takes them
  have hown : ∀ t i p, Calm n (.act t i) → (machine A).act (n.node t) i = some p →
      Own A (joint t n) (joint t (n.emit t p)) := by
    intro t i p hc hact
    rw [joint_emit]
    cases i with
    | run =>
        simp only [machine, Option.map_eq_some_iff] at hact
        obtain ⟨c, hcall, rfl⟩ := hact
        exact Own.run hcall
    | timeout =>
        have hempty : n.wire t = [] := hc t
        rw [hempty, hc t.peer, List.nil_append]
        exact Own.timeout hempty (hc t.peer) hact
  have hdel : ∀ t j d rest p, n.wire t.peer = d :: rest →
      (machine A).recv (n.node t) j d = some p →
      Own A (joint t n) (joint t ((n.setWire t.peer rest).emit t p)) := by
    intro t j d rest p hd hrecv
    rw [joint_emit, Net.setWire_node, Net.setWire_wire_self, Net.setWire_peer_wire]
    exact Own.deliver hd hrecv
  cases ev with
  | act t i =>
      obtain ⟨p, hact, rfl⟩ := fifoStep_act.1 hstep
      rcases Side.eq_or_eq_peer s t with rfl | rfl
      · exact Or.inl (hown t i p hcalm hact)
      · exact Or.inr (hown s.peer i p hcalm hact)
  | deliver t j =>
      obtain ⟨d, rest, p, hd, hrecv, rfl⟩ := fifoStep_deliver.1 hstep
      rcases Side.eq_or_eq_peer s t with rfl | rfl
      · exact Or.inl (hdel t j d rest p hd hrecv)
      · exact Or.inr (hdel s.peer j d rest p hd hrecv)
  | lose t k => exact hcalm.elim

/-- Every step of a calm network is a step of the pair. -/
theorem jstep_of_calm (s : Side) {n n' : Net (Endpoint π) Datagram} {ev : FifoEvent Act Junk}
    (hcalm : Calm n ev) (hstep : fifoStep (machine A) n ev = some n') :
    JStep A (joint s n) (joint s n') := by
  unfold JStep
  rw [← joint_peer, ← joint_peer]
  exact own_of_calm hcalm hstep

theorem calm_of_own {s : Side} {n : Net (Endpoint π) Datagram} {J : Joint π}
    (h : Own A (joint s n) J) :
    ∃ ev n', Calm n ev ∧ fifoStep (machine A) n ev = some n' ∧ joint s n' = J := by
  cases h with
  | @run c hcall =>
      refine ⟨.act s .run, _, trivial, fifoStep_act.2 ⟨(n.node s).begin A c, ?_, rfl⟩, joint_emit _ _ _⟩
      simp only [machine, Option.map_eq_some_iff]
      exact ⟨c, hcall, rfl⟩
  | @timeout p hw hv htime =>
      have hempty : ∀ t, n.wire t = [] := by
        intro t
        rcases Side.eq_or_eq_peer s t with rfl | rfl
        · exact hw
        · exact hv
      refine ⟨.act s .timeout, _, hempty, fifoStep_act.2 ⟨p, htime, rfl⟩, ?_⟩
      rw [joint_emit, hempty s, hempty s.peer, List.nil_append]
      rfl
  | @deliver d v j p hv hpacket =>
      refine ⟨.deliver s j, _, trivial, fifoStep_deliver.2 ⟨d, v, p, hv, hpacket, rfl⟩, ?_⟩
      rw [joint_emit, Net.setWire_node, Net.setWire_wire_self, Net.setWire_peer_wire]
      rfl

/-- Every step of the pair is a step of a calm network. -/
theorem calm_of_jstep {s : Side} {n : Net (Endpoint π) Datagram} {J : Joint π}
    (h : JStep A (joint s n) J) :
    ∃ ev n', Calm n ev ∧ fifoStep (machine A) n ev = some n' ∧ joint s n' = J := by
  rcases h with h | h
  · exact calm_of_own h
  · rw [← joint_peer] at h
    obtain ⟨ev, n', hcalm, hstep, hJ⟩ := calm_of_own h
    refine ⟨ev, n', hcalm, hstep, ?_⟩
    rw [joint_peer] at hJ
    exact congrArg Joint.swap hJ

/-- A step of a calm network. -/
def CalmStep (A : App π) (n n' : Net (Endpoint π) Datagram) : Prop :=
  ∃ ev, Calm n ev ∧ fifoStep (machine A) n ev = some n'

theorem reach_swap {J J' : Joint π} (h : ReflTransGen (JStep A) J J') :
    ReflTransGen (JStep A) J.swap J'.swap := by
  induction h with
  | refl => exact .refl
  | tail _ hstep ih => exact ih.tail hstep.swap

/-- What every run of a calm network comes to can be told from what the two ends see. -/
theorem until_joint (s : Side) {Q P : Joint π → Prop} {n : Net (Endpoint π) Datagram} :
    Until (CalmStep A) (fun n => Q (joint s n)) (fun n => P (joint s n)) n ↔
      Until (JStep A) Q P (joint s n) := by
  apply Until.congr
  · rintro n n' ⟨ev, hcalm, hstep⟩
    exact jstep_of_calm s hcalm hstep
  · intro n J h
    obtain ⟨ev, n', hcalm, hstep, hJ⟩ := calm_of_jstep h
    exact ⟨n', ⟨ev, hcalm, hstep⟩, hJ⟩

/-- The other end tells the same. -/
theorem until_swap {Q P : Joint π → Prop} {J : Joint π} :
    Until (JStep A) (fun J => Q J.swap) (fun J => P J.swap) J.swap ↔ Until (JStep A) Q P J := by
  have h := Until.congr (R := JStep A) (S := JStep A) (Q := Q) (P := P) (f := Joint.swap) (x := J.swap)
    (fun _ _ h => h.swap) fun J J' h => ⟨J'.swap, h.swap, rfl⟩
  exact h

/-- The rule for the two ends: each end's own steps lead to where the claim holds. -/
theorem until_of_own {Q P : Joint π → Prop} {e f : Endpoint π} {w v : List Datagram}
    (hQ : Q ⟨e, f, w, v⟩) (hgo : (∃ J, Own A ⟨e, f, w, v⟩ J) ∨ ∃ J, Own A ⟨f, e, v, w⟩ J)
    (hone : ∀ J, Own A ⟨e, f, w, v⟩ J → Until (JStep A) Q P J)
    (hother : ∀ J, Own A ⟨f, e, v, w⟩ J → Until (JStep A) Q P J.swap) :
    Until (JStep A) Q P ⟨e, f, w, v⟩ :=
  .later hQ (hgo.elim (fun ⟨J, h⟩ => ⟨J, .inl h⟩) fun ⟨J, h⟩ => ⟨J.swap, .inr h⟩)
    fun J h => h.elim (hone J) (hother J.swap)

/-! ## The steps of one end -/

section Own

variable {J J' : Joint π} {m : Message} {r : Nat}

theorem own_idle (hctl : J.e.ctl = .idle) :
    Own A J J' ↔ ∃ c, A.call J.e.app = some c ∧
      J' = ⟨(J.e.begin A c).1, J.f, J.w ++ (J.e.begin A c).2, J.v⟩ := by
  have hcall : J.e.nextCall A = A.call J.e.app := by simp only [Endpoint.nextCall, hctl]
  constructor
  · intro h
    cases h with
    | run h => exact ⟨_, hcall ▸ h, rfl⟩
    | timeout _ _ h => simp [Endpoint.timeout, hctl] at h
    | deliver _ h => simp [Endpoint.packet, hctl] at h
  · rintro ⟨c, h, rfl⟩
    exact .run (hcall.trans h)

theorem own_wait (hctl : J.e.ctl = .udplastsendWait m r) :
    Own A J J' ↔
      (J.w = [] ∧ J.v = [] ∧ J' = ⟨(J.e.resendLast m r).1, J.f, (J.e.resendLast m r).2, []⟩) ∨
        ∃ d v, J.v = d :: v ∧ J' = ⟨J.e.recvInLastWait d, J.f, J.w, v⟩ := by
  have htime : J.e.timeout A = some (J.e.resendLast m r) := by simp only [Endpoint.timeout, hctl]
  have hpacket : ∀ j d, J.e.packet A j d = some (J.e.recvInLastWait d, []) := by
    intro j d
    simp only [Endpoint.packet, hctl]
  constructor
  · intro h
    cases h with
    | run h => simp [Endpoint.nextCall, hctl] at h
    | timeout hw hv h =>
        cases htime.symm.trans h
        exact Or.inl ⟨hw, hv, rfl⟩
    | deliver hv h =>
        cases (hpacket _ _).symm.trans h
        exact Or.inr ⟨_, _, hv, by rw [List.append_nil]⟩
  · rintro (⟨hw, hv, rfl⟩ | ⟨d, v, hv, rfl⟩)
    · exact .timeout hw hv htime
    · have h := Own.deliver hv (hpacket ⟨[], []⟩ d)
      rwa [List.append_nil] at h

theorem own_drain (hctl : J.e.ctl = .udplastsendDrain) :
    Own A J J' ↔
      (J.w = [] ∧ J.v = [] ∧ J' = ⟨J.e.finishUdplastsend A, J.f, [], []⟩) ∨
        ∃ d v, J.v = d :: v ∧ J' = ⟨J.e.recvInLastDrain A d, J.f, J.w, v⟩ := by
  have htime : J.e.timeout A = some (J.e.finishUdplastsend A, []) := by
    simp only [Endpoint.timeout, hctl]
  have hpacket : ∀ j d, J.e.packet A j d = some (J.e.recvInLastDrain A d, []) := by
    intro j d
    simp only [Endpoint.packet, hctl]
  constructor
  · intro h
    cases h with
    | run h => simp [Endpoint.nextCall, hctl] at h
    | timeout hw hv h =>
        cases htime.symm.trans h
        exact Or.inl ⟨hw, hv, rfl⟩
    | deliver hv h =>
        cases (hpacket _ _).symm.trans h
        exact Or.inr ⟨_, _, hv, by rw [List.append_nil]⟩
  · rintro (⟨hw, hv, rfl⟩ | ⟨d, v, hv, rfl⟩)
    · exact .timeout hw hv htime
    · have h := Own.deliver hv (hpacket ⟨[], []⟩ d)
      rwa [List.append_nil] at h

theorem own_recv (hctl : J.e.ctl = .udplastrecv) :
    Own A J J' ↔ ∃ j d v, J.v = d :: v ∧
      J' = ⟨(J.e.recvInLast A j d).1, J.f, J.w ++ (J.e.recvInLast A j d).2, v⟩ := by
  have hpacket : ∀ j d, J.e.packet A j d = some (J.e.recvInLast A j d) := by
    intro j d
    simp only [Endpoint.packet, hctl]
  constructor
  · intro h
    cases h with
    | run h => simp [Endpoint.nextCall, hctl] at h
    | timeout _ _ h => simp [Endpoint.timeout, hctl] at h
    | deliver hv h =>
        cases (hpacket _ _).symm.trans h
        exact ⟨_, _, _, hv, rfl⟩
  · rintro ⟨j, d, v, hv, rfl⟩
    exact .deliver hv (hpacket j d)

theorem own_peer (h : Own A J J') : J'.f = J.f := by
  cases h <;> rfl

/-- The program is where it was, or a call has returned to it. -/
def Returns (A : App π) (e e' : Endpoint π) : Prop :=
  e'.app = e.app ∨ ∃ ret, e'.app = A.resume e.app ret ∧ e'.ctl = .idle

theorem returns_udpsendLoop (e : Endpoint π) (x : Members) (arrived : Bool) (r : Nat) (s1 s2 : Bool) :
    Returns A e (({ e with mem := x } : Endpoint π).udpsendLoop arrived r s1 s2) := by
  unfold Endpoint.udpsendLoop
  split <;> exact .inl rfl

theorem returns_drainLoop (e : Endpoint π) (x : Members) (s1 s2 : Bool) :
    Returns A e (({ e with mem := x } : Endpoint π).drainLoop A s1 s2) := by
  unfold Endpoint.drainLoop
  split
  · exact .inl rfl
  · exact .inr ⟨_, rfl, rfl⟩

theorem returns_udplastrecvLoop (e : Endpoint π) (x : Members) (o : Origin) :
    Returns A e (({ e with mem := x } : Endpoint π).udplastrecvLoop A o) := by
  unfold Endpoint.udplastrecvLoop
  dsimp only
  split
  · exact .inl rfl
  · exact .inr ⟨_, rfl, rfl⟩

theorem returns_recvInLast (e : Endpoint π) (j : Junk) (d : Datagram) :
    Returns A e (e.recvInLast A j d).1 := by
  unfold Endpoint.recvInLast
  dsimp only
  split <;> exact returns_udplastrecvLoop e _ _

theorem returns_recvInPairSecond (e : Endpoint π) (j : Junk) (n : Int) (d : Datagram) :
    Returns A e (e.recvInPairSecond A j n d).1 := by
  unfold Endpoint.recvInPairSecond
  dsimp only
  split
  · unfold Endpoint.answerPair
    dsimp only
    split
    · exact .inr ⟨_, rfl, rfl⟩
    · split <;> exact .inr ⟨_, rfl, rfl⟩
  · exact .inl rfl

theorem own_returns (h : Own A J J') : Returns A J.e J'.e := by
  cases h with
  | @run c _ =>
      cases c with
      | reset => exact .inr ⟨_, rfl, rfl⟩
      | udpsend | udprecv | udplastsend | udplastrecv => exact .inl rfl
  | timeout _ _ h =>
      unfold Endpoint.timeout at h
      cases hctl : J.e.ctl <;> rw [hctl] at h <;>
        simp only [Option.some.injEq, reduceCtorEq] at h <;> subst h
      case udpsendFirst => exact returns_udpsendLoop J.e J.e.mem _ _ _ _
      case udpsendSecond => exact returns_udpsendLoop J.e J.e.mem _ _ _ _
      case drainSecond => exact returns_drainLoop J.e J.e.mem _ _
      case udplastsendWait => exact .inl rfl
      all_goals exact .inr ⟨_, rfl, rfl⟩
  | deliver _ h =>
      unfold Endpoint.packet at h
      cases hctl : J.e.ctl <;> rw [hctl] at h <;>
        simp only [Option.some.injEq, reduceCtorEq] at h <;> subst h
      case udpsendSecond => exact returns_udpsendLoop J.e _ _ _ _ _
      case drainSecond => exact returns_drainLoop J.e _ _ _
      case udprecvSecond => exact returns_recvInPairSecond J.e _ _ _
      case udplastsendDrain => exact .inr ⟨_, rfl, rfl⟩
      case udplastrecv => exact returns_recvInLast J.e _ _
      all_goals exact .inl rfl

end Own

/-! ## Waiting for ever -/

/-- The program listens, or has nothing to do. -/
def Silent (A : App π) (x : π) : Prop := A.call x = none ∨ A.call x = some .udplastrecv

/-- Both programs listen, and nothing is on its way. -/
structure Mute (A : App π) (x y : π) (J : Joint π) : Prop where
  one : J.e.app = x ∧ (J.e.ctl = .idle ∨ J.e.ctl = .udplastrecv)
  other : J.f.app = y ∧ (J.f.ctl = .idle ∨ J.f.ctl = .udplastrecv)
  sent : J.w = []
  answered : J.v = []

theorem Mute.swap {x y : π} {J : Joint π} (h : Mute A x y J) : Mute A y x J.swap :=
  ⟨h.other, h.one, h.answered, h.sent⟩

theorem Mute.own {x y : π} {J J' : Joint π} (hx : Silent A x) (h : Mute A x y J) (hown : Own A J J') :
    Mute A x y J' := by
  obtain ⟨⟨happ, hctl⟩, hother, hw, hv⟩ := h
  rcases hctl with hctl | hctl
  · obtain ⟨c, hcall, rfl⟩ := (own_idle hctl).1 hown
    rw [happ] at hcall
    rcases hx with hx | hx
    · cases hcall.symm.trans hx
    · cases hcall.symm.trans hx
      exact ⟨⟨happ, .inr rfl⟩, hother, by rw [hw]; rfl, hv⟩
  · obtain ⟨j, d, v, hv', -⟩ := (own_recv hctl).1 hown
    cases hv.symm.trans hv'

/-- Nobody breaks the silence. -/
theorem Mute.step {x y : π} {J J' : Joint π} (hx : Silent A x) (hy : Silent A y) (h : Mute A x y J)
    (hstep : JStep A J J') : Mute A x y J' :=
  hstep.elim (h.own hx) fun hown => (h.swap.own hy hown).swap

/-! ## Where an end stands -/

/-- The end runs `x` and stands at `ctl`.  It sends its next packet with the number `a`, and the packet
it took last did not have the number `b`. -/
structure Stands (e : Endpoint π) (x : π) (ctl : Control) (a b : Int) : Prop where
  app : e.app = x
  ctl : e.ctl = ctl
  sendSeq : e.mem.sendSeq = a
  prevRecvSeq : e.mem.prevRecvSeq ≠ b

/-- The end is in a call that sends `m`. -/
structure Sends (e : Endpoint π) (x : π) (m : Message) (ctl : Control) (a b : Int) : Prop
    extends Stands e x ctl a b where
  sendmsg : e.mem.sendmsg = ⟨a, m.data⟩

/-- The datagram with a message that has no length. -/
def copyOf (m : Message) (a : Int) : Datagram := .whole ⟨a, m.data⟩ (.message m)

section Ends

variable {e : Endpoint π} {x : π} {m : Message} {ctl : Control} {a b : Int}

theorem Stands.send (h : Stands e x .idle a b) (hm : m.sendflag = 0) :
    Sends (e.begin A (.udplastsend m)).1 x m (.udplastsendWait m 0) a b ∧
      (e.begin A (.udplastsend m)).2 = [copyOf m a] := by
  obtain ⟨rfl, -, rfl, hprev⟩ := h
  refine ⟨⟨⟨rfl, rfl, rfl, hprev⟩, rfl⟩, ?_⟩
  cases hside : e.side <;>
    simp [Endpoint.begin, Endpoint.beginUdplastsend, Endpoint.lastFirst, Members.fillLast, hside, hm,
      copyOf, Datagram.whole]

/-- A reset returns at once. -/
theorem Stands.reset (h : Stands e x .idle a b) (r : Reset) {a' : Int}
    (ha' : (e.mem.reset r).sendSeq = a') :
    Stands (e.begin A (.reset r)).1 (A.resume x .done) .idle a' b := by
  refine ⟨?_, rfl, ha', ?_⟩
  · rw [← h.app]
    rfl
  · cases r <;> exact h.prevRecvSeq

theorem Stands.listen (h : Stands e x .idle a b) :
    Stands (e.begin A .udplastrecv).1 x .udplastrecv a b ∧ (e.begin A .udplastrecv).2 = [] :=
  ⟨⟨h.app, rfl, h.sendSeq, h.prevRecvSeq⟩, rfl⟩

theorem Sends.again (h : Sends e x m (.udplastsendWait m 0) a b) (hm : m.sendflag = 0) :
    Sends (e.resendLast m 0).1 x m (.udplastsendWait m 1) a b ∧
      (e.resendLast m 0).2 = [copyOf m a] := by
  refine ⟨⟨⟨h.app, rfl, h.sendSeq, h.prevRecvSeq⟩, h.sendmsg⟩, ?_⟩
  simp only [Endpoint.resendLast, Endpoint.lastAgain, hm, h.sendmsg, if_true, copyOf, Datagram.whole]

/-- Anything that arrives ends the first wait. -/
theorem Sends.acknowledged (h : Sends e x m ctl a b) (d : Datagram) :
    Sends (e.recvInLastWait d) x m .udplastsendDrain a b :=
  ⟨⟨h.app, rfl, h.sendSeq, h.prevRecvSeq⟩, h.sendmsg⟩

theorem Sends.finish (h : Sends e x m ctl a b) (hbit : a = 0 ∨ a = 1) :
    Stands (e.finishUdplastsend A) (A.resume x (.udplastsend ⟨a, m.data⟩)) .idle (1 - a) b := by
  refine ⟨?_, rfl, ?_, h.prevRecvSeq⟩
  · rw [← h.app, ← h.sendmsg]
    rfl
  · rw [← toggle_bit hbit, ← h.sendSeq]
    rfl

/-- What arrives in the second wait is read away. -/
theorem Sends.drain (h : Sends e x m ctl a b) (hbit : a = 0 ∨ a = 1) (d : Datagram) :
    Stands (e.recvInLastDrain A d) (A.resume x (.udplastsend ⟨a, m.data⟩)) .idle (1 - a) b := by
  have hread : Sends ({ e with mem := e.mem.readFirst sizeofUdppacket d } : Endpoint π) x m ctl a b :=
    ⟨⟨h.app, h.ctl, h.sendSeq, h.prevRecvSeq⟩, h.sendmsg⟩
  exact hread.finish hbit

/-- A new message is acknowledged and returned. -/
theorem Stands.hear (h : Stands e x .udplastrecv b a) (j : Junk) :
    Stands (e.recvInLast A j (copyOf m a)).1 (A.resume x (.udplastrecv ⟨a, m.data⟩)) .idle b (1 - a) ∧
      ∃ d, (e.recvInLast A j (copyOf m a)).2 = [d] := by
  have hread : recvfrom (e.mem.recvmsg.clear bufferLength) sizeofUdppacket (copyOf m a) =
      (⟨a, m.data⟩, (sizeofUdppacket : Int)) := recvfrom_full _ rfl
  have hpos : (0 : Int) < (sizeofUdppacket : Int) := by decide
  simp only [Endpoint.recvInLast, hread, if_pos hpos]
  refine ⟨?_, _, rfl⟩
  rw [Endpoint.udplastrecvLoop_new _ _ _ (Ne.symm h.prevRecvSeq)]
  refine ⟨?_, rfl, h.sendSeq, ?_⟩
  · rw [← h.app]
    rfl
  · change a ≠ 1 - a
    omega

/-- A message with the number of the one before it is acknowledged and dropped. -/
theorem recvInLast_repeated (hprev : e.mem.prevRecvSeq = a) (j : Junk) :
    (e.recvInLast A j (copyOf m a)).1.app = e.app ∧ (e.recvInLast A j (copyOf m a)).1.ctl = e.ctl ∧
      ∃ d, (e.recvInLast A j (copyOf m a)).2 = [d] := by
  have hread : recvfrom (e.mem.recvmsg.clear bufferLength) sizeofUdppacket (copyOf m a) =
      (⟨a, m.data⟩, (sizeofUdppacket : Int)) := recvfrom_full _ rfl
  have hpos : (0 : Int) < (sizeofUdppacket : Int) := by decide
  simp only [Endpoint.recvInLast, hread, if_pos hpos]
  rw [Endpoint.udplastrecvLoop_same _ _ _ hprev.symm]
  exact ⟨rfl, rfl, _, rfl⟩

end Ends

/-! ## Turns -/

/-- A turn: the program `x` sends `m` with the number `a`, and `y` waits for it. -/
structure Turn (π : Type*) where
  x : π
  y : π
  m : Message
  a : Int
  b : Int
  plain : m.sendflag = 0
  bit_a : a = 0 ∨ a = 1
  bit_b : b = 0 ∨ b = 1

namespace Turn

variable (A) (T : Turn π)

/-- The speaker after its call. -/
def x' : π := A.resume T.x (.udplastsend ⟨T.a, T.m.data⟩)

/-- The listener after its call. -/
def y' : π := A.resume T.y (.udplastrecv ⟨T.a, T.m.data⟩)

/-- The listener answers. -/
def next (m : Message) (hm : m.sendflag = 0) : Turn π where
  x := T.y' A
  y := T.x' A
  m := m
  a := T.b
  b := 1 - T.a
  plain := hm
  bit_a := T.bit_b
  bit_b := by rcases T.bit_a with h | h <;> rw [h] <;> decide

/-- The speaker has not begun, or its message is on the way, or it was read away. -/
inductive Speaks (e : Endpoint π) : List Datagram → Prop where
  | due : Stands e T.x .idle T.a T.b → Speaks e []
  | sent {r : Nat} : Sends e T.x T.m (.udplastsendWait T.m r) T.a T.b → Speaks e [copyOf T.m T.a]
  | lost : Sends e T.x T.m (.udplastsendWait T.m 0) T.a T.b → Speaks e []

/-- The listener waits, or is about to. -/
inductive Listens (f : Endpoint π) : Prop where
  | idle : Stands f T.y .idle T.b T.a → Listens f
  | waits : Stands f T.y .udplastrecv T.b T.a → Listens f

/-- The turn has begun, and the listener has not taken the message. -/
structure Open (J : Joint π) : Prop where
  speaks : T.Speaks J.e J.w
  listens : T.Listens J.f
  empty : J.v = []

/-- The programs make the calls of the turn. -/
structure Calls : Prop where
  speaks : A.call T.x = some (.udplastsend T.m)
  listens : A.call T.y = some .udplastrecv

/-- The turn `T'` begins where this one ends. -/
structure Follows (T' : Turn π) : Prop where
  x : T.y' A = T'.x
  y : T.x' A = T'.y
  a : T'.a = T.b
  b : T'.b = 1 - T.a

/-- Both calls have returned. -/
structure Rest (J : Joint π) : Prop where
  speaker : Stands J.e (T.x' A) .idle (1 - T.a) T.b
  listener : Stands J.f (T.y' A) .idle T.b (1 - T.a)
  sent : J.w = []
  answered : J.v = []

variable {A T} {J : Joint π} {e f : Endpoint π} {r : Nat} {m' : Message} {hm' : m'.sendflag = 0}

theorem Follows.next_eq {T' : Turn π} (h : T.Follows A T') : T.next A T'.m T'.plain = T' := by
  obtain ⟨hx, hy, ha, hb⟩ := h
  cases T'
  simp only [next, Turn.mk.injEq, true_and]
  exact ⟨hx, hy, ha.symm, hb.symm⟩

/-- The next turn begins where this one ends. -/
theorem Rest.open (h : T.Rest A J) : (T.next A m' hm').Open J.swap where
  speaks := by
    change (T.next A m' hm').Speaks J.f J.v
    rw [h.answered]
    exact .due h.listener
  listens := .idle h.speaker
  empty := h.sent

section Until

variable {Q P : Joint π → Prop}
  (hQ : ∀ J : Joint π, (J.e.app = T.x ∨ J.e.app = T.x' A) → (J.f.app = T.y ∨ J.f.app = T.y' A) → Q J)

include hQ

/-- The answer comes while the speaker still waits behind its acknowledgement, and is read away. -/
theorem until_of_read_away (he : Sends e T.x T.m .udplastsendDrain T.a T.b)
    (hf : Sends f (T.y' A) m' (.udplastsendWait m' 0) T.b (1 - T.a))
    (hnext : ∀ J, (T.next A m' hm').Open J.swap → Until (JStep A) Q P J) :
    Until (JStep A) Q P ⟨e, f, [], [copyOf m' T.b]⟩ := by
  refine until_of_own (hQ _ (.inl he.app) (.inr hf.app))
    (.inl ⟨_, (own_drain he.ctl).2 (.inr ⟨_, _, rfl, rfl⟩)⟩) ?_ ?_
  · intro J h
    rcases (own_drain he.ctl).1 h with ⟨-, hv, -⟩ | ⟨d, v, hv, rfl⟩
    · cases hv
    · cases hv
      exact hnext _ ⟨.lost hf, .idle (he.drain T.bit_a _), rfl⟩
  · intro J h
    rcases (own_wait hf.ctl).1 h with ⟨hw, -, -⟩ | ⟨d, v, hv, -⟩
    · cases hw
    · cases hv

/-- The listener answers before the speaker has read the acknowledgement. -/
theorem until_of_answered {d : Datagram}
    (he : Sends e T.x T.m (.udplastsendWait T.m r) T.a T.b)
    (hf : Sends f (T.y' A) m' (.udplastsendWait m' 0) T.b (1 - T.a))
    (hnext : ∀ J, (T.next A m' hm').Open J.swap → Until (JStep A) Q P J) :
    Until (JStep A) Q P ⟨e, f, [], [d, copyOf m' T.b]⟩ := by
  refine until_of_own (hQ _ (.inl he.app) (.inr hf.app))
    (.inl ⟨_, (own_wait he.ctl).2 (.inr ⟨_, _, rfl, rfl⟩)⟩) ?_ ?_
  · intro J h
    rcases (own_wait he.ctl).1 h with ⟨-, hv, -⟩ | ⟨d, v, hv, rfl⟩
    · cases hv
    · cases hv
      exact until_of_read_away hQ (he.acknowledged d) hf hnext
  · intro J h
    rcases (own_wait hf.ctl).1 h with ⟨hw, -, -⟩ | ⟨d, v, hv, -⟩
    · cases hw
    · cases hv

/-- The speaker has its acknowledgement and waits behind it.  `hanswer` says what comes of an answer. -/
theorem until_of_drain (he : Sends e T.x T.m .udplastsendDrain T.a T.b)
    (hf : Stands f (T.y' A) .idle T.b (1 - T.a))
    (hrest : ∀ J, T.Rest A J → Until (JStep A) Q P J)
    (hanswer : ∀ c, A.call (T.y' A) = some c →
      Until (JStep A) Q P ⟨e, (f.begin A c).1, [], (f.begin A c).2⟩) :
    Until (JStep A) Q P ⟨e, f, [], []⟩ := by
  refine until_of_own (hQ _ (.inl he.app) (.inr hf.app))
    (.inl ⟨_, (own_drain he.ctl).2 (.inl ⟨rfl, rfl, rfl⟩)⟩) ?_ ?_
  · intro J h
    rcases (own_drain he.ctl).1 h with ⟨-, -, rfl⟩ | ⟨d, v, hv, -⟩
    · exact hrest _ ⟨he.finish T.bit_a, hf, rfl, rfl⟩
    · cases hv
  · intro J h
    obtain ⟨c, hcall, rfl⟩ := (own_idle hf.ctl).1 h
    exact hanswer c (hf.app ▸ hcall)

/-- The acknowledgement is on its way. -/
theorem until_of_heard {d : Datagram} (he : Sends e T.x T.m (.udplastsendWait T.m r) T.a T.b)
    (hf : Stands f (T.y' A) .idle T.b (1 - T.a))
    (hdrain : ∀ e, Sends e T.x T.m .udplastsendDrain T.a T.b → Until (JStep A) Q P ⟨e, f, [], []⟩)
    (hanswer : ∀ c, A.call (T.y' A) = some c →
      Until (JStep A) Q P ⟨e, (f.begin A c).1, [], d :: (f.begin A c).2⟩) :
    Until (JStep A) Q P ⟨e, f, [], [d]⟩ := by
  refine until_of_own (hQ _ (.inl he.app) (.inr hf.app))
    (.inl ⟨_, (own_wait he.ctl).2 (.inr ⟨_, _, rfl, rfl⟩)⟩) ?_ ?_
  · intro J h
    rcases (own_wait he.ctl).1 h with ⟨-, hv, -⟩ | ⟨d, v, hv, rfl⟩
    · cases hv
    · cases hv
      exact hdrain _ (he.acknowledged d)
  · intro J h
    obtain ⟨c, hcall, rfl⟩ := (own_idle hf.ctl).1 h
    exact hanswer c (hf.app ▸ hcall)

/-! From the beginning of a turn every run comes to the acknowledgement.  The three lemmas go backward
through the states in which a turn begins, and in each one the listener that waits comes first. -/

section Open

variable (hspeak : A.call T.x = some (.udplastsend T.m)) (hlisten : A.call T.y = some .udplastrecv)
  (hheard : ∀ e f d r, Sends e T.x T.m (.udplastsendWait T.m r) T.a T.b →
    Stands f (T.y' A) .idle T.b (1 - T.a) → Until (JStep A) Q P ⟨e, f, [], [d]⟩)

include hlisten hheard

theorem until_of_sent (he : Sends e T.x T.m (.udplastsendWait T.m r) T.a T.b) (hf : T.Listens f) :
    Until (JStep A) Q P ⟨e, f, [copyOf T.m T.a], []⟩ := by
  -- a listener that waits takes the message
  have hwaits : ∀ f, Stands f T.y .udplastrecv T.b T.a →
      Until (JStep A) Q P ⟨e, f, [copyOf T.m T.a], []⟩ := by
    intro f hf
    refine until_of_own (hQ _ (.inl he.app) (.inl hf.app))
      (.inr ⟨_, (own_recv hf.ctl).2 ⟨⟨[], []⟩, _, _, rfl, rfl⟩⟩) ?_ ?_
    · intro J h
      rcases (own_wait he.ctl).1 h with ⟨hw, -, -⟩ | ⟨d, v, hv, -⟩
      · cases hw
      · cases hv
    · intro J h
      obtain ⟨j, d, v, hv, rfl⟩ := (own_recv hf.ctl).1 h
      cases hv
      obtain ⟨hf', d, hd⟩ := hf.hear (A := A) (m := T.m) j
      rw [hd]
      exact hheard _ _ _ _ he hf'
  cases hf with
  | waits hf => exact hwaits f hf
  | idle hf =>
      -- a listener that is about to wait begins to
      have hcall : A.call f.app = some .udplastrecv := hf.app.symm ▸ hlisten
      refine until_of_own (hQ _ (.inl he.app) (.inl hf.app))
        (.inr ⟨_, (own_idle hf.ctl).2 ⟨_, hcall, rfl⟩⟩) ?_ ?_
      · intro J h
        rcases (own_wait he.ctl).1 h with ⟨hw, -, -⟩ | ⟨d, v, hv, -⟩
        · cases hw
        · cases hv
      · intro J h
        obtain ⟨c, hc, rfl⟩ := (own_idle hf.ctl).1 h
        cases hcall.symm.trans hc
        exact hwaits _ (hf.listen (A := A)).1

theorem until_of_lost (he : Sends e T.x T.m (.udplastsendWait T.m 0) T.a T.b) (hf : T.Listens f) :
    Until (JStep A) Q P ⟨e, f, [], []⟩ := by
  -- nothing is on the way: the timeout fires, and the message is sent again
  have hagain : ∀ f, T.Listens f → ∀ J, Own A ⟨e, f, [], []⟩ J → Until (JStep A) Q P J := by
    intro f hf J h
    rcases (own_wait he.ctl).1 h with ⟨-, -, rfl⟩ | ⟨d, v, hv, -⟩
    · obtain ⟨he', hcopy⟩ := he.again T.plain
      change Until (JStep A) Q P ⟨(e.resendLast T.m 0).1, f, (e.resendLast T.m 0).2, []⟩
      rw [hcopy]
      exact until_of_sent hQ hlisten hheard he' hf
    · cases hv
  have hgo : ∀ f, ∃ J, Own A ⟨e, f, [], []⟩ J := fun f =>
    ⟨_, (own_wait he.ctl).2 (.inl ⟨rfl, rfl, rfl⟩)⟩
  have hwaits : ∀ f, Stands f T.y .udplastrecv T.b T.a → Until (JStep A) Q P ⟨e, f, [], []⟩ := by
    intro f hf
    refine until_of_own (hQ _ (.inl he.app) (.inl hf.app)) (.inl (hgo f)) (hagain f (.waits hf)) ?_
    intro J h
    obtain ⟨j, d, v, hv, -⟩ := (own_recv hf.ctl).1 h
    cases hv
  cases hf with
  | waits hf => exact hwaits f hf
  | idle hf =>
      refine until_of_own (hQ _ (.inl he.app) (.inl hf.app)) (.inl (hgo f)) (hagain f (.idle hf)) ?_
      intro J h
      obtain ⟨c, hc, rfl⟩ := (own_idle hf.ctl).1 h
      cases hc.symm.trans (hf.app.symm ▸ hlisten)
      exact hwaits _ (hf.listen (A := A)).1

include hspeak

theorem until_of_due (he : Stands e T.x .idle T.a T.b) (hf : T.Listens f) :
    Until (JStep A) Q P ⟨e, f, [], []⟩ := by
  have hcall : A.call e.app = some (.udplastsend T.m) := he.app.symm ▸ hspeak
  -- the speaker sends, whatever the listener does
  have hsend : ∀ f, T.Listens f → ∀ J, Own A ⟨e, f, [], []⟩ J → Until (JStep A) Q P J := by
    intro f hf J h
    obtain ⟨c, hc, rfl⟩ := (own_idle he.ctl).1 h
    cases hcall.symm.trans hc
    obtain ⟨he', hcopy⟩ := he.send (A := A) T.plain
    change Until (JStep A) Q P
      ⟨(e.begin A (.udplastsend T.m)).1, f, (e.begin A (.udplastsend T.m)).2, []⟩
    rw [hcopy]
    exact until_of_sent hQ hlisten hheard he' hf
  have hgo : ∀ f, ∃ J, Own A ⟨e, f, [], []⟩ J := fun f =>
    ⟨_, (own_idle he.ctl).2 ⟨_, hcall, rfl⟩⟩
  have hwaits : ∀ f, Stands f T.y .udplastrecv T.b T.a → Until (JStep A) Q P ⟨e, f, [], []⟩ := by
    intro f hf
    refine until_of_own (hQ _ (.inl he.app) (.inl hf.app)) (.inl (hgo f)) (hsend f (.waits hf)) ?_
    intro J h
    obtain ⟨j, d, v, hv, -⟩ := (own_recv hf.ctl).1 h
    cases hv
  cases hf with
  | waits hf => exact hwaits f hf
  | idle hf =>
      refine until_of_own (hQ _ (.inl he.app) (.inl hf.app)) (.inl (hgo f)) (hsend f (.idle hf)) ?_
      intro J h
      obtain ⟨c, hc, rfl⟩ := (own_idle hf.ctl).1 h
      cases hc.symm.trans (hf.app.symm ▸ hlisten)
      exact hwaits _ (hf.listen (A := A)).1

theorem until_of_open (h : T.Open J) : Until (JStep A) Q P J := by
  obtain ⟨e, f, w, v⟩ := J
  obtain ⟨hspeaks, hlistens, hv⟩ := h
  cases hv
  cases hspeaks with
  | due he => exact until_of_due hQ hspeak hlisten hheard he hlistens
  | sent he => exact until_of_sent hQ hlisten hheard he hlistens
  | lost he => exact until_of_lost hQ hlisten hheard he hlistens

end Open

/-- From a turn that the listener answers, every run comes to the next one. -/
theorem until_next (hcalls : T.Calls A) (hanswers : A.call (T.y' A) = some (.udplastsend m'))
    (h : T.Open J) : Until (JStep A) Q (fun J => (T.next A m' hm').Open J.swap) J := by
  have hnow : ∀ J : Joint π, (T.next A m' hm').Open J.swap →
      Until (JStep A) Q (fun J => (T.next A m' hm').Open J.swap) J := fun _ hJ => .now hJ
  refine until_of_open hQ hcalls.speaks hcalls.listens ?_ h
  intro e f d r he hf
  have hcall : ∀ c, A.call (T.y' A) = some c → c = .udplastsend m' := fun c hc =>
    Option.some.inj (hc.symm.trans hanswers)
  obtain ⟨hf', hcopy⟩ := hf.send (A := A) hm'
  refine until_of_heard hQ he hf ?_ ?_
  · intro e he
    refine until_of_drain hQ he hf (fun J hJ => hnow J hJ.open) ?_
    intro c hc
    rw [hcall c hc, hcopy]
    exact until_of_read_away hQ he hf' hnow
  · intro c hc
    rw [hcall c hc, hcopy]
    exact until_of_answered hQ he hf' hnow

/-- From a turn that the listener does not answer, every run comes to rest. -/
theorem until_rest (hcalls : T.Calls A) (hanswers : A.call (T.y' A) = none) (h : T.Open J) :
    Until (JStep A) Q (T.Rest A) J := by
  refine until_of_open hQ hcalls.speaks hcalls.listens ?_ h
  intro e f d r he hf
  have hcall : ∀ c, A.call (T.y' A) ≠ some c := fun c hc => nomatch hc.symm.trans hanswers
  refine until_of_heard hQ he hf ?_ fun c hc => absurd hc (hcall c)
  intro e he
  exact until_of_drain hQ he hf (fun J hJ => .now hJ) fun c hc => absurd hc (hcall c)

/-- What comes after the next turn comes after this one. -/
theorem until_follows {T' : Turn π} (hcalls : T.Calls A) (hcalls' : T'.Calls A)
    (hfollows : T.Follows A T')
    (hthen : ∀ J, T'.Open J → Until (JStep A) (fun J => Q J.swap) (fun J => P J.swap) J)
    (h : T.Open J) : Until (JStep A) Q P J := by
  have hanswers : A.call (T.y' A) = some (.udplastsend T'.m) := hfollows.x ▸ hcalls'.speaks
  have hnext : Until (JStep A) Q (fun J => (T.next A T'.m T'.plain).Open J.swap) J :=
    until_next hQ hcalls hanswers h
  rw [hfollows.next_eq] at hnext
  exact hnext.trans fun J hJ => until_swap.1 (hthen J.swap hJ)

end Until

theorem Rest.follows {T' : Turn π} (h : T.Rest A J) (hfollows : T.Follows A T') : T'.Open J.swap := by
  have hopen : (T.next A T'.m T'.plain).Open J.swap := h.open
  rwa [hfollows.next_eq] at hopen

/-- When everything is prompt, both calls return before the listener answers. -/
theorem reach_rest (hcalls : T.Calls A) (h : T.Open J) :
    ∃ J', ReflTransGen (JStep A) J J' ∧ T.Rest A J' := by
  have hheard : Until (JStep A) (fun _ => True) (fun J => ∃ e f d r, J = ⟨e, f, [], [d]⟩ ∧
      Sends e T.x T.m (.udplastsendWait T.m r) T.a T.b ∧ Stands f (T.y' A) .idle T.b (1 - T.a)) J :=
    until_of_open (fun _ _ _ => trivial) hcalls.speaks hcalls.listens
      (fun e f d r he hf => .now ⟨e, f, d, r, rfl, he, hf⟩) h
  obtain ⟨J', hreach, e, f, d, r, rfl, he, hf⟩ := hheard.exists_reach
  have he' := he.acknowledged d
  have hread : JStep A ⟨e, f, [], [d]⟩ ⟨e.recvInLastWait d, f, [], []⟩ :=
    .inl ((own_wait he.ctl).2 (.inr ⟨d, [], rfl, rfl⟩))
  have hend : JStep A ⟨e.recvInLastWait d, f, [], []⟩
      ⟨(e.recvInLastWait d).finishUdplastsend A, f, [], []⟩ :=
    .inl ((own_drain he'.ctl).2 (.inl ⟨rfl, rfl, rfl⟩))
  exact ⟨_, (hreach.tail hread).tail hend, he'.finish T.bit_a, hf, rfl, rfl⟩

/-- A listener that takes the message for a repetition keeps listening, and the speaker goes on. -/
theorem reach_dropped (hcalls : T.Calls A) (he : Stands J.e T.x .idle T.a T.b) (happ : J.f.app = T.y)
    (hctl : J.f.ctl = .idle ∨ J.f.ctl = .udplastrecv) (hprev : J.f.mem.prevRecvSeq = T.a)
    (hw : J.w = []) (hv : J.v = []) :
    ∃ J', ReflTransGen (JStep A) J J' ∧ Stands J'.e (T.x' A) .idle (1 - T.a) T.b ∧ J'.f.app = T.y ∧
      J'.f.ctl = .udplastrecv ∧ J'.w = [] ∧ J'.v = [] := by
  obtain ⟨e, f, w, v⟩ := J
  cases hw
  cases hv
  replace he : Stands e T.x .idle T.a T.b := he
  -- the listener listens
  obtain ⟨f, hlisten, happ, hctl, hprev⟩ : ∃ f', ReflTransGen (JStep A) ⟨e, f, [], []⟩ ⟨e, f', [], []⟩ ∧
      f'.app = T.y ∧ f'.ctl = .udplastrecv ∧ f'.mem.prevRecvSeq = T.a := by
    rcases hctl with hctl | hctl
    · have hcall : A.call f.app = some .udplastrecv := happ.symm ▸ hcalls.listens
      exact ⟨(f.begin A .udplastrecv).1, .single (.inr ((own_idle hctl).2 ⟨_, hcall, rfl⟩)), happ,
        rfl, hprev⟩
    · exact ⟨f, .refl, happ, hctl, hprev⟩
  -- the message comes, and its acknowledgement goes back
  have hcall : A.call e.app = some (.udplastsend T.m) := he.app.symm ▸ hcalls.speaks
  obtain ⟨he', hcopy⟩ := he.send (A := A) T.plain
  obtain ⟨happ', hctl', d, hd⟩ := recvInLast_repeated (A := A) (m := T.m) hprev ⟨[], []⟩
  have hsend : JStep A ⟨e, f, [], []⟩
      ⟨(e.begin A (.udplastsend T.m)).1, f, [] ++ (e.begin A (.udplastsend T.m)).2, []⟩ :=
    .inl ((own_idle he.ctl).2 ⟨_, hcall, rfl⟩)
  have hdrop : JStep A ⟨(e.begin A (.udplastsend T.m)).1, f, [copyOf T.m T.a], []⟩
      ⟨(e.begin A (.udplastsend T.m)).1, (f.recvInLast A ⟨[], []⟩ (copyOf T.m T.a)).1, [],
        [] ++ (f.recvInLast A ⟨[], []⟩ (copyOf T.m T.a)).2⟩ :=
    .inr ((own_recv hctl).2 ⟨⟨[], []⟩, _, _, rfl, rfl⟩)
  rw [hcopy] at hsend
  rw [hd] at hdrop
  have he'' := he'.acknowledged d
  refine ⟨⟨((e.begin A (.udplastsend T.m)).1.recvInLastWait d).finishUdplastsend A,
    (f.recvInLast A ⟨[], []⟩ (copyOf T.m T.a)).1, [], []⟩, ?_, he''.finish T.bit_a, happ'.trans happ,
    hctl'.trans hctl, rfl, rfl⟩
  calc
    ReflTransGen (JStep A) _ _ := hlisten
    ReflTransGen (JStep A) _ _ := .single hsend
    ReflTransGen (JStep A) _ _ := .single hdrop
    ReflTransGen (JStep A) _ _ := .single (.inl ((own_wait he'.ctl).2 (.inr ⟨d, [], rfl, rfl⟩)))
    ReflTransGen (JStep A) _ _ := .single (.inl ((own_drain he''.ctl).2 (.inl ⟨rfl, rfl, rfl⟩)))

end Turn

end Assign3
end FileTransfer
