import FileTransfer.Assign3.Endpoint
import FileTransfer.Udp.Direction

/-!
# Where the control channel of `Assign3_zcl` delivers in order

`udplastsend` takes anything that arrives for the acknowledgement it waits for and gives up after four
timeouts, and `udplastrecv` returns anything whose number is not the last one; pairs, their
acknowledgements and refusals arrive on the same socket.  As long as the endpoints take what they should
have waited for (`TakesOwn`), the messages arrive in order and exactly once.
-/

namespace FileTransfer
namespace Assign3

open Udp

variable {π : Type*} {A : App π}

/-! ## The two halves of an endpoint -/

def mode (e : Endpoint π) : Mode :=
  match e.ctl with
  | .udplastsendWait _ _ => .waiting
  | .udplastsendDrain => .draining
  | _ => .idle

def sending (e : Endpoint π) : Sending := ⟨mode e, e.mem.sendSeq, e.hist.passed⟩
def receiving (e : Endpoint π) : Receiving := ⟨e.mem.prevRecvSeq, e.hist.returned⟩

/-- The next timeout ends the wait of `udplastsend`. -/
def GivesUp (e : Endpoint π) : Prop :=
  match e.ctl with
  | .udplastsendWait _ resendcount => 3 ≤ resendcount
  | _ => False

instance (e : Endpoint π) : Decidable (GivesUp e) := by
  unfold GivesUp
  split <;> infer_instance

/-- What `udplastrecv` has in `recvmsg` after it has read a datagram. -/
def readLast (e : Endpoint π) (d : Datagram) : Udppacket :=
  (recvfrom (e.mem.recvmsg.clear bufferLength) sizeofUdppacket d).1

/-- In the direction from `s`, the endpoints take what they wait for: `udplastsend` ends its wait with
the acknowledgement of `Send_Seq`, and a packet that `udplastrecv` does not take for a repetition has
the number and the bytes of a message.  Besides, `udplastsend` does not give up, and `PutFileToServer`
sets `Send_Seq` to `0` only when that leaves it different from the peer's `prev_Recv_Seq`. -/
def TakesOwn (A : App π) (s : Side) (n : Net (Endpoint π) Datagram) : FifoEvent Act Junk → Prop
  | .act t .run =>
      t = s → (n.node s).nextCall A = some (.reset .putFileToServer) →
        (n.node s).mem.sendSeq = 0 ∨ (n.node s.peer).mem.prevRecvSeq ≠ 0
  | .act t .timeout => t = s → ¬ GivesUp (n.node s)
  | .deliver t _ =>
      ∀ d ∈ (n.wire t.peer).head?,
        (t = s → mode (n.node s) = .waiting → d.ackNumber = some (n.node s).mem.sendSeq) ∧
        (t = s.peer → (n.node s.peer).ctl = .udplastrecv →
          (readLast (n.node s.peer) d).seqNo = (n.node s.peer).mem.prevRecvSeq ∨
            d.BringsMessage (readLast (n.node s.peer) d))
  | .lose _ _ => True

instance (A : App π) (s : Side) (n : Net (Endpoint π) Datagram) (ev : FifoEvent Act Junk) :
    Decidable (TakesOwn A s n ev) := by
  unfold TakesOwn
  split <;> infer_instance

/-! ## Steps of the other functions -/

/-- What the sending endpoint keeps: its bit, the packet it repeats, and the count of its calls. -/
structure SenderOk (e : Endpoint π) : Prop where
  bit : e.mem.sendSeq = 0 ∨ e.mem.sendSeq = 1
  counts : match e.ctl with
    | .udplastsendWait m _ => e.hist.passed.getLast? = some m ∧
        e.mem.sendmsg = ⟨e.mem.sendSeq, m.data⟩ ∧ e.hist.completed + 1 = e.hist.passed.length
    | .udplastsendDrain => e.hist.completed + 1 = e.hist.passed.length
    | _ => e.hist.completed = e.hist.passed.length

/-- The endpoint is not in `udplastsend` before and after, and its control halves are the same. -/
structure Apart (e e' : Endpoint π) : Prop where
  before : mode e = .idle
  after : mode e' = .idle
  sendSeq : e'.mem.sendSeq = e.mem.sendSeq
  prevRecvSeq : e'.mem.prevRecvSeq = e.mem.prevRecvSeq
  passed : e'.hist.passed = e.hist.passed
  completed : e'.hist.completed = e.hist.completed
  returned : e'.hist.returned = e.hist.returned

/-- Datagrams of the paired-packet protocol. -/
def IsPair (d : Datagram) : Prop :=
  d.len = sizeofUdppacket ∧ (d.origin = .pair ∨ d.origin = .pairAck ∨ d.origin = .pairNak)

section Apart

variable {e e' : Endpoint π} {d : Datagram} {w : List Datagram} {i : Act} {j : Junk} {prev : Int}
  {p : Endpoint π × List Datagram}

theorem counts_of_idle (hmode : mode e = .idle) (h : SenderOk e) :
    e.hist.completed = e.hist.passed.length := by
  have hcounts := h.counts
  unfold mode at hmode
  cases hctl : e.ctl <;> rw [hctl] at hmode hcounts
  case udplastsendWait => cases hmode
  case udplastsendDrain => cases hmode
  all_goals exact hcounts

theorem senderOk_of_idle (hmode : mode e = .idle) (hbit : e.mem.sendSeq = 0 ∨ e.mem.sendSeq = 1)
    (hcounts : e.hist.completed = e.hist.passed.length) : SenderOk e := by
  refine ⟨hbit, ?_⟩
  unfold mode at hmode
  cases hctl : e.ctl <;> rw [hctl] at hmode
  case udplastsendWait => cases hmode
  case udplastsendDrain => cases hmode
  all_goals exact hcounts

theorem Apart.senderOk (h : Apart e e') (hok : SenderOk e) : SenderOk e' := by
  refine senderOk_of_idle h.after (h.sendSeq ▸ hok.bit) ?_
  rw [h.completed, h.passed]
  exact counts_of_idle h.before hok

theorem Apart.sending_eq (h : Apart e e') : sending e' = sending e := by
  simp only [sending, h.before, h.after, h.sendSeq, h.passed]

theorem Apart.receiving_eq (h : Apart e e') : receiving e' = receiving e := by
  simp only [receiving, h.prevRecvSeq, h.returned]

theorem IsPair.sane (h : IsPair d) : Sane d := by
  unfold Sane
  rw [h.1]
  exact ⟨by decide, Nat.le_refl _⟩

theorem messages_pairs (h : ∀ d ∈ w, IsPair d) : messages w = [] := by
  refine List.filter_eq_nil_iff.2 fun d hd => ?_
  obtain ⟨-, ho | ho | ho⟩ := h d hd <;> simp [Datagram.isMessage, ho]

theorem ackNumbers_pairs (h : ∀ d ∈ w, IsPair d) : ackNumbers w = [] := by
  refine List.filterMap_eq_nil_iff.2 fun d hd => ?_
  obtain ⟨-, ho | ho | ho⟩ := h d hd <;> simp [Datagram.ackNumber, ho]

theorem isPair_pair (x : Members) : ∀ d ∈ x.pair, IsPair d := by
  intro d hd
  simp only [Members.pair, List.mem_cons, List.not_mem_nil, or_false] at hd
  rcases hd with rfl | rfl
  · exact ⟨rfl, Or.inl rfl⟩
  · exact ⟨rfl, Or.inl rfl⟩

/-- A step that is no step of the control functions. -/
def StepApart (e : Endpoint π) (p : Endpoint π × List Datagram) : Prop :=
  Apart e p.1 ∧ ∀ d ∈ p.2, IsPair d

theorem apart_udpsendLoop (hmode : mode e = .idle) (x : Members) (hseq : x.sendSeq = e.mem.sendSeq)
    (hprev : x.prevRecvSeq = e.mem.prevRecvSeq) (arrived : Bool) (r : Nat) (s1 s2 : Bool) :
    Apart e (({ e with mem := x } : Endpoint π).udpsendLoop arrived r s1 s2) := by
  unfold Endpoint.udpsendLoop
  split <;> exact ⟨hmode, rfl, hseq, hprev, rfl, rfl, rfl⟩

theorem apart_finishUdpsend (hmode : mode e = .idle) (x : Members)
    (hseq : x.sendSeq = e.mem.sendSeq) (hprev : x.prevRecvSeq = e.mem.prevRecvSeq) :
    Apart e (({ e with mem := x } : Endpoint π).finishUdpsend A) :=
  ⟨hmode, rfl, hseq, hprev, rfl, rfl, rfl⟩

theorem apart_drainLoop (hmode : mode e = .idle) (x : Members) (hseq : x.sendSeq = e.mem.sendSeq)
    (hprev : x.prevRecvSeq = e.mem.prevRecvSeq) (s1 s2 : Bool) :
    Apart e (({ e with mem := x } : Endpoint π).drainLoop A s1 s2) := by
  unfold Endpoint.drainLoop
  split
  · exact ⟨hmode, rfl, hseq, hprev, rfl, rfl, rfl⟩
  · exact apart_finishUdpsend hmode x hseq hprev

theorem apart_answerPair (hmode : mode e = .idle) (x : Members) (hseq : x.sendSeq = e.mem.sendSeq)
    (hprev : x.prevRecvSeq = e.mem.prevRecvSeq) (j : Junk) :
    StepApart e (({ e with mem := x } : Endpoint π).answerPair A j) := by
  unfold Endpoint.answerPair
  dsimp only
  split
  · refine ⟨⟨hmode, rfl, hseq, hprev, rfl, rfl, rfl⟩, fun d hd => ?_⟩
    simp only [List.mem_cons, List.not_mem_nil, or_false] at hd
    rcases hd with rfl | rfl <;> exact ⟨rfl, Or.inr (Or.inl rfl)⟩
  · split
    · refine ⟨⟨hmode, rfl, hseq, hprev, rfl, rfl, rfl⟩, fun d hd => ?_⟩
      simp only [List.mem_cons, List.not_mem_nil, or_false] at hd
      rcases hd with rfl | rfl <;> exact ⟨rfl, Or.inr (Or.inl rfl)⟩
    · refine ⟨⟨hmode, rfl, hseq, hprev, rfl, rfl, rfl⟩, fun d hd => ?_⟩
      simp only [List.mem_cons, List.not_mem_nil, or_false] at hd
      rcases hd with rfl | rfl <;> exact ⟨rfl, Or.inr (Or.inr rfl)⟩

/-! ## Every step -/

theorem nextCall_idle {c : Call} (h : e.nextCall A = some c) : e.ctl = .idle := by
  unfold Endpoint.nextCall at h
  split at h
  · assumption
  · cases h

theorem mode_of_nextCall {c : Call} (h : e.nextCall A = some c) : mode e = .idle := by
  simp only [mode, nextCall_idle h]

/-- What an endpoint does on its own. -/
theorem act_cases (hact : (machine A).act e i = some p) :
    StepApart e p ∨
    (i = .run ∧ e.nextCall A = some (.reset .putFileToServer) ∧
      p = (({ e with mem := e.mem.reset .putFileToServer } : Endpoint π).finish A .done, [])) ∨
    (∃ m, i = .run ∧ e.nextCall A = some (.udplastsend m) ∧ p = e.beginUdplastsend m) ∨
    (∃ m r, i = .timeout ∧ e.ctl = .udplastsendWait m r ∧ p = e.resendLast m r) ∨
    (i = .timeout ∧ e.ctl = .udplastsendDrain ∧ p = (e.finishUdplastsend A, [])) := by
  cases i with
  | run =>
      simp only [machine, Option.map_eq_some_iff] at hact
      obtain ⟨c, hcall, rfl⟩ := hact
      have hctl := nextCall_idle hcall
      have hmode : mode e = .idle := by
        simp only [mode, hctl]
      -- of the calls only `udplastsend` and one reset touch the control channel
      cases c with
      | reset r =>
          cases r with
          | putFileToServer => exact Or.inr (Or.inl ⟨rfl, hcall, rfl⟩)
          | putFileToClient =>
              exact Or.inl ⟨⟨hmode, rfl, rfl, rfl, rfl, rfl, rfl⟩, fun d hd => nomatch hd⟩
          | getFile => exact Or.inl ⟨⟨hmode, rfl, rfl, rfl, rfl, rfl, rfl⟩, fun d hd => nomatch hd⟩
      | udpsend b => exact Or.inl ⟨⟨hmode, rfl, rfl, rfl, rfl, rfl, rfl⟩, isPair_pair _⟩
      | udprecv => exact Or.inl ⟨⟨hmode, rfl, rfl, rfl, rfl, rfl, rfl⟩, fun d hd => nomatch hd⟩
      | udplastsend m => exact Or.inr (Or.inr (Or.inl ⟨m, rfl, hcall, rfl⟩))
      | udplastrecv => exact Or.inl ⟨⟨hmode, rfl, rfl, rfl, rfl, rfl, rfl⟩, fun d hd => nomatch hd⟩
  | timeout =>
      simp only [machine, Endpoint.timeout] at hact
      -- a timeout in one of the loops of `udpsend`, or in `udplastsend`
      cases hctl : e.ctl <;> rw [hctl] at hact <;>
        simp only [Option.some.injEq, reduceCtorEq] at hact
      case udpsendFirst r s1 s2 =>
        subst hact
        refine Or.inl ⟨apart_udpsendLoop ?_ e.mem rfl rfl _ _ _ _, isPair_pair _⟩
        simp only [mode, hctl]
      case udpsendSecond r s1 s2 =>
        subst hact
        refine Or.inl ⟨apart_udpsendLoop ?_ e.mem rfl rfl _ _ _ _, fun d hd => nomatch hd⟩
        simp only [mode, hctl]
      case drainFirst s1 s2 =>
        subst hact
        refine Or.inl ⟨apart_finishUdpsend ?_ e.mem rfl rfl, fun d hd => nomatch hd⟩
        simp only [mode, hctl]
      case drainSecond s1 s2 =>
        subst hact
        refine Or.inl ⟨apart_drainLoop ?_ e.mem rfl rfl _ _, fun d hd => nomatch hd⟩
        simp only [mode, hctl]
      case udplastsendWait m r =>
        exact Or.inr (Or.inr (Or.inr (Or.inl ⟨m, r, rfl, rfl, hact.symm⟩)))
      case udplastsendDrain =>
        exact Or.inr (Or.inr (Or.inr (Or.inr ⟨rfl, rfl, hact.symm⟩)))

/-- What an endpoint does with a datagram. -/
theorem recv_cases (hrecv : (machine A).recv e j d = some p) :
    StepApart e p ∨
    (∃ m r, e.ctl = .udplastsendWait m r ∧ p = (e.recvInLastWait d, [])) ∨
    (e.ctl = .udplastsendDrain ∧ p = (e.recvInLastDrain A d, [])) ∨
    (e.ctl = .udplastrecv ∧ p = e.recvInLast A j d) := by
  simp only [machine, Endpoint.packet] at hrecv
  cases hctl : e.ctl <;> rw [hctl] at hrecv <;>
    simp only [Option.some.injEq, reduceCtorEq] at hrecv
  -- the waits of the control channel come first, and then those of the pairs
  case udplastsendWait m r => exact Or.inr (Or.inl ⟨m, r, rfl, hrecv.symm⟩)
  case udplastsendDrain => exact Or.inr (Or.inr (Or.inl ⟨rfl, hrecv.symm⟩))
  case udplastrecv => exact Or.inr (Or.inr (Or.inr ⟨rfl, hrecv.symm⟩))
  all_goals
    have hmode : mode e = .idle := by
      simp only [mode, hctl]
    subst hrecv
    left
  case udpsendFirst r s1 s2 =>
    exact ⟨⟨hmode, rfl, rfl, rfl, rfl, rfl, rfl⟩, fun d hd => nomatch hd⟩
  case udpsendSecond r s1 s2 =>
    exact ⟨apart_udpsendLoop hmode (e.mem.readSecond d) rfl rfl _ _ _ _, fun d hd => nomatch hd⟩
  case drainFirst s1 s2 =>
    exact ⟨⟨hmode, rfl, rfl, rfl, rfl, rfl, rfl⟩, fun d hd => nomatch hd⟩
  case drainSecond s1 s2 =>
    exact ⟨apart_drainLoop hmode (e.mem.readSecond d) rfl rfl _ _, fun d hd => nomatch hd⟩
  case udprecvFirst =>
    exact ⟨⟨hmode, rfl, rfl, rfl, rfl, rfl, rfl⟩, fun d hd => nomatch hd⟩
  case udprecvSecond n =>
    unfold Endpoint.recvInPairSecond
    dsimp only
    split
    · exact apart_answerPair hmode
        { e.mem with recvmsg2 := (recvfrom (e.mem.recvmsg2.clear packetLength) sizeofUdppacket d).1 }
        rfl rfl j
    · exact ⟨⟨hmode, rfl, rfl, rfl, rfl, rfl, rfl⟩, fun d hd => nomatch hd⟩

/-! ## The sending half -/

theorem toggle_bit {x : Int} (h : x = 0 ∨ x = 1) : toggle x = 1 - x := by
  unfold toggle
  omega

theorem sane_lastFirst (m : Message) : Sane (e.lastFirst m) := by
  unfold Endpoint.lastFirst
  cases e.side with
  | client => exact sane_whole _ _
  | server => exact sane_message m _

theorem origin_lastFirst (m : Message) :
    (e.lastFirst m).origin = .message m ∧ (e.lastFirst m).pkt = e.mem.sendmsg := by
  unfold Endpoint.lastFirst
  cases e.side <;> exact ⟨rfl, rfl⟩

/-- `udplastsend` returns, whether or not it has read another datagram. -/
theorem finish_step {d? : Option Datagram} (h : SenderOk e) (hctl : e.ctl = .udplastsendDrain)
    (x : Members) (hx : x.sendSeq = e.mem.sendSeq) :
    SenderOk (({ e with mem := x } : Endpoint π).finishUdplastsend A) ∧
      Udp.SendStep prev (sending e) d?
        (sending (({ e with mem := x } : Endpoint π).finishUdplastsend A)) [] := by
  have hcounts := h.counts
  rw [hctl] at hcounts
  have hbit := h.bit
  have htoggle := toggle_bit hbit
  have hmode : mode e = .draining := by
    simp only [mode, hctl]
  constructor
  · refine ⟨?_, hcounts⟩
    simp only [Endpoint.finishUdplastsend, Endpoint.finish, hx, htoggle]
    omega
  · have hstep : Udp.SendStep prev (sending e) d?
        { sending e with mode := .idle, sendSeq := 1 - (sending e).sendSeq } [] := .finish hmode
    simp only [sending, mode, hctl, Endpoint.finishUdplastsend, Endpoint.finish, hx,
      htoggle] at hstep ⊢
    exact hstep

theorem sendStep_act (h : SenderOk e)
    (hreset : i = .run → e.nextCall A = some (.reset .putFileToServer) →
      e.mem.sendSeq = 0 ∨ prev ≠ 0)
    (hgive : i = .timeout → ¬ GivesUp e) (hact : (machine A).act e i = some p) :
    SenderOk p.1 ∧ Udp.SendStep prev (sending e) none (sending p.1) p.2 := by
  rcases act_cases hact with ⟨hap, hout⟩ | ⟨hi, hcall, rfl⟩ | ⟨m, -, hcall, rfl⟩ |
    ⟨m, r, hi, hctl, rfl⟩ | ⟨-, hctl, rfl⟩
  · -- a step of the pairs
    refine ⟨hap.senderOk h, ?_⟩
    rw [hap.sending_eq]
    exact .stay (messages_pairs hout)
  · -- `PutFileToServer` resets the number
    have hmode : mode e = .idle := by
      simp only [mode, nextCall_idle hcall]
    refine ⟨senderOk_of_idle rfl (Or.inl rfl) (counts_of_idle (e := e) hmode h), ?_⟩
    have hstep : Udp.SendStep prev (sending e) none { sending e with sendSeq := 0 } [] :=
      .reset hmode (hreset hi hcall)
    simp only [sending, hmode] at hstep ⊢
    exact hstep
  · -- `udplastsend` begins
    have hmode : mode e = .idle := by
      simp only [mode, nextCall_idle hcall]
    have hcounts := counts_of_idle hmode h
    refine ⟨⟨h.bit, ?_, rfl, ?_⟩, ?_⟩
    · simp [Endpoint.beginUdplastsend]
    · simp [Endpoint.beginUdplastsend, hcounts]
    · have horigin := origin_lastFirst (e := (e.beginUdplastsend m).1) m
      exact .pass hmode horigin.1 horigin.2
  · -- the message is sent again
    have hcounts := h.counts
    have hr : r + 1 ≤ 3 := by
      have hnot := hgive hi
      unfold GivesUp at hnot
      rw [hctl] at hnot
      exact Nat.lt_of_not_le hnot
    rw [hctl] at hcounts
    unfold Endpoint.resendLast
    rw [if_pos hr]
    refine ⟨⟨h.bit, hcounts⟩, ?_⟩
    have hmode : mode e = .waiting := by
      simp only [mode, hctl]
    have hsame : sending ({ e with ctl := .udplastsendWait m (r + 1) } : Endpoint π) = sending e := by
      simp only [sending, hmode]
      rfl
    dsimp only
    rw [hsame]
    exact .again hmode hcounts.1 rfl hcounts.2.1
  · exact finish_step h hctl e.mem rfl

/-- What `udplastrecv` does with a datagram leaves the sending half alone. -/
theorem sending_udplastrecv (h : SenderOk e) (hctl : e.ctl = .udplastrecv) :
    SenderOk (e.recvInLast A j d).1 ∧
      Udp.SendStep prev (sending e) (some d) (sending (e.recvInLast A j d).1) (e.recvInLast A j d).2 := by
  have hmode : mode e = .idle := by
    simp only [mode, hctl]
  have hcounts := counts_of_idle hmode h
  -- the number of the sender and its counts are not touched, whatever is returned
  have hloop : ∀ (x : Members) (o : Origin), x.sendSeq = e.mem.sendSeq →
      SenderOk (({ e with mem := x } : Endpoint π).udplastrecvLoop A o) ∧
        sending (({ e with mem := x } : Endpoint π).udplastrecvLoop A o) = sending e := by
    intro x o hx
    unfold Endpoint.udplastrecvLoop
    dsimp only
    split
    · refine ⟨senderOk_of_idle (by simp only [mode, hctl]) (hx ▸ h.bit) hcounts, ?_⟩
      simp only [sending, mode, hctl, hx]
    · refine ⟨senderOk_of_idle rfl (hx ▸ h.bit) hcounts, ?_⟩
      simp only [sending, mode, Endpoint.finish, hctl, hx]
  unfold Endpoint.recvInLast
  dsimp only
  split
  · obtain ⟨hok, hsame⟩ := hloop
      (({ e.mem with
          recvmsg := (recvfrom (e.mem.recvmsg.clear bufferLength) sizeofUdppacket d).1
          currentRecvSeq := (recvfrom (e.mem.recvmsg.clear bufferLength) sizeofUdppacket d).1.seqNo } :
            Members).answerLast (ackPrefix e.side) j) d.origin rfl
    rw [hsame]
    exact ⟨hok, .stay (messages_answer _ _)⟩
  · obtain ⟨hok, hsame⟩ := hloop
      { e.mem with recvmsg := (recvfrom (e.mem.recvmsg.clear bufferLength) sizeofUdppacket d).1 }
      d.origin rfl
    rw [hsame]
    exact ⟨hok, .stay rfl⟩

theorem sendStep_recv (h : SenderOk e)
    (hack : mode e = .waiting → d.ackNumber = some e.mem.sendSeq)
    (hrecv : (machine A).recv e j d = some p) :
    SenderOk p.1 ∧ Udp.SendStep prev (sending e) (some d) (sending p.1) p.2 := by
  rcases recv_cases hrecv with ⟨hap, hout⟩ | ⟨m, r, hctl, rfl⟩ | ⟨hctl, rfl⟩ | ⟨hctl, rfl⟩
  · refine ⟨hap.senderOk h, ?_⟩
    rw [hap.sending_eq]
    exact .stay (messages_pairs hout)
  · have hcounts := h.counts
    rw [hctl] at hcounts
    have hmode : mode e = .waiting := by
      simp only [mode, hctl]
    have hstep : Udp.SendStep prev (sending e) (some d) { sending e with mode := .draining } [] :=
      .acknowledged hmode (hack hmode)
    exact ⟨⟨h.bit, hcounts.2.2⟩, hstep⟩
  · exact finish_step h hctl (e.mem.readFirst sizeofUdppacket d) rfl
  · exact sending_udplastrecv h hctl

/-! ## The receiving half -/

theorem recvStep_act (hact : (machine A).act e i = some p) :
    Udp.RecvStep (receiving e) none (receiving p.1) p.2 := by
  rcases act_cases hact with ⟨hap, hout⟩ | ⟨-, -, rfl⟩ | ⟨m, -, -, rfl⟩ | ⟨m, r, -, -, rfl⟩ |
    ⟨-, -, rfl⟩
  · rw [hap.receiving_eq]
    exact .stay (ackNumbers_pairs hout)
  · exact .stay rfl
  · exact .stay (ackNumbers_message (origin_lastFirst (e := (e.beginUdplastsend m).1) m).1)
  · exact .stay rfl
  · exact .stay rfl

theorem recvStep_recv (hd : Sane d)
    (hown : e.ctl = .udplastrecv →
      (readLast e d).seqNo = e.mem.prevRecvSeq ∨ d.BringsMessage (readLast e d))
    (hrecv : (machine A).recv e j d = some p) :
    Udp.RecvStep (receiving e) (some d) (receiving p.1) p.2 := by
  rcases recv_cases hrecv with ⟨hap, hout⟩ | ⟨m, r, hctl, rfl⟩ | ⟨hctl, rfl⟩ | ⟨hctl, rfl⟩
  · rw [hap.receiving_eq]
    exact .stay (ackNumbers_pairs hout)
  · exact .stay rfl
  · exact .stay rfl
  · have hpos := recvfrom_pos (e.mem.recvmsg.clear bufferLength) hd
    have hown' := hown hctl
    unfold readLast at hown'
    simp only [Endpoint.recvInLast, if_pos hpos]
    -- a repetition is acknowledged, and anything else returned
    by_cases hsame : (recvfrom (e.mem.recvmsg.clear bufferLength) sizeofUdppacket d).1.seqNo =
        e.mem.prevRecvSeq
    · rw [Endpoint.udplastrecvLoop_same]
      · exact .repeats (congrArg (fun a => [a]) hsame)
      · exact hsame
    · rw [Endpoint.udplastrecvLoop_new]
      swap
      · exact hsame
      rcases hown' with heq | hbrings
      · exact absurd heq hsame
      · obtain ⟨m, hm, hseq, hin⟩ := hbrings.exists_message
        exact .accepts hm hin hseq hsame rfl

/-! ## Lengths -/

theorem sane_act (hact : (machine A).act e i = some p) : ∀ d ∈ p.2, Sane d := by
  intro d hd
  rcases act_cases hact with ⟨-, hout⟩ | ⟨-, -, rfl⟩ | ⟨m, -, -, rfl⟩ | ⟨m, r, -, -, rfl⟩ |
    ⟨-, -, rfl⟩
  · exact (hout d hd).sane
  · cases hd
  · rw [List.mem_singleton.1 hd]
    exact sane_lastFirst m
  · rw [List.mem_singleton.1 hd]
    exact sane_message m _
  · cases hd

theorem sane_recv (hrecv : (machine A).recv e j d = some p) : ∀ d' ∈ p.2, Sane d' := by
  intro d' hd'
  rcases recv_cases hrecv with ⟨-, hout⟩ | ⟨m, r, -, rfl⟩ | ⟨-, rfl⟩ | ⟨-, rfl⟩
  · exact (hout d' hd').sane
  · cases hd'
  · cases hd'
  · simp only [Endpoint.recvInLast] at hd'
    split at hd'
    · rw [List.mem_singleton.1 hd']
      exact sane_whole _ _
    · cases hd'

end Apart

/-! ## Runs -/

section Runs

variable {s : Side} {n : Net (Endpoint π) Datagram} {i : Act}

theorem takesOwn_run (hok : TakesOwn A s n (.act s i)) (hi : i = .run)
    (hcall : (n.node s).nextCall A = some (.reset .putFileToServer)) :
    (n.node s).mem.sendSeq = 0 ∨ (n.node s.peer).mem.prevRecvSeq ≠ 0 := by
  subst hi
  exact hok rfl hcall

theorem takesOwn_timeout (hok : TakesOwn A s n (.act s i)) (hi : i = .timeout) :
    ¬ GivesUp (n.node s) := by
  subst hi
  exact hok rfl

/-- While the endpoints take what they wait for, the direction from `s` is a stop-and-wait exchange. -/
theorem exchanges (A : App π) (s : Side) :
    Exchanges (machine A) sending receiving s SenderOk (TakesOwn A s) where
  saneAct _ _ _ hact := sane_act hact
  saneRecv _ _ _ _ hrecv := sane_recv hrecv
  sendAct n i p h hok hact := sendStep_act h (takesOwn_run hok) (takesOwn_timeout hok) hact
  sendRecv n r d rest p h hok hd hrecv := by
    have hhead : d ∈ (n.wire s.peer).head? := by simp [hd]
    exact sendStep_recv h (fun hm => (hok d hhead).1 rfl hm) hrecv
  recvAct _ _ _ hact := recvStep_act hact
  recvRecv n r d rest p hok hd hsane hrecv := by
    have hhead : d ∈ (n.wire s.peer.peer).head? := by simp [hd]
    exact recvStep_recv hsane (fun hc => (hok d hhead).2 rfl hc) hrecv

/-- Both sides after the handshake, with nothing on the way. -/
def sessionStart (mem : Side → Members) (app : Side → π) : Net (Endpoint π) Datagram where
  node t := ⟨t, mem t, .idle, app t, .empty⟩
  wire _ := []

theorem linked_start {mem : Side → Members} {app : Side → π}
    (hbit : (mem s).sendSeq = 0 ∨ (mem s).sendSeq = 1)
    (hne : (mem s).sendSeq ≠ (mem s.peer).prevRecvSeq) :
    Linked sending receiving s SenderOk (sessionStart mem app) :=
  .start ⟨hbit, rfl⟩ rfl rfl rfl (fun _ => rfl) hbit hne

/-- The client is about to send a packet whose number the server takes for a new one. -/
def SendsNew (A : App π) (n : Net (Endpoint π) Datagram) : Prop :=
  ∀ m, (n.node .client).nextCall A = some (.udplastsend m) →
    (n.node .client).mem.sendSeq ≠ (n.node .server).mem.prevRecvSeq

theorem sendsNew {mem : Side → Members} {app : Side → π}
    (hbit : (mem .client).sendSeq = 0 ∨ (mem .client).sendSeq = 1)
    (hprev : (mem .server).prevRecvSeq ≠ 0 ∧ (mem .server).prevRecvSeq ≠ 1)
    {evs : List (FifoEvent Act Junk)} {n : Net (Endpoint π) Datagram}
    (hrun : Run (fifoStep (machine A)) (TakesOwn A .client) (sessionStart mem app) evs n) :
    SendsNew A n := by
  intro m hcall
  exact (exchanges A .client).sendSeq_ne (linked_start hbit (ne_of_bit hbit hprev)) hrun
    (mode_of_nextCall hcall)

/-- What the links say about the messages. -/
theorem inOrder_of_linked (h : Linked sending receiving s SenderOk n) :
    InOrder (n.node s).hist.passed (n.node s.peer).hist.returned (n.node s).hist.completed := by
  refine h.link.inOrder ?_
  have hcounts := h.sender.counts
  simp only [View.confirmed, direction, view, sending, mode]
  cases hctl : (n.node s).ctl <;> rw [hctl] at hcounts
  case udplastsendWait => exact Nat.le_sub_one_of_lt (Nat.lt_of_succ_le (Nat.le_of_eq hcounts.2.2))
  case udplastsendDrain => exact Nat.le_trans (Nat.le_succ _) (Nat.le_of_eq hcounts)
  all_goals exact Nat.le_of_eq hcounts

end Runs

end Assign3
end FileTransfer
