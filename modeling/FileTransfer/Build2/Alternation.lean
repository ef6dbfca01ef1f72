import FileTransfer.Build2.Endpoint
import FileTransfer.Udp.Direction

/-!
# Where `build 2` is an alternating-bit protocol

`udpsend` takes anything that arrives for the acknowledgement it waits for, and `udprecv` returns
anything whose number is not the last one.  As long as what they take is what they should have waited
for (`TakesOwn`), the messages arrive in order and exactly once; a premature timeout is enough for an
acknowledgement to be taken for a later one.
-/

namespace FileTransfer
namespace Build2

open Udp

variable {π : Type*} {A : App π}

/-! ## The two halves of an endpoint -/

def mode (e : Endpoint π) : Mode :=
  match e.ctl with
  | .udpsend _ => .waiting
  | _ => .idle

def sending (e : Endpoint π) : Sending := ⟨mode e, e.mem.sendSeq, e.hist.passed⟩
def receiving (e : Endpoint π) : Receiving := ⟨e.mem.prevRecvSeq, e.hist.returned⟩

/-- In the direction from `s`, the endpoints take what they wait for: `udpsend` ends with the
acknowledgement of `Send_Seq`, and a packet that `udprecv` does not take for a repetition has the
number and the bytes of a message.  Besides, `Send_Seq` is set to `0` only when that leaves it
different from the peer's `prev_Recv_Seq`. -/
def TakesOwn (A : App π) (s : Side) (n : Net (Endpoint π) Datagram) :
    FifoEvent Act (List Byte) → Prop
  | .act t .run =>
      t = s → (n.node s).nextCall A = some .reset →
        (n.node s).mem.sendSeq = 0 ∨ (n.node s.peer).mem.prevRecvSeq ≠ 0
  | .act _ .timeout => True
  | .deliver t _ =>
      ∀ d ∈ (n.wire t.peer).head?,
        (t = s → mode (n.node s) = .waiting → d.ackNumber = some (n.node s).mem.sendSeq) ∧
        (t = s.peer → (n.node s.peer).ctl = .udprecv →
          ((n.node s.peer).mem.read d).1.recvmsg.seqNo = (n.node s.peer).mem.prevRecvSeq ∨
            d.BringsMessage ((n.node s.peer).mem.read d).1.recvmsg)
  | .lose _ _ => True

instance (A : App π) (s : Side) (n : Net (Endpoint π) Datagram) (ev : FifoEvent Act (List Byte)) :
    Decidable (TakesOwn A s n ev) := by
  unfold TakesOwn
  split <;> infer_instance

/-! ## Steps -/

/-- The sending endpoint: its bit, the packet it repeats, and the count of its calls. -/
structure SenderOk (e : Endpoint π) : Prop where
  bit : e.mem.sendSeq = 0 ∨ e.mem.sendSeq = 1
  counts : match e.ctl with
    | .udpsend m => e.hist.passed.getLast? = some m ∧ e.mem.sendmsg = ⟨e.mem.sendSeq, m.data⟩ ∧
        e.hist.completed + 1 = e.hist.passed.length
    | _ => e.hist.completed = e.hist.passed.length

section Steps

variable {e : Endpoint π} {p : Endpoint π × List Datagram} {d : Datagram} {i : Act}
  {junk : List Byte} {prev : Int}

theorem nextCall_idle {c : Call} (h : e.nextCall A = some c) : e.ctl = .idle := by
  unfold Endpoint.nextCall at h
  split at h
  · assumption
  · cases h

theorem mode_of_nextCall {c : Call} (h : e.nextCall A = some c) : mode e = .idle := by
  simp only [mode, nextCall_idle h]

theorem flip_bit {x : Int} (h : x = 0 ∨ x = 1) : flip x = 1 - x := by
  unfold flip
  omega

theorem sane_sendFirst (m : Message) : Sane (e.sendFirst m) := by
  unfold Endpoint.sendFirst
  cases e.side with
  | client => exact sane_whole _ _
  | server => exact sane_message m _

theorem origin_sendFirst (m : Message) :
    (e.sendFirst m).origin = .message m ∧ (e.sendFirst m).pkt = e.mem.sendmsg := by
  unfold Endpoint.sendFirst
  cases e.side <;> exact ⟨rfl, rfl⟩

theorem sane_act (hact : (machine A).act e i = some p) : ∀ d ∈ p.2, Sane d := by
  intro d hd
  cases i with
  | run =>
      simp only [machine, Option.map_eq_some_iff] at hact
      obtain ⟨c, -, rfl⟩ := hact
      cases c with
      | reset => cases hd
      | udprecv => cases hd
      | udpsend m =>
          rw [List.mem_singleton.1 hd]
          exact sane_sendFirst m
  | timeout =>
      simp only [machine, Endpoint.timeout] at hact
      cases hctl : e.ctl <;> rw [hctl] at hact <;> cases hact
      rw [List.mem_singleton.1 hd]
      exact sane_message _ _

theorem sane_recv (hrecv : (machine A).recv e junk d = some p) : ∀ d' ∈ p.2, Sane d' := by
  intro d' hd'
  simp only [machine, Endpoint.packet] at hrecv
  cases hctl : e.ctl <;> rw [hctl] at hrecv <;> cases hrecv
  · cases hd'
  · simp only [Endpoint.recvInUdprecv] at hd'
    split at hd'
    · rw [List.mem_singleton.1 hd']
      exact sane_whole _ _
    · cases hd'

/-! ### The sending half -/

theorem sendStep_act (h : SenderOk e)
    (hreset : i = .run → e.nextCall A = some .reset → e.mem.sendSeq = 0 ∨ prev ≠ 0)
    (hact : (machine A).act e i = some p) :
    SenderOk p.1 ∧ SendStep prev (sending e) none (sending p.1) p.2 := by
  have hcounts := h.counts
  cases i with
  | run =>
      simp only [machine, Option.map_eq_some_iff] at hact
      obtain ⟨c, hcall, rfl⟩ := hact
      have hidle := nextCall_idle hcall
      rw [hidle] at hcounts
      have hmode : (sending e).mode = .idle := by
        simp only [sending, mode, hidle]
      cases c with
      -- the numbers are set to zero
      | reset =>
          refine ⟨⟨Or.inl rfl, hcounts⟩, ?_⟩
          have hstep : SendStep prev (sending e) none { sending e with sendSeq := 0 } [] :=
            .reset hmode (hreset rfl hcall)
          simp only [sending, mode, hidle] at hstep ⊢
          exact hstep
      | udprecv =>
          refine ⟨⟨h.bit, hcounts⟩, ?_⟩
          have hstep : SendStep prev (sending e) none (sending e) [] := .stay rfl
          simp only [sending, mode, hidle] at hstep ⊢
          exact hstep
      | udpsend m =>
          refine ⟨⟨h.bit, ?_, rfl, ?_⟩, ?_⟩
          · simp [Endpoint.begin, Endpoint.beginUdpsend]
          · simp [Endpoint.begin, Endpoint.beginUdpsend, hcounts]
          · have horigin := origin_sendFirst (e := (e.beginUdpsend m).1) m
            exact .pass hmode horigin.1 horigin.2
  | timeout =>
      simp only [machine, Endpoint.timeout] at hact
      cases hctl : e.ctl with
      | idle =>
          rw [hctl] at hact
          cases hact
      | udprecv =>
          rw [hctl] at hact
          cases hact
      | udpsend m =>
          -- the message is sent again
          rw [hctl] at hact hcounts
          cases hact
          refine ⟨h, .again ?_ hcounts.1 rfl hcounts.2.1⟩
          simp only [sending, mode, hctl]

/-- What `udprecv` does with a datagram leaves the sending half alone. -/
theorem sending_udprecv (h : SenderOk e) (hctl : e.ctl = .udprecv) (junk : List Byte) (d : Datagram) :
    SenderOk (e.recvInUdprecv A junk d).1 ∧
      SendStep prev (sending e) (some d) (sending (e.recvInUdprecv A junk d).1)
        (e.recvInUdprecv A junk d).2 := by
  have hcounts := h.counts
  rw [hctl] at hcounts
  have hmode : mode e = .idle := by
    simp only [mode, hctl]
  -- the number of the sender and its counts are not touched, whatever is returned
  have hloop : ∀ (x : Members) (o : Origin), x.sendSeq = e.mem.sendSeq →
      SenderOk (({ e with mem := x } : Endpoint π).udprecvLoop A o) ∧
        sending (({ e with mem := x } : Endpoint π).udprecvLoop A o) = sending e := by
    intro x o hx
    unfold Endpoint.udprecvLoop
    dsimp only
    split
    · refine ⟨⟨hx ▸ h.bit, ?_⟩, ?_⟩
      · rw [hctl]
        exact hcounts
      · simp only [sending, mode, hctl, hx]
    · refine ⟨⟨hx ▸ h.bit, hcounts⟩, ?_⟩
      simp only [sending, mode, Endpoint.finish, hctl, hx]
  unfold Endpoint.recvInUdprecv
  dsimp only
  split
  · obtain ⟨hok, hsame⟩ := hloop
      (({ (e.mem.read d).1 with currentRecvSeq := (e.mem.read d).1.recvmsg.seqNo } : Members).answer
        (ackPrefix e.side) junk) d.origin rfl
    rw [hsame]
    exact ⟨hok, .stay (messages_answer _ _)⟩
  · obtain ⟨hok, hsame⟩ := hloop (e.mem.read d).1 d.origin rfl
    rw [hsame]
    exact ⟨hok, .stay rfl⟩

theorem sendStep_recv (h : SenderOk e)
    (hack : mode e = .waiting → d.ackNumber = some e.mem.sendSeq)
    (hrecv : (machine A).recv e junk d = some p) :
    SenderOk p.1 ∧ SendStep prev (sending e) (some d) (sending p.1) p.2 := by
  have hcounts := h.counts
  simp only [machine, Endpoint.packet] at hrecv
  cases hctl : e.ctl with
  | idle =>
      rw [hctl] at hrecv
      cases hrecv
  | udpsend m =>
      rw [hctl] at hrecv hcounts
      cases hrecv
      -- anything that arrives ends the wait, here the right acknowledgement
      have hmode : mode e = .waiting := by
        simp only [mode, hctl]
      have hflip := flip_bit h.bit
      refine ⟨⟨?_, hcounts.2.2⟩, ?_⟩
      · have := h.bit
        simp only [Endpoint.recvInUdpsend, Endpoint.finish, Members.read, hflip]
        omega
      · have hstep : SendStep prev (sending e) (some d)
            { sending e with mode := .idle, sendSeq := 1 - (sending e).sendSeq } [] :=
          .returns hmode (hack hmode)
        simp only [sending, mode, Endpoint.recvInUdpsend, Endpoint.finish, Members.read, hflip]
        exact hstep
  | udprecv =>
      rw [hctl] at hrecv
      cases hrecv
      exact sending_udprecv h hctl junk d

/-! ### The receiving half -/

theorem recvStep_act (hact : (machine A).act e i = some p) :
    RecvStep (receiving e) none (receiving p.1) p.2 := by
  cases i with
  | run =>
      simp only [machine, Option.map_eq_some_iff] at hact
      obtain ⟨c, -, rfl⟩ := hact
      cases c with
      | reset => exact .stay rfl
      | udprecv => exact .stay rfl
      | udpsend m =>
          exact .stay (ackNumbers_message (origin_sendFirst (e := (e.beginUdpsend m).1) m).1)
  | timeout =>
      simp only [machine, Endpoint.timeout] at hact
      cases hctl : e.ctl <;> rw [hctl] at hact <;> cases hact
      exact .stay rfl

theorem recvStep_recv (hd : Sane d)
    (hown : e.ctl = .udprecv → (e.mem.read d).1.recvmsg.seqNo = e.mem.prevRecvSeq ∨
      d.BringsMessage (e.mem.read d).1.recvmsg)
    (hrecv : (machine A).recv e junk d = some p) :
    RecvStep (receiving e) (some d) (receiving p.1) p.2 := by
  simp only [machine, Endpoint.packet] at hrecv
  cases hctl : e.ctl with
  | idle =>
      rw [hctl] at hrecv
      cases hrecv
  | udpsend m =>
      rw [hctl] at hrecv
      cases hrecv
      exact .stay rfl
  | udprecv =>
      rw [hctl] at hrecv
      cases hrecv
      have hpos : 0 < (e.mem.read d).2 := recvfrom_pos (e.mem.recvmsg.clear bufferLength) hd
      have hprev : (e.mem.read d).1.prevRecvSeq = e.mem.prevRecvSeq := rfl
      simp only [Endpoint.recvInUdprecv, if_pos hpos, Endpoint.udprecvLoop, Members.answer, hprev]
      -- a repetition is acknowledged, and anything else returned
      by_cases hsame : (e.mem.read d).1.recvmsg.seqNo = e.mem.prevRecvSeq
      · rw [if_pos hsame]
        exact .repeats (congrArg (fun a => [a]) hsame)
      · rw [if_neg hsame]
        rcases hown hctl with heq | hbrings
        · exact absurd heq hsame
        · obtain ⟨m, hm, hseq, hin⟩ := hbrings.exists_message
          exact .accepts hm hin hseq hsame rfl

end Steps

/-! ## Runs -/

theorem takesOwn_act {s : Side} {n : Net (Endpoint π) Datagram} {i : Act}
    (hok : TakesOwn A s n (.act s i)) (hi : i = .run)
    (hcall : (n.node s).nextCall A = some .reset) :
    (n.node s).mem.sendSeq = 0 ∨ (n.node s.peer).mem.prevRecvSeq ≠ 0 := by
  subst hi
  exact hok rfl hcall

/-- While the endpoints take what they wait for, the direction from `s` is a stop-and-wait exchange. -/
theorem exchanges (A : App π) (s : Side) :
    Exchanges (machine A) sending receiving s SenderOk (TakesOwn A s) where
  saneAct _ _ _ hact := sane_act hact
  saneRecv _ _ _ _ hrecv := sane_recv hrecv
  sendAct n i p h hok hact := sendStep_act h (takesOwn_act hok) hact
  sendRecv n r d rest p h hok hd hrecv := by
    have hhead : d ∈ (n.wire s.peer).head? := by simp [hd]
    exact sendStep_recv h (fun hm => (hok d hhead).1 rfl hm) hrecv
  recvAct _ _ _ hact := recvStep_act hact
  recvRecv n r d rest p hok hd hsane hrecv := by
    have hhead : d ∈ (n.wire s.peer.peer).head? := by simp [hd]
    exact recvStep_recv hsane (fun hc => (hok d hhead).2 rfl hc) hrecv

/-- Both sides after `connectserver`, with nothing on the way. -/
def sessionStart (mem : Side → Members) (app : Side → π) : Net (Endpoint π) Datagram where
  node t := ⟨t, mem t, .idle, app t, .empty⟩
  wire _ := []

/-- Whenever the client is about to send a packet, its number is not the last one that the server
returned. -/
def SendsNew (A : App π) (n : Net (Endpoint π) Datagram) : Prop :=
  ∀ m, (n.node .client).nextCall A = some (.udpsend m) →
    (n.node .client).mem.sendSeq ≠ (n.node .server).mem.prevRecvSeq

theorem sendsNew {mem : Side → Members} {app : Side → π}
    (hbit : (mem .client).sendSeq = 0 ∨ (mem .client).sendSeq = 1)
    (hprev : (mem .server).prevRecvSeq ≠ 0 ∧ (mem .server).prevRecvSeq ≠ 1)
    {evs : List (FifoEvent Act (List Byte))} {n : Net (Endpoint π) Datagram}
    (hrun : Run (fifoStep (machine A)) (TakesOwn A .client) (sessionStart mem app) evs n) :
    SendsNew A n := by
  intro m hcall
  have hstart : Linked sending receiving .client SenderOk (sessionStart mem app) :=
    .start ⟨hbit, rfl⟩ rfl rfl rfl (fun _ => rfl) hbit (ne_of_bit hbit hprev)
  exact (exchanges A .client).sendSeq_ne hstart hrun (mode_of_nextCall hcall)

/-! ## Messages from one side to the other -/

/-- The loops around the calls: the sender has these messages left. -/
inductive Exchange where
  | sender (rest : List Message)
  | receiver

def exchangeApp : App Exchange where
  call
    | .sender [] => none
    | .sender (m :: _) => some (.udpsend m)
    | .receiver => some .udprecv
  resume
    | .sender rest, .udpsend _ => .sender rest.tail
    | x, _ => x

/-- `s` sends the messages `ms`, with `Send_Seq` equal to `0`, and its peer receives. -/
def exchangeStart (s : Side) (ms : List Message) (mem : Side → Members) :
    Net (Endpoint Exchange) Datagram where
  node t :=
    if t = s then ⟨t, { mem t with sendSeq := 0 }, .idle, .sender ms, .empty⟩
    else ⟨t, mem t, .idle, .receiver, .empty⟩
  wire _ := []

/-- In every run in which `udpsend` and `udprecv` take what they wait for, the packets that `udprecv`
returns are the first of the messages passed to `udpsend`, and `udpsend` returns only for those. -/
theorem messages_in_order (s : Side) (ms : List Message) (mem : Side → Members)
    (hprev : (mem s.peer).prevRecvSeq ≠ 0 ∧ (mem s.peer).prevRecvSeq ≠ 1)
    {evs : List (FifoEvent Act (List Byte))} {n : Net (Endpoint Exchange) Datagram}
    (hrun : Run (fifoStep (machine exchangeApp)) (TakesOwn exchangeApp s) (exchangeStart s ms mem)
      evs n) :
    InOrder (n.node s).hist.passed (n.node s.peer).hist.returned (n.node s).hist.completed := by
  have hself : (exchangeStart s ms mem).node s =
      ⟨s, { mem s with sendSeq := 0 }, .idle, .sender ms, .empty⟩ := if_pos rfl
  have hpeer : (exchangeStart s ms mem).node s.peer =
      ⟨s.peer, mem s.peer, .idle, .receiver, .empty⟩ := if_neg (Side.peer_ne s)
  have hstart : Linked sending receiving s SenderOk (exchangeStart s ms mem) := by
    apply Linked.start
    · rw [hself]
      exact ⟨Or.inl rfl, rfl⟩
    · rw [hself]
      rfl
    · rw [hself]
      rfl
    · rw [hpeer]
      rfl
    · exact fun _ => rfl
    · rw [hself]
      exact Or.inl rfl
    · rw [hself, hpeer]
      exact hprev.1.symm
  have hend := (exchanges exchangeApp s).run hstart hrun
  refine hend.link.inOrder ?_
  have hcounts := hend.sender.counts
  simp only [View.confirmed, direction, view, sending, mode]
  cases hctl : (n.node s).ctl <;> rw [hctl] at hcounts
  · exact Nat.le_of_eq hcounts
  · exact Nat.le_sub_one_of_lt (Nat.lt_of_succ_le (Nat.le_of_eq hcounts.2.2))
  · exact Nat.le_of_eq hcounts

/-- Zeros everywhere, and numbers that no packet has. -/
def freshMembers : Members := ⟨⟨0, .ofBytes []⟩, ⟨0, .ofBytes []⟩, 0, 0, 3000, 0⟩

/-- A message, sent and acknowledged. -/
def oneMessageEvents : List (FifoEvent Act (List Byte)) :=
  [.act .client .run, .act .server .run, .deliver .server [], .deliver .client []]

/-- A second message, which is lost and sent again. -/
def twoMessageEvents : List (FifoEvent Act (List Byte)) :=
  oneMessageEvents ++ [.act .client .run, .lose .client 0, .act .client .timeout, .act .server .run,
    .deliver .server [], .deliver .client []]

/-- Two messages that differ. -/
def twoMessages : List Message := [.whole (.ofBytes [7]), .whole (.ofBytes [8])]

theorem messages_in_order_twice :
    ∃ n, Run (fifoStep (machine exchangeApp)) (TakesOwn exchangeApp .client)
        (exchangeStart .client twoMessages fun _ => freshMembers) twoMessageEvents n ∧
      (n.node .client).hist.completed = 2 ∧
      InOrder (n.node .client).hist.passed (n.node .server).hist.returned 2 := by
  have hex : ∃ n, Run (fifoStep (machine exchangeApp)) (TakesOwn exchangeApp .client)
      (exchangeStart .client twoMessages fun _ => freshMembers) twoMessageEvents n ∧
        (n.node .client).hist.completed = 2 :=
    exists_run_of_exec (by decide +kernel)
  obtain ⟨n, hrun, hdone⟩ := hex
  exact ⟨n, hrun, hdone, hdone ▸ messages_in_order .client _ _ (by decide) hrun⟩

/-- The first message is sent twice because its acknowledgement is late.  The second message is lost,
and the second copy of the acknowledgement of the first one ends its `udpsend`. -/
def lateAckEvents : List (FifoEvent Act (List Byte)) :=
  [.act .client .run, .act .client .timeout, .act .server .run, .deliver .server [],
    .act .server .run, .deliver .server [], .deliver .client [], .act .client .run, .lose .client 0,
    .deliver .client []]

theorem lost_message_confirmed :
    ∃ n, Run (fifoStep (machine exchangeApp)) anyStep
        (exchangeStart .client [.whole (.ofBytes [7]), .whole (.ofBytes [8])] fun _ => freshMembers)
        lateAckEvents n ∧
      ¬ InOrder (n.node .client).hist.passed (n.node .server).hist.returned
        (n.node .client).hist.completed := by
  have hex : ∃ n, Run (fifoStep (machine exchangeApp)) anyStep
      (exchangeStart .client [.whole (.ofBytes [7]), .whole (.ofBytes [8])] fun _ => freshMembers)
        lateAckEvents n ∧
      (n.node .server).hist.returned.length < (n.node .client).hist.completed :=
    exists_run_of_exec_any (by decide +kernel)
  obtain ⟨n, hrun, hlt⟩ := hex
  exact ⟨n, hrun, fun h => Nat.not_le_of_lt hlt h.completed_le⟩

end Build2
end FileTransfer
