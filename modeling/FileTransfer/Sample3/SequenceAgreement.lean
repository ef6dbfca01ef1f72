import FileTransfer.Sample3.Programs
import FileTransfer.Sample3.Reliable
import FileTransfer.Sample3.Session

/-!
# Sequence agreement across transfers

Over a network that loses nothing, a call of the sending functions returns only when the window is empty,
so that everything numbered has been accepted: whenever a program is about to send, its next number is
the one the peer expects.  This holds as long as the session meets `SessionOk` and the first numbers meet
`RestartOk`, and fails as soon as a client object that is created anew under the static handshake flag sends to
a server that expects another number: see `agreement_lost`.
-/

namespace FileTransfer
namespace Sample3

variable {π : Type*}

/-- `udp_sendtoEx` waits for the last time. -/
def Control.LastTry : Control → Prop
  | .udpSendtoEx l _ => l.retryCnt ≤ 1
  | _ => False

/-- The endpoint waits in `udp_sendtoEx`. -/
def Control.Waits : Control → Prop
  | .udpSendtoEx _ _ => True
  | _ => False

/-- A network that loses nothing: no datagram is lost, and the sender's socket does not fail.  Timeouts
may fire, but not a thousand in a row. -/
def LossFree (n : Net (Endpoint π) Datagram) : FifoEvent Act Oracle → Prop
  | .act t (.run o) => SendsOk (n.node t) o
  | .act t (.timeout o) => SendsOk (n.node t) o ∧ ¬ (n.node t).ctl.LastTry
  | .act t .error => ¬ (n.node t).ctl.Waits
  | .deliver t o => SendsOk (n.node t) o
  | .lose _ _ => False

instance : DecidablePred Control.LastTry
  | .udpSendtoEx l _ => inferInstanceAs (Decidable (l.retryCnt ≤ 1))
  | .idle | .sendFile _ _ | .sendFileLast | .sockSendtoEx | .recvFile _ _ | .udpSendto _ _ _
  | .sockRecvfrom _ _ _ | .serverHandshake | .srvWait4cnn _ => inferInstanceAs (Decidable False)

instance : DecidablePred Control.Waits
  | .udpSendtoEx _ _ => inferInstanceAs (Decidable True)
  | .idle | .sendFile _ _ | .sendFileLast | .sockSendtoEx | .recvFile _ _ | .udpSendto _ _ _
  | .sockRecvfrom _ _ _ | .serverHandshake | .srvWait4cnn _ => inferInstanceAs (Decidable False)

instance (n : Net (Endpoint π) Datagram) : DecidablePred (LossFree n)
  | .act t (.run o) => inferInstanceAs (Decidable (SendsOk (n.node t) o))
  | .act t (.timeout o) => inferInstanceAs (Decidable (SendsOk (n.node t) o ∧ ¬ _))
  | .act t .error => inferInstanceAs (Decidable (¬ (n.node t).ctl.Waits))
  | .deliver t o => inferInstanceAs (Decidable (SendsOk (n.node t) o))
  | .lose _ _ => inferInstanceAs (Decidable False)

/-! ## Sending returns with an empty window -/

/-- The caller waits for the window to be empty. -/
def SendCaller.Patient : SendCaller → Prop
  | .sockSendtoExCopy flag => flag = false
  | _ => True

/-- Outside of the sending functions the window is empty. -/
structure Prompt (e : Endpoint π) : Prop where
  empty : ¬ e.ctl.Sending → e.lib.winBufPos = 0
  live : ∀ l k, e.ctl = .udpSendtoEx l k → 0 < l.retryCnt ∧ k.Patient

/-- How `udp_sendtoEx` may stop: it waits, or it returns the number of packets left, or it fails with an
empty window. -/
def Outcome.Prompt (s : SockLib) : Outcome → Prop
  | .waits l => 0 < l.retryCnt
  | .returns r => r = s.winBufPos ∨ (r = -1 ∧ s.winBufPos = 0)

section

variable {A : App π} {e : Endpoint π} {o : Oracle} {k : SendCaller} {l : SendtoEx} {s : SockLib}
  {d : Datagram} {p : Endpoint π × List Datagram} {out : List Datagram} {oc : Outcome}

theorem prompt_of_empty (h : e.lib.winBufPos = 0) (hctl : ¬ e.ctl.Waits) : Prompt e :=
  ⟨fun _ => h, fun l k hc => absurd (by rw [hc]; trivial) hctl⟩

theorem prompt_afterSend (hk : k.Patient) {r : Int}
    (hr : r = e.lib.winBufPos ∨ (r = -1 ∧ e.lib.winBufPos = 0)) :
    Prompt (e.afterSend A k r) := by
  refine ⟨?_, ?_⟩
  · intro hrest
    rw [(Endpoint.moves_afterSend k r).lib]
    -- a call that returns while packets are left stays in its loop
    cases k with
    | sendFileCopy rest eof =>
        by_contra hne
        have hnot : ¬ r < 0 := by omega
        simp only [Endpoint.afterSend, hnot, if_false] at hrest
        exact hrest trivial
    | sendFileLast =>
        by_contra hne
        have hnot : ¬ r ≤ 0 := by omega
        have hpos : 0 < e.lib.winBufPos := by omega
        simp only [Endpoint.afterSend, hnot, hpos, if_false, if_true] at hrest
        exact hrest trivial
    | sockSendtoExCopy flag =>
        by_contra hne
        have hnot : ¬ r < 0 := by omega
        cases flag with
        | true => cases hk
        | false =>
            simp only [Endpoint.afterSend, hnot, if_false, Bool.false_eq_true] at hrest
            exact hrest trivial
    | sockSendtoEx =>
        by_contra hne
        have hnot : ¬ r ≤ 0 := by omega
        have hpos : 0 < e.lib.winBufPos := by omega
        simp only [Endpoint.afterSend, hnot, hpos, if_false, if_true] at hrest
        exact hrest trivial
  · intro l' k' hc
    have hrest := Endpoint.afterSend_isSendRest (A := A) (e := e) k r
    rw [hc] at hrest
    cases hrest

theorem prompt_settle (hk : k.Patient) (hoc : oc.Prompt e.lib) : Prompt (e.settle A k oc) := by
  cases oc with
  | waits l =>
      refine ⟨fun h => absurd trivial h, ?_⟩
      intro l' k' hc
      cases hc
      exact ⟨hoc, hk⟩
  | returns r => exact prompt_afterSend hk hoc

theorem prompt_enterSend (hk : k.Patient) (h : ∀ i ≤ e.lib.winBufPos, o.sendOk i = true) :
    Prompt (e.enterSend A o k).1 := by
  have hoc : (e.lib.sendAllWinPackets o).2.Prompt e.lib := by
    rw [sendAllWinPackets_ok h]
    exact Nat.succ_pos 999
  exact prompt_settle hk hoc

theorem copy2Winbuf_pos_le (s : SockLib) (buf : Payload) :
    (s.copy2Winbuf buf).1.winBufPos ≤ s.winBufPos + 1 := by
  by_cases hlt : s.winBufPos < s.wSize
  · rw [SockLib.copy2Winbuf_of_lt hlt]
  · rw [SockLib.copy2Winbuf_of_not_lt hlt]
    omega

/-- `copy_2_winbuf` on behalf of a caller that goes on to empty the window. -/
theorem prompt_copyAndSend (hk : k.Patient) (hgo : ∀ e' : Endpoint π, (e'.afterSend A k 1).ctl.Sending)
    (buf : Payload) (h : SendsOk e o) : Prompt (e.copyAndSend A o buf k).1 := by
  unfold Endpoint.copyAndSend
  dsimp only
  split
  · refine prompt_enterSend hk ?_
    intro i hi
    have := copy2Winbuf_pos_le e.lib buf
    exact h i (by simp only at hi; omega)
  · refine ⟨fun hrest => absurd (hgo _) hrest, ?_⟩
    intro l k' hc
    have hrest := Endpoint.afterSend_isSendRest (A := A) (e := { e with
      lib := (e.lib.copy2Winbuf buf).1
      log := e.log ++ if e.lib.winBufPos < e.lib.wSize then
        [Event.numbered (e.lib.addUdpheader buf).2] else [] }) k 1
    rw [hc] at hrest
    cases hrest

/-- What `udp_sendtoEx` does with a packet. -/
theorem udpSendtoExPacket_prompt (hl : 0 < l.retryCnt) (h : SendsOk e o) (udp : UdpPacket) :
    (e.lib.udpSendtoExPacket o l udp).2.2.Prompt (e.lib.udpSendtoExPacket o l udp).1 := by
  have hsend : o.sendOk 0 = true := h 0 (by omega)
  have hloop : ∀ (t : SockLib) (l' : SendtoEx), 0 < l'.retryCnt →
      (t.sendtoExLoop o l' []).2.Prompt t := by
    intro t l' hl'
    rw [sendtoExLoop_ok (s := t) hl' hsend]
    exact hl'
  have hunknown : (e.lib.udpSendtoExUnknown o l udp).2.Prompt e.lib := by
    unfold SockLib.udpSendtoExUnknown
    split
    · -- the answer has been sent, and the loop only waits
      have hne : ¬ l.retryCnt = 0 := by omega
      simp only [SockLib.sendtoExLoop, hne, if_false, if_true]
      exact hl
    · exact hloop _ _ hl
  cases htype : udp.ackType with
  | ack =>
      simp only [SockLib.udpSendtoExPacket, htype, SockLib.udpSendtoExAck]
      cases hmax : e.lib.getMaxSeq udp.seq l.arrACK with
      | none => exact Or.inr ⟨rfl, SockLib.getMaxSeq_eq_none.1 hmax⟩
      | some q =>
          obtain ⟨arr, biggest⟩ := q
          cases biggest with
          | none => exact hloop _ _ hl
          | some m =>
              dsimp only
              split
              · rename_i h0
                exact Or.inl (by rw [h0]; rfl)
              · exact hloop _ _ hl
  | nack =>
      simp only [SockLib.udpSendtoExPacket, htype]
      exact Or.inl rfl
  | sack =>
      simp only [SockLib.udpSendtoExPacket, htype]
      exact Or.inl rfl
  | _ =>
      simp only [SockLib.udpSendtoExPacket, htype]
      exact hunknown

/-! ## One step of an endpoint -/

/-- The program never asks `sock_sendtoEx` to return without sending. -/
def Waiting (A : App π) : Prop :=
  ∀ a buf, A.call a ≠ some (.sockSendtoEx buf true)

theorem prompt_begin {c : Call} (hc : ∀ buf, c ≠ .sockSendtoEx buf true)
    (hempty : e.lib.winBufPos = 0) (h : SendsOk e o) : Prompt (e.begin A o c).1 := by
  cases c with
  | udpInit _ _ => exact prompt_of_empty rfl id
  | clientHandshake _ _ =>
      unfold Endpoint.begin Endpoint.sendHandshake
      dsimp only
      split
      · exact prompt_of_empty hempty id
      · split <;> exact prompt_of_empty hempty id
  | serverHandshake _ => exact prompt_of_empty hempty id
  | sockSendtoEx buf flag =>
      cases flag with
      | true => exact absurd rfl (hc buf)
      | false => exact prompt_copyAndSend (k := .sockSendtoExCopy false) rfl (fun _ => trivial) buf h
  | sendFile file =>
      cases file with
      | none => exact prompt_of_empty hempty id
      | some content => exact prompt_of_empty hempty id
  | sockRecvfrom _ => exact prompt_of_empty hempty id
  | recvFile canOpen _ => cases canOpen <;> exact prompt_of_empty hempty id
  | srvWait4cnn _ => exact prompt_of_empty hempty id

theorem not_waits_of_isRest {c : Control} (h : c.IsRest) : ¬ c.Waits := by
  cases c <;> simp_all [Control.IsRest, Control.Waits]

/-- At rest the endpoint goes on with an empty window. -/
theorem prompt_moves {e' : Endpoint π} (hempty : e.lib.winBufPos = 0)
    (hmoves : Endpoint.Moves A e e') (hrest : e'.ctl.IsRest) : Prompt e' :=
  prompt_of_empty (by rw [hmoves.lib]; exact hempty) (not_waits_of_isRest hrest)

theorem Prompt.run (hA : Waiting A) (h : Prompt e) (hok : SendsOk e o)
    (hrun : e.run A o = some p) : Prompt p.1 := by
  unfold Endpoint.run at hrun
  split at hrun <;> rename_i hctl
  · obtain ⟨c, hc, rfl⟩ := Option.map_eq_some_iff.1 hrun
    refine prompt_begin ?_ (h.empty (by rw [hctl]; exact id)) hok
    rintro buf rfl
    simp only [Endpoint.nextCall, hctl] at hc
    exact hA _ _ hc
  · rename_i rest eof
    cases hrun
    unfold Endpoint.readAndCopy
    split
    · exact ⟨fun hrest => absurd trivial hrest, fun l k hc => by cases hc⟩
    · exact prompt_copyAndSend
        (k := .sendFileCopy (rest.drop bufferLength) (rest.length < bufferLength)) trivial
        (fun _ => trivial) _ hok
  · cases hrun
    exact prompt_enterSend trivial fun i hi => hok i (by omega)
  · cases hrun
    exact prompt_enterSend trivial fun i hi => hok i (by omega)
  · cases hrun
    exact prompt_moves (h.empty (by rw [hctl]; exact id)) Endpoint.moves_recvPiece
      Endpoint.recvPiece_isRest
  · cases hrun

theorem Prompt.timeout (h : Prompt e) (hok : SendsOk e o) (hlast : ¬ e.ctl.LastTry)
    (htime : e.timeout A o = some p) : Prompt p.1 := by
  unfold Endpoint.timeout at htime
  split at htime <;> rename_i hctl
  · rename_i l k
    cases htime
    -- with a retry left the window is resent, and the call waits on
    have hl : 1 < l.retryCnt := by
      rw [hctl] at hlast
      simp only [Control.LastTry] at hlast
      omega
    have hoc : (e.lib.udpSendtoExTimeout o l).2.Prompt e.lib := by
      rw [udpSendtoExTimeout_ok hl hok]
      exact Nat.sub_pos_of_lt hl
    exact prompt_settle (h.live l k hctl).2 hoc
  · -- the handshake packet goes out again
    cases htime
    have hempty := h.empty (by rw [hctl]; exact id)
    unfold Endpoint.sendHandshake
    split
    · exact prompt_of_empty hempty id
    · split <;> exact prompt_of_empty hempty id
  · cases htime
    exact prompt_moves (h.empty (by rw [hctl]; exact id)) (Endpoint.moves_recvLoop _ _ _)
      (Endpoint.recvLoop_isRest _)
  · cases htime
    exact h
  · cases htime
    exact prompt_moves (h.empty (by rw [hctl]; exact id)) (Endpoint.moves_lingerLoop _)
      (Endpoint.lingerLoop_isRest _)
  · cases htime

theorem Prompt.error (h : Prompt e) (hwaits : ¬ e.ctl.Waits) (herr : e.error A = some p) :
    Prompt p.1 := by
  unfold Endpoint.error at herr
  split at herr <;> rename_i hctl
  · rw [hctl] at hwaits
    exact absurd trivial hwaits
  · cases herr
    exact prompt_of_empty (h.empty (by rw [hctl]; exact id)) id
  · cases herr
    exact prompt_moves (h.empty (by rw [hctl]; exact id)) (Endpoint.moves_recvFailed _)
      (Endpoint.recvFailed_isRest _)
  · cases herr
    exact prompt_of_empty (h.empty (by rw [hctl]; exact id)) id
  · cases herr
    exact prompt_of_empty (h.empty (by rw [hctl]; exact id)) id
  · cases herr

theorem Prompt.recv (h : Prompt e) (hok : SendsOk e o) (hrecv : (machine A).recv e o d = some p) :
    Prompt p.1 := by
  rcases recv_cases hrecv with ⟨l, k, hctl, rfl⟩ | ⟨udp, r, hs, hctl, rfl⟩ |
    ⟨left, got, k, hctl, rfl⟩ | ⟨hctl, rfl⟩ | ⟨sec, hctl, rfl⟩
  · -- only a call of `udp_sendtoEx` has packets in its window
    obtain ⟨hl, hk⟩ := h.live l k hctl
    have hoc := udpSendtoExPacket_prompt (o := o) hl hok d.pkt
    rcases Endpoint.recvInSend_cases (A := A) (o := o) e l k d with ⟨-, -, hp⟩ | ⟨-, hp⟩ <;>
      rw [hp] <;> exact prompt_settle hk hoc
  · have hempty := h.empty (by rw [hctl]; exact id)
    unfold Endpoint.recvInHandshake
    dsimp only
    split <;> exact prompt_of_empty hempty id
  · have hempty := h.empty (by rw [hctl]; exact id)
    obtain ⟨n, hn⟩ := SockLib.syncLastSeq_frame e.lib d.pkt
    have hsync : (e.lib.syncLastSeq d.pkt).winBufPos = 0 := by
      rw [hn]
      exact hempty
    rcases recvInData_cases (A := A) (o := o) e left got k d with
      ⟨-, hp⟩ | ⟨-, -, hp⟩ | ⟨-, -, out, hp, -⟩ <;> rw [hp]
    · exact prompt_moves hempty (Endpoint.moves_recvLoop _ _ k) (Endpoint.recvLoop_isRest k)
    · exact prompt_moves (by exact hsync) (Endpoint.moves_recvLoop _ _ k) (Endpoint.recvLoop_isRest k)
    · exact prompt_moves (by exact hsync) (Endpoint.moves_recvLoop _ _ k) (Endpoint.recvLoop_isRest k)
  · have hempty := h.empty (by rw [hctl]; exact id)
    unfold Endpoint.recvInServerHandshake
    dsimp only
    split <;> exact prompt_of_empty hempty id
  · exact prompt_moves (e := { e with log := e.log ++ [.acked d] })
      (h.empty (by rw [hctl]; exact id)) (Endpoint.moves_lingerLoop sec)
      (Endpoint.lingerLoop_isRest sec)

end

/-! ## Agreement -/

section

variable {A : App π} {n n' : Net (Endpoint π) Datagram} {s : Side} {ev : FifoEvent Act Oracle}

/-- Every step of a network that loses nothing keeps the endpoints prompt. -/
theorem prompt_step (hA : Waiting A) (h : ∀ s, Prompt (n.node s)) (hok : LossFree n ev)
    (hstep : fifoStep (machine A) n ev = some n') : ∀ s, Prompt (n'.node s) := by
  have hemit : ∀ {t : Side} {m : Net (Endpoint π) Datagram} {p : Endpoint π × List Datagram},
      m.node = n.node → Prompt p.1 → ∀ s, Prompt ((m.emit t p).node s) := by
    intro t m p hnode hp s
    rcases Side.eq_or_eq_peer t s with rfl | rfl
    · rw [Net.emit_node_self]
      exact hp
    · rw [Net.emit_node_peer, hnode]
      exact h _
  cases ev with
  | act t i =>
      obtain ⟨p, hact, rfl⟩ := fifoStep_act.1 hstep
      cases i with
      | run o => exact hemit rfl ((h t).run hA hok hact)
      | timeout o => exact hemit rfl ((h t).timeout hok.1 hok.2 hact)
      | error => exact hemit rfl ((h t).error hok hact)
  | deliver t o =>
      obtain ⟨d, rest, p, -, hrecv, rfl⟩ := fifoStep_deliver.1 hstep
      exact hemit rfl ((h t).recv hok hrecv)
  | lose t k => cases hok

/-- A sender with an empty window and the receiver at the other end of its link agree. -/
theorem LinkAt.agree {w : Nat} {b : Origin} {g : GoBackN.State Payload} (h : LinkAt n s w b g)
    (haligned : b.first % 32 = b.start % 32) (hempty : (n.node s).lib.winBufPos = 0) :
    Agree (n.node s).lib (n.node s.peer).lib := by
  by_cases hunset : (n.node s.peer).lib.lastSeq = -1
  · exact Or.inl hunset
  · -- everything numbered has been confirmed, hence accepted
    have hexp : g.expected = g.submitted.length := by
      have h1 := h.send.base.pos
      have h2 := h.inv.base_le
      have h3 := h.inv.low_le
      have h4 := h.inv.expected_le
      omega
    have hseq := h.send.base.seq_mod
    have hset := h.recv.set hunset
    rw [hexp] at hset
    refine Or.inr ?_
    omega

/-- Between two calls that send, with an empty window, an aligned sender and its peer agree. -/
theorem Session.agree {P : Endpoint π → Prop} (h : Session P n)
    (hempty : (n.node s).lib.winBufPos = 0) :
    P (n.node s) ∨ Agree (n.node s).lib (n.node s.peer).lib := by
  obtain ⟨w, b, g, hlink, hor⟩ := h.links s
  exact hor.imp_right fun haligned => hlink.agree haligned hempty

end

/-! ## The two programs -/

theorem waiting_ftpApp : Waiting ftpApp := by
  intro a buf h
  cases a with
  | client c =>
      obtain ⟨ifHandShake, objects, starts, pc⟩ := c
      cases pc with
      | main => cases starts <;> cases objects <;> simp [ftpApp, Client.call] at h
      | _ => simp [ftpApp, Client.call] at h
  | server s =>
      obtain ⟨serverSeq, handles, pc⟩ := s
      cases pc <;> simp [ftpApp, Server.call] at h

/-- The client before its object has the numbers for a request. -/
inductive Unnumbered (e : Endpoint Program) : Prop
  | main {c : Client} : e.ctl = .idle → e.app = .client c → c.pc = .main → Unnumbered e
  | halted {c : Client} : e.ctl = .idle → e.app = .client c → c.pc = .halted → Unnumbered e
  | handshake {c : Client} {i : Start} : e.ctl = .idle → e.app = .client c → c.pc = .handshake i →
      Unnumbered e
  | shakes {c : Client} {i : Start} {udp : UdpPacket} {retryCnt : Nat} {hs : Handshake} :
      e.ctl = .udpSendto udp retryCnt hs → e.app = .client c → c.pc = .handshake i → Unnumbered e

/-- After `udp_init` the client goes on to a request header. -/
def Program.SendsHeader : Program → Prop
  | .client c =>
      match (c.resume (.code 0)).pc with
      | .header _ => True
      | _ => False
  | .server _ => False

/-- The condition on the numbers of a new object and of a handshake: the peer expects the number `0` of an object
that goes on to send a header, or any; and it has accepted nothing when a handshake ends. -/
def RestartOk (n : Net (Endpoint Program) Datagram) : FifoEvent Act Oracle → Prop
  | .act t _ => ∀ c ∈ (n.node t).nextCall ftpApp, c.IsInit → (n.node t).app.SendsHeader →
      (n.node t.peer).lib.lastSeq = -1 ∨ ((n.node t.peer).lib.lastSeq.toNat + 1) % 32 = 0
  | .deliver t _ => (n.node t).ctl.Restarts → (n.node t.peer).lib.lastSeq = -1
  | .lose _ _ => True

instance : DecidablePred Call.IsInit
  | .udpInit _ _ => inferInstanceAs (Decidable True)
  | .clientHandshake _ _ | .serverHandshake _ | .sockSendtoEx _ _ | .sendFile _ | .sockRecvfrom _
  | .recvFile _ _ | .srvWait4cnn _ => inferInstanceAs (Decidable False)

instance : DecidablePred Program.SendsHeader
  | .client c => by
      unfold Program.SendsHeader
      dsimp only
      split <;> infer_instance
  | .server _ => inferInstanceAs (Decidable False)

instance (n : Net (Endpoint Program) Datagram) : DecidablePred (RestartOk n)
  | .act t _ => inferInstanceAs (Decidable (∀ c ∈ (n.node t).nextCall ftpApp, _ → _ → _))
  | .deliver _ _ => inferInstanceAs (Decidable (_ → _))
  | .lose _ _ => inferInstanceAs (Decidable True)

section

variable {n n' : Net (Endpoint Program) Datagram} {s t : Side} {e : Endpoint Program} {i : Act} {o : Oracle}
  {d : Datagram} {p : Endpoint Program × List Datagram} {ev : FifoEvent Act Oracle}

/-- Such a client calls nothing but what gives its object numbers. -/
theorem Unnumbered.restarts (h : Unnumbered e) {c : Call} (hc : c ∈ e.nextCall ftpApp) : c.Restarts := by
  obtain ⟨hctl, hcall⟩ := Endpoint.nextCall_eq_some.1 hc
  cases h with
  | main _ happ hpc =>
      simp only [happ, ftpApp, Client.call, hpc] at hcall
      split at hcall <;> cases hcall
      trivial
  | halted _ happ hpc =>
      simp only [happ, ftpApp, Client.call, hpc] at hcall
      cases hcall
  | handshake _ happ hpc =>
      simp only [happ, ftpApp, Client.call, hpc] at hcall
      cases hcall
      trivial
  | shakes hshakes _ _ => cases hshakes.symm.trans hctl

theorem Unnumbered.not_numbers (h : Unnumbered e) : ¬ e.Numbers ftpApp := by
  rintro (⟨c, hc, hnum⟩ | hreads)
  · have hrest := h.restarts hc
    cases c <;> simp_all [Call.Restarts, Call.Numbers]
  · cases h with
    | main hctl _ _ | halted hctl _ _ | handshake hctl _ _ | shakes hctl _ _ =>
        rw [hctl] at hreads
        cases hreads

/-- A handshake that fails leads back to `main`. -/
theorem unnumbered_failed {c : Client} {j : Start} (happ : e.app = .client c) (hpc : c.pc = .handshake j) :
    Unnumbered (e.finishHandshake ftpApp (-1)) := by
  refine .main (c := { c with pc := .main }) rfl ?_ rfl
  simp [Endpoint.finishHandshake, Endpoint.finish, ftpApp, happ, Client.resume, hpc, Client.fail]

theorem unnumbered_sendHandshake {c : Client} {j : Start} (happ : e.app = .client c)
    (hpc : c.pc = .handshake j) (udp : UdpPacket) (retryCnt : Nat) (hs : Handshake) :
    Unnumbered (e.sendHandshake ftpApp o udp retryCnt hs).1 := by
  unfold Endpoint.sendHandshake
  split
  · exact unnumbered_failed happ hpc
  · split
    · exact .shakes rfl happ hpc
    · exact unnumbered_failed happ hpc

/-- Without new numbers such a client stays where it is, or its handshake fails. -/
theorem Unnumbered.act (h : Unnumbered e) (hcall : ∀ c ∈ e.nextCall ftpApp, ¬ c.Restarts)
    (hact : (machine ftpApp).act e i = some p) : Unnumbered p.1 := by
  cases h with
  | main hctl happ hpc | halted hctl happ hpc | handshake hctl happ hpc =>
      -- at rest only a call could be next
      cases i with
      | run o =>
          simp only [machine, Endpoint.run, hctl, Option.map_eq_some_iff] at hact
          obtain ⟨c, hc, -⟩ := hact
          refine absurd (Unnumbered.restarts ?_ hc) (hcall c hc)
          first
            | exact .main hctl happ hpc
            | exact .halted hctl happ hpc
            | exact .handshake hctl happ hpc
      | timeout o => simp [machine, Endpoint.timeout, hctl] at hact
      | error => simp [machine, Endpoint.error, hctl] at hact
  | shakes hctl happ hpc =>
      cases i with
      | run o => simp [machine, Endpoint.run, hctl] at hact
      | timeout o =>
          simp only [machine, Endpoint.timeout, hctl, Option.some.injEq] at hact
          subst hact
          exact unnumbered_sendHandshake happ hpc _ _ _
      | error =>
          simp only [machine, Endpoint.error, hctl, Option.some.injEq] at hact
          subst hact
          exact unnumbered_failed happ hpc

/-- A new object sends a header next only where `RestartOk` has looked at its number. -/
theorem begin_unnumbered {c : Call} (hc : c ∈ e.nextCall ftpApp) (hrest : c.Restarts) :
    Unnumbered (e.begin ftpApp o c).1 ∨
      (c.IsInit ∧ e.app.SendsHeader ∧ (e.begin ftpApp o c).1.lib.seq = 0) := by
  obtain ⟨hctl, hcall⟩ := Endpoint.nextCall_eq_some.1 hc
  cases happ : e.app with
  | server s =>
      simp only [happ, ftpApp, Server.call] at hcall
      split at hcall <;> cases hcall <;> cases hrest
  | client a =>
      simp only [happ, ftpApp, Client.call] at hcall
      split at hcall <;> rename_i hpc
      · split at hcall <;> cases hcall
        rename_i j rest memory objects hstarts hobjects
        -- `main` has created an object, and `start` is called on it
        have hnext : ((e.begin ftpApp o (.udpInit defaultWindowSize memory)).1).app =
            .client (a.resume (.code 0)) := by
          simp [Endpoint.begin, Endpoint.finish, ftpApp, happ]
        have hpc' : (∃ k, (a.resume (.code 0)).pc = .handshake k) ∨
            (∃ k, (a.resume (.code 0)).pc = .header k) ∨ (a.resume (.code 0)).pc = .main := by
          simp only [Client.resume, hpc, if_true, Client.start, hstarts]
          split
          · exact Or.inl ⟨_, rfl⟩
          · simp only [Client.sendRequest]
            split
            · exact Or.inr (Or.inl ⟨_, rfl⟩)
            · exact Or.inr (Or.inl ⟨_, rfl⟩)
            · exact Or.inr (Or.inr rfl)
            · exact Or.inr (Or.inr rfl)
        rcases hpc' with ⟨k, hk⟩ | ⟨k, hk⟩ | hk
        · exact Or.inl (.handshake rfl hnext hk)
        · refine Or.inr ⟨trivial, ?_, rfl⟩
          simp only [Program.SendsHeader, hk]
        · exact Or.inl (.main rfl hnext hk)
      · cases hcall
        refine Or.inl ?_
        unfold Endpoint.begin
        exact unnumbered_sendHandshake (by exact happ) hpc _ _ _
      all_goals cases hcall <;> cases hrest

/-- What the other side had of the old numbers does not matter, unless they are still the same. -/
theorem Restarted.agree_other {t : Side} {p : Endpoint Program × List Datagram}
    {m : Net (Endpoint Program) Datagram} (hr : Restarted (n.node t) p) (h : Session Unnumbered n)
    (hdrained : Drained n) (hnode : m.node = n.node) :
    Unnumbered ((m.emit t p).node t.peer) ∨
      Agree ((m.emit t p).node t.peer).lib ((m.emit t p).node t).lib := by
  rw [Net.emit_node_peer, Net.emit_node_self, hnode]
  rcases hr.lastSeq with hlast | hlast
  · exact Or.inr (Or.inl hlast)
  · refine (h.agree (hdrained t.peer).2.1).imp_right fun hagree => ?_
    rw [Side.peer_peer] at hagree
    unfold Agree at hagree ⊢
    rwa [hlast]

/-- Only new numbers take a program away from where it has numbered nothing. -/
theorem Unnumbered.step {s : Side} (hP : Unnumbered (n.node s)) (hr : ¬ Restarting ftpApp n ev)
    (hstep : fifoStep (machine ftpApp) n ev = some n') : Unnumbered (n'.node s) := by
  cases ev with
  | act t i =>
      obtain ⟨p, hact, rfl⟩ := fifoStep_act.1 hstep
      rcases Side.eq_or_eq_peer t s with rfl | rfl
      · rw [Net.emit_node_self]
        exact hP.act (fun c hc hrest => hr ⟨c, hc, hrest⟩) hact
      · rwa [Net.emit_node_peer]
  | deliver t o =>
      obtain ⟨d, rest, p, -, hrecv, rfl⟩ := fifoStep_deliver.1 hstep
      rcases Side.eq_or_eq_peer t s with rfl | rfl
      · cases hP with
        | main hctl _ _ | halted hctl _ _ | handshake hctl _ _ =>
            simp [machine, Endpoint.packet, hctl] at hrecv
        | shakes hctl _ _ => exact absurd (by rw [Restarting, hctl]; trivial) hr
      · rwa [Net.emit_node_peer]
  | lose t k =>
      obtain ⟨-, rfl⟩ := fifoStep_lose.1 hstep
      exact hP

/-- The events of a session that meet `RestartOk` leave only a client without numbers unaligned. -/
theorem RestartOk.admits (hrestart : RestartOk n ev) (h : Session Unnumbered n) (hok : SessionOk ftpApp n ev)
    (hstep : fifoStep (machine ftpApp) n ev = some n') : Admits Unnumbered ftpApp n ev n' := by
  refine ⟨?_, fun hr s hP => hP.step hr hstep, ?_⟩
  · intro s hnew hP _
    obtain ⟨i, -, hnumbers⟩ := numbers_of_step hstep hnew
    exact absurd hnumbers hP.not_numbers
  · intro hr
    cases ev with
    | act t i =>
        obtain ⟨p, hact, rfl⟩ := fifoStep_act.1 hstep
        obtain ⟨c, hc, hrest⟩ := hr
        obtain ⟨hdrained, hw⟩ := hok c hc hrest
        have hi := h.idle hdrained t
        have hctl := (Endpoint.nextCall_eq_some.1 hc).1
        cases i with
        | run o =>
            simp only [machine, Endpoint.run, hctl, Option.map_eq_some_iff] at hact
            obtain ⟨c', hc', rfl⟩ := hact
            cases hc.symm.trans hc'
            intro s
            rcases Side.eq_or_eq_peer t s with rfl | rfl
            · rw [Net.emit_node_self, Net.emit_node_peer]
              refine (begin_unnumbered hc hrest).imp_right ?_
              rintro ⟨hinit, hsends, hseq⟩
              rcases hrestart c hc hinit hsends with hlast | hlast
              · exact Or.inl hlast
              · refine Or.inr ?_
                rw [hseq, hlast]
                rfl
            · rw [Side.peer_peer]
              exact (restarted_begin hrest hw hi.size hi.empty).agree_other h hdrained rfl
        | timeout o => simp [machine, Endpoint.timeout, hctl] at hact
        | error => simp [machine, Endpoint.error, hctl] at hact
    | deliver t o =>
        obtain ⟨d, rest, p, hwire, hrecv, rfl⟩ := fifoStep_deliver.1 hstep
        have hdrained := (hok d (by rw [hwire]; rfl)).1 hr
        have hi := h.idle hdrained t
        intro s
        rcases Side.eq_or_eq_peer t s with rfl | rfl
        · rw [Net.emit_node_peer]
          exact Or.inr (Or.inl (hrestart hr))
        · rw [Side.peer_peer]
          exact (restarted_recv hr hi.size hi.empty hrecv).agree_other h hdrained rfl
    | lose t k => cases hr

end

/-- The client is about to send a request header. -/
def AtRequestHeader (e : Endpoint Program) : Prop :=
  e.ctl = .idle ∧ ∃ c i, e.app = .client c ∧ c.pc = .header i

/-- The server is about to send a response header. -/
def AtResponseHeader (e : Endpoint Program) : Prop :=
  e.ctl = .idle ∧ ∃ s h type resp, e.app = .server s ∧ s.pc = .respond h type resp

/-- The condition on one event of a sequence of transfers. -/
def TransferOk (n : Net (Endpoint Program) Datagram) (ev : FifoEvent Act Oracle) : Prop :=
  LossFree n ev ∧ SessionOk ftpApp n ev ∧ RestartOk n ev

instance (n : Net (Endpoint Program) Datagram) : DecidablePred (TransferOk n) := fun ev =>
  inferInstanceAs (Decidable (LossFree n ev ∧ SessionOk ftpApp n ev ∧ RestartOk n ev))

/-- In every run of the two programs over a network that loses nothing whose events meet `SessionOk` and
`RestartOk`, a header is sent with the number the peer expects. -/
theorem sequence_agreement {memory : Side → SockLib} {c : Client} {s : Server}
    {es : List (FifoEvent Act Oracle)} {n : Net (Endpoint Program) Datagram}
    (hrun : Run (fifoStep (machine ftpApp)) TransferOk (ftpStart memory c s) es n) :
    (AtRequestHeader (n.node .client) → Agree (n.node .client).lib (n.node .server).lib) ∧
      (AtResponseHeader (n.node .server) → Agree (n.node .server).lib (n.node .client).lib) := by
  have hkeep : ∀ m ev m', (Session Unnumbered m ∧ ∀ t, Prompt (m.node t)) → TransferOk m ev →
      fifoStep (machine ftpApp) m ev = some m' → Session Unnumbered m' ∧ ∀ t, Prompt (m'.node t) := by
    rintro m ev m' ⟨hsession, hprompt⟩ ⟨hloss, hok, hrestart⟩ hstep
    exact ⟨hsession.step hok (hrestart.admits hsession hok hstep) hstep,
      prompt_step waiting_ftpApp hprompt hloss hstep⟩
  obtain ⟨hsession, hprompt⟩ := hrun.invariant hkeep
    ⟨session_start (fun _ => by simp [SockLib.udpInit, defaultWindowSize]) (fun _ => rfl) fun _ => rfl,
      fun _ => prompt_of_empty rfl id⟩
  -- who is about to send a header has its numbers
  have hagree : ∀ t, (n.node t).ctl = .idle → ¬ Unnumbered (n.node t) →
      Agree (n.node t).lib (n.node t.peer).lib := by
    intro t hidle hnumbered
    exact (hsession.agree ((hprompt t).empty (by rw [hidle]; exact id))).resolve_left hnumbered
  constructor
  · rintro ⟨hctl, c, i, happ, hpc⟩
    refine hagree .client hctl fun hun => ?_
    cases hun with
    | main _ happ' hpc' | halted _ happ' hpc' | handshake _ happ' hpc' | shakes _ happ' hpc' =>
        cases happ.symm.trans happ'
        cases hpc.symm.trans hpc'
  · rintro ⟨hctl, s, h, type, resp, happ, -⟩
    refine hagree .server hctl fun hun => ?_
    cases hun with
    | main _ happ' _ | halted _ happ' _ | handshake _ happ' _ | shakes _ happ' _ =>
        cases happ.symm.trans happ'

/-- The response header, a file of one chunk and the client's linger loop, for a request of the second object of
the client. -/
def smallGetEvents : List (FifoEvent Act Oracle) :=
  secondObjectEvents ++ [runs .server, runs .server, runs .client, arrives .client, arrives .server,
    runs .client, runs .client, runs .server, runs .server, runs .server, runs .server,
    arrives .client, runs .client, runs .client, arrives .server,
    timesOut .client, timesOut .client, timesOut .client]

/-- Test for `AtRequestHeader`. -/
def atRequestHeader (e : Endpoint Program) : Bool :=
  match e.ctl, e.app with
  | .idle, .client ⟨_, _, _, .header _⟩ => true
  | _, _ => false

theorem atRequestHeader_iff {e : Endpoint Program} (h : atRequestHeader e = true) :
    AtRequestHeader e := by
  unfold atRequestHeader at h
  split at h
  · rename_i hctl happ
    exact ⟨hctl, _, _, happ, rfl⟩
  · cases h

/-- A second request after a GET, on an object that was created anew before the GET. -/
theorem sequence_agreement_second_get :
    ∃ n : Net (Endpoint Program) Datagram, AtRequestHeader (n.node .client) ∧
      (n.node .server).lib.lastSeq ≠ -1 ∧ Agree (n.node .client).lib (n.node .server).lib := by
  have hex : ∃ n, Run (fifoStep (machine ftpApp)) TransferOk
      (sampleSession [.put none, .get, .get] [some [1, 2, 3], some []]) smallGetEvents n ∧
        (atRequestHeader (n.node .client) = true ∧ (n.node .server).lib.lastSeq ≠ -1) :=
    exists_run_of_exec (by decide +kernel)
  obtain ⟨n, hrun, hheader, hset⟩ := hex
  have hat := atRequestHeader_iff hheader
  exact ⟨n, hat, hset, (sequence_agreement hrun).1 hat⟩

/-- The client puts a file of one byte.  `send_file` returns an error although the file has arrived, and
the new object starts from number zero without a handshake. -/
def recreatedEvents : List (FifoEvent Act Oracle) :=
  requestEvents ++ [runs .client, runs .client, runs .client, runs .client, runs .server,
    runs .server, arrives .server, arrives .client, runs .client]

theorem agreement_lost :
    ∃ n, Run (fifoStep (machine ftpApp)) LossFree (sampleSession [.put (some [7]), .get] [none, some []])
        recreatedEvents n ∧
      AtRequestHeader (n.node .client) ∧ ¬ Agree (n.node .client).lib (n.node .server).lib := by
  have hex : ∃ n, Run (fifoStep (machine ftpApp)) LossFree
      (sampleSession [.put (some [7]), .get] [none, some []]) recreatedEvents n ∧
        (atRequestHeader (n.node .client) = true ∧ ¬ Agree (n.node .client).lib (n.node .server).lib) :=
    exists_run_of_exec (by decide +kernel)
  obtain ⟨n, hrun, hheader, hlost⟩ := hex
  exact ⟨n, hrun, atRequestHeader_iff hheader, hlost⟩

end Sample3
end FileTransfer
