import FileTransfer.Sample3.Endpoint
import FileTransfer.Sample3.SenderSpec

/-!
# What the endpoint's functions do

The functions of `Endpoint.lean` that only move the endpoint to its next wait leave the object alone
and add at most the return of a call to the history.  `Moves` says so once for all of them.
-/

namespace FileTransfer
namespace Sample3

/-- Control states outside the sending functions and the handshakes. -/
def Control.IsRest : Control → Prop
  | .idle => True
  | .recvFile _ _ => True
  | .sockRecvfrom _ _ _ => True
  | .srvWait4cnn _ => True
  | _ => False

/-- Control states of a call of `send_all_win_packets` that has returned. -/
def Control.IsSendRest : Control → Prop
  | .idle => True
  | .sendFile _ _ => True
  | .sendFileLast => True
  | .sockSendtoEx => True
  | _ => False

def Ret.IsHandshake : Ret → Prop
  | .handshake _ _ _ => True
  | _ => False

/-! ## The receiver's functions -/

namespace SockLib

variable {s : SockLib} {udp : UdpPacket}

theorem syncLastSeq_of_ne (h : s.lastSeq ≠ -1) : s.syncLastSeq udp = s := by
  simp [syncLastSeq, h]

/-- An unset `lastSeq` makes any packet the next one. -/
theorem syncLastSeq_of_eq (h : s.lastSeq = -1) :
    seqField ((s.syncLastSeq udp).lastSeq + 1) = udp.seq := by
  apply Fin.ext
  rw [seqField_add_one]
  simp only [syncLastSeq, h, if_true]
  rw [toNat_ofNat_seq]
  exact seq_sub_one_succ udp.seq

/-- Nothing but `lastSeq` is set. -/
theorem syncLastSeq_frame (s : SockLib) (udp : UdpPacket) :
    ∃ n, s.syncLastSeq udp = { s with lastSeq := n } := by
  unfold syncLastSeq
  split
  · exact ⟨_, rfl⟩
  · exact ⟨s.lastSeq, rfl⟩

/-- The acknowledgement of a packet with the number `seq`. -/
theorem ackPacket_seq (seq : UInt32) (type : AckType) :
    (ackPacket seq type).pkt.seq = seqField seq := rfl

/-- Everything `chk_seqEx` can do. -/
theorem chkSeqEx_cases (s : SockLib) (udp : UdpPacket) :
    let t := s.syncLastSeq udp
    (udp.ackType = .request ∧ seqField (t.lastSeq + 1) = udp.seq ∧
        s.chkSeqEx udp = ({ t with lastSeq := UInt32.ofNat udp.seq.val },
          some (ackPacket (t.lastSeq + 1) .ack), true)) ∨
      (udp.ackType = .request ∧ seqField (t.lastSeq + 1) ≠ udp.seq ∧
        s.chkSeqEx udp = (t, some (ackPacket (t.lastSeq + 1) .nack), false)) ∨
      (udp.ackType = .sack ∧
        s.chkSeqEx udp = (t, some (ackPacket (t.lastSeq + 1) .sack), false)) ∨
      (udp.ackType ≠ .request ∧ udp.ackType ≠ .sack ∧ s.chkSeqEx udp = (t, none, false)) := by
  dsimp only
  unfold chkSeqEx
  cases htype : udp.ackType with
  | request =>
      by_cases heq : seqField ((s.syncLastSeq udp).lastSeq + 1) = udp.seq
      · exact Or.inl ⟨rfl, heq, by simp [heq]⟩
      · exact Or.inr (Or.inl ⟨rfl, heq, by simp [heq]⟩)
  | sack => exact Or.inr (Or.inr (Or.inl ⟨rfl, rfl⟩))
  | _ => exact Or.inr (Or.inr (Or.inr ⟨by simp, by simp, rfl⟩))

/-- `chk_seqEx` changes `lastSeq` only. -/
theorem chkSeqEx_frame (s : SockLib) (udp : UdpPacket) :
    ∃ n, (s.chkSeqEx udp).1 = { s with lastSeq := n } := by
  obtain ⟨n, hn⟩ := syncLastSeq_frame s udp
  rcases chkSeqEx_cases s udp with ⟨-, -, h⟩ | ⟨-, -, h⟩ | ⟨-, h⟩ | ⟨-, -, h⟩ <;> rw [h, hn] <;>
    exact ⟨_, rfl⟩

end SockLib

/-! ## Control flow -/

namespace Endpoint

variable {π : Type*} {A : App π} {e e' : Endpoint π} {left : Int} {got : List Byte}
  {o : Oracle}

/-- The program makes its next call only when the last one has returned. -/
theorem nextCall_eq_some {c : Call} :
    e.nextCall A = some c ↔ e.ctl = .idle ∧ A.call e.app = some c := by
  unfold nextCall
  split <;> rename_i hctl
  · exact (and_iff_right hctl).symm
  · exact iff_of_false (by simp) fun h => hctl h.1

/-- `e'` is `e` at another wait or loop head, perhaps with a call returned. -/
structure Moves (A : App π) (e e' : Endpoint π) : Prop where
  lib : e'.lib = e.lib
  app : e'.app = e.app ∨ ∃ r, e'.app = A.resume e.app r
  log : e'.log = e.log ∨ ∃ r, ¬ Ret.IsHandshake r ∧ e'.log = e.log ++ [.returned r]

theorem moves_ctl (c : Control) : Moves A e { e with ctl := c } :=
  ⟨rfl, Or.inl rfl, Or.inl rfl⟩

theorem moves_finish {r : Ret} (hr : ¬ r.IsHandshake) : Moves A e (e.finish A r) :=
  ⟨rfl, Or.inr ⟨r, rfl⟩, Or.inr ⟨r, hr, rfl⟩⟩

theorem moves_afterSend (k : SendCaller) (r : Int) : Moves A e (e.afterSend A k r) := by
  cases k <;> simp only [afterSend] <;> split_ifs <;>
    first
      | exact moves_ctl _
      | exact moves_finish (by simp [Ret.IsHandshake])

theorem afterSend_isSendRest (k : SendCaller) (r : Int) : (e.afterSend A k r).ctl.IsSendRest := by
  cases k <;> simp only [afterSend, finish] <;> split_ifs <;> trivial

theorem moves_recvLoop (left : Int) (got : List Byte) (k : RecvCaller) :
    Moves A e (e.recvLoop A left got k) := by
  unfold recvLoop
  split
  · exact moves_ctl _
  · cases k with
    | program => exact moves_finish (by simp [Ret.IsHandshake])
    | recvFile _ _ _ => exact moves_ctl _

theorem recvLoop_isRest (k : RecvCaller) : (e.recvLoop A left got k).ctl.IsRest := by
  unfold recvLoop
  split
  · trivial
  · cases k <;> trivial

theorem moves_recvFailed (k : RecvCaller) : Moves A e (e.recvFailed A got k) := by
  cases k <;> exact moves_finish (by simp [Ret.IsHandshake])

theorem recvFailed_isRest (k : RecvCaller) : (e.recvFailed A got k).ctl.IsRest := by
  cases k <;> trivial

theorem moves_recvPiece : Moves A e (e.recvPiece A left got) := by
  unfold recvPiece
  split
  · exact moves_ctl _
  · exact moves_finish (by simp [Ret.IsHandshake])

theorem recvPiece_isRest : (e.recvPiece A left got).ctl.IsRest := by
  unfold recvPiece
  split <;> trivial

theorem moves_lingerLoop (sec : Int) : Moves A e (e.lingerLoop A sec) := by
  unfold lingerLoop
  split
  · exact moves_ctl _
  · exact moves_finish (by simp [Ret.IsHandshake])

theorem lingerLoop_isRest (sec : Int) : (e.lingerLoop A sec).ctl.IsRest := by
  unfold lingerLoop
  split <;> trivial

theorem moves_settle (k : SendCaller) (oc : Outcome) : Moves A e (e.settle A k oc) := by
  cases oc with
  | waits l => exact moves_ctl _
  | returns r => exact moves_afterSend k r

theorem moves_enterSend (k : SendCaller) : Moves A e (e.enterSend A o k).1 :=
  moves_settle k _

theorem Moves.log_grows (h : Moves A e e') : e.log <+: e'.log := by
  rcases h.log with h | ⟨r, -, h⟩
  · exact ⟨[], by rw [h, List.append_nil]⟩
  · exact ⟨[.returned r], h.symm⟩

/-- `udp_sendtoEx` takes a datagram in: either it acknowledges it, or nothing is added to the
history. -/
theorem recvInSend_cases (e : Endpoint π) (l : SendtoEx) (k : SendCaller) (d : Datagram) :
    let r := e.lib.udpSendtoExPacket o l d.pkt
    (¬ d.pkt.ackType.IsAnswer ∧ e.lib.acksUnknown d.pkt = true ∧
        e.recvInSend A o l k d =
          (({ e with lib := r.1, log := e.log ++ [.acked d] } : Endpoint π).settle A k r.2.2, r.2.1)) ∨
      ((¬ d.pkt.ackType.IsAnswer → e.lib.acksUnknown d.pkt = false) ∧
        e.recvInSend A o l k d =
          (({ e with lib := r.1 } : Endpoint π).settle A k r.2.2, r.2.1)) := by
  cases hacks : e.lib.acksUnknown d.pkt <;> cases htype : d.pkt.ackType <;>
    simp [recvInSend, htype, hacks, AckType.IsAnswer]

end Endpoint

/-! ## Steps without a packet -/

/-- An event of the history that no packet from the network is part of. -/
def Event.IsLocal : Event → Prop
  | .numbered _ => True
  | .returned _ => True
  | _ => False

/-- What the endpoint `e` may have sent in a step without a packet. -/
def SentByAct {π : Type*} (e : Endpoint π) (d : Datagram) : Prop :=
  match d.site with
  | .window => True
  | .specialRequest => d.pkt.ackType = .sack
  | .sendAck => False
  | .handshakeRequest => ∃ retryCnt hs, e.ctl = .udpSendto d.pkt retryCnt hs
  | .handshakeResponse => False

/-- A step that takes no packet in: it keeps `lastSeq`, adds local events to the history and sends no
answer. -/
structure Quiet {π : Type*} (e : Endpoint π) (p : Endpoint π × List Datagram) : Prop where
  lastSeq : p.1.lib.lastSeq = e.lib.lastSeq
  log : ∃ evs, p.1.log = e.log ++ evs ∧ ∀ ev ∈ evs, ev.IsLocal
  out : ∀ d ∈ p.2, SentByAct p.1 d

section

variable {π : Type*} {A : App π} {e e' : Endpoint π} {o : Oracle}

theorem Endpoint.Moves.log_local (h : Endpoint.Moves A e e') :
    ∃ evs, e'.log = e.log ++ evs ∧ ∀ ev ∈ evs, ev.IsLocal := by
  rcases h.log with h | ⟨r, -, h⟩
  · exact ⟨[], by simp [h], by simp⟩
  · exact ⟨[.returned r], h, by simp [Event.IsLocal]⟩

theorem quiet_of_moves (h : Endpoint.Moves A e e') {out : List Datagram}
    (hout : ∀ d ∈ out, SentByAct e' d) : Quiet e (e', out) :=
  ⟨by rw [h.lib], h.log_local, hout⟩

theorem quiet_moves (h : Endpoint.Moves A e e') : Quiet e (e', []) :=
  quiet_of_moves h (by simp)

theorem Quiet.of_eq {p : Endpoint π × List Datagram} (h : Quiet e' p)
    (hlib : e'.lib.lastSeq = e.lib.lastSeq)
    (hlog : ∃ evs, e'.log = e.log ++ evs ∧ ∀ ev ∈ evs, ev.IsLocal) : Quiet e p := by
  obtain ⟨evs, hevs, hloc⟩ := hlog
  obtain ⟨evs', hevs', hloc'⟩ := h.log
  refine ⟨h.lastSeq.trans hlib, ⟨evs ++ evs', by rw [hevs', hevs, List.append_assoc], ?_⟩, h.out⟩
  intro ev hev
  rcases List.mem_append.1 hev with hev | hev
  · exact hloc ev hev
  · exact hloc' ev hev

theorem sentByAct_of_isSendable {s : SockLib} {d : Datagram} (h : s.IsSendable d) :
    SentByAct e' d := by
  obtain ⟨i, -, rfl⟩ := h
  trivial

theorem quiet_enterSend (k : SendCaller) : Quiet e (e.enterSend A o k) :=
  quiet_of_moves (Endpoint.moves_enterSend k) fun _ hd =>
    sentByAct_of_isSendable (SockLib.isSendable_of_mem_sendAllWinPackets hd)

theorem quiet_copyAndSend (buf : Payload) (k : SendCaller) : Quiet e (e.copyAndSend A o buf k) := by
  unfold Endpoint.copyAndSend
  have hframe : (e.lib.copy2Winbuf buf).1.lastSeq = e.lib.lastSeq := by
    unfold SockLib.copy2Winbuf
    split <;> rfl
  have hlog : ∃ evs, e.log ++ (if e.lib.winBufPos < e.lib.wSize then
      [Event.numbered (e.lib.addUdpheader buf).2] else []) = e.log ++ evs ∧
      ∀ ev ∈ evs, ev.IsLocal := by
    refine ⟨_, rfl, ?_⟩
    split <;> simp [Event.IsLocal]
  dsimp only
  split
  · exact (quiet_enterSend k).of_eq hframe hlog
  · exact (quiet_moves (Endpoint.moves_afterSend k 1)).of_eq hframe hlog

theorem quiet_finishHandshake (r : Int) : Quiet e (e.finishHandshake A r, []) :=
  ⟨rfl, ⟨[_], rfl, by simp [Event.IsLocal]⟩, by simp⟩

theorem quiet_sendHandshake (udp : UdpPacket) (retryCnt : Nat) (hs : Handshake) :
    Quiet e (e.sendHandshake A o udp retryCnt hs) := by
  unfold Endpoint.sendHandshake
  split
  · exact quiet_finishHandshake (-1)
  · unfold libSendto
    split <;> rename_i heq <;> split_ifs at heq <;> cases heq
    · exact quiet_of_moves (Endpoint.moves_ctl (A := A) _) (by simp [SentByAct])
    · exact quiet_finishHandshake (-1)

/-- A new object forgets `lastSeq`; every other call keeps it. -/
def Call.IsInit : Call → Prop
  | .udpInit _ _ => True
  | _ => False

theorem quiet_begin {c : Call} (hc : ¬ c.IsInit) : Quiet e (e.begin A o c) := by
  cases c with
  | udpInit _ _ => exact absurd trivial hc
  | clientHandshake _ _ =>
      exact (quiet_sendHandshake _ _ _).of_eq rfl ⟨[], by simp, by simp⟩
  | serverHandshake _ => exact ⟨rfl, ⟨[], by simp [Endpoint.begin], by simp⟩, by simp [Endpoint.begin]⟩
  | sockSendtoEx buf _ => exact quiet_copyAndSend buf _
  | sendFile file =>
      cases file with
      | none => exact quiet_moves (Endpoint.moves_finish (by simp [Ret.IsHandshake]))
      | some _ => exact quiet_moves (Endpoint.moves_ctl (A := A) _)
  | sockRecvfrom _ => exact quiet_moves (Endpoint.moves_ctl (A := A) _)
  | recvFile canOpen _ =>
      cases canOpen with
      | true => exact quiet_moves (Endpoint.moves_ctl (A := A) _)
      | false => exact quiet_moves (Endpoint.moves_finish (by simp [Ret.IsHandshake]))
  | srvWait4cnn _ => exact quiet_moves (Endpoint.moves_ctl (A := A) _)

theorem quiet_run (hcall : ∀ c ∈ e.nextCall A, ¬ c.IsInit)
    {p : Endpoint π × List Datagram} (h : e.run A o = some p) : Quiet e p := by
  unfold Endpoint.run at h
  split at h
  · obtain ⟨c, hc, rfl⟩ := Option.map_eq_some_iff.1 h
    exact quiet_begin (hcall c hc)
  · cases h
    unfold Endpoint.readAndCopy
    split
    · exact quiet_moves (Endpoint.moves_ctl (A := A) _)
    · exact quiet_copyAndSend _ _
  · cases h
    exact quiet_enterSend _
  · cases h
    exact quiet_enterSend _
  · cases h
    exact quiet_moves Endpoint.moves_recvPiece
  · cases h

theorem quiet_timeout {p : Endpoint π × List Datagram} (h : e.timeout A o = some p) :
    Quiet e p := by
  unfold Endpoint.timeout at h
  split at h
  · cases h
    refine quiet_of_moves (Endpoint.moves_settle _ _) ?_
    intro d hd
    rcases SockLib.mem_udpSendtoExTimeout hd with h | rfl | ⟨-, rfl⟩
    · exact sentByAct_of_isSendable h
    · rfl
    · trivial
  · cases h
    exact quiet_sendHandshake _ _ _
  · cases h
    exact quiet_moves (Endpoint.moves_recvLoop _ _ _)
  · cases h
    exact quiet_moves (A := A) ⟨rfl, Or.inl rfl, Or.inl rfl⟩
  · cases h
    exact quiet_moves (Endpoint.moves_lingerLoop _)
  · cases h

theorem quiet_error {p : Endpoint π × List Datagram} (h : e.error A = some p) : Quiet e p := by
  unfold Endpoint.error at h
  split at h
  · cases h
    exact quiet_moves (Endpoint.moves_afterSend _ _)
  · cases h
    exact quiet_finishHandshake (-1)
  · cases h
    exact quiet_moves (Endpoint.moves_recvFailed _)
  · cases h
    exact quiet_finishHandshake (-1)
  · cases h
    exact quiet_moves (Endpoint.moves_finish (by simp [Ret.IsHandshake]))
  · cases h

/-- The spec of a step without a packet. -/
theorem quiet_act (hcall : ∀ c ∈ e.nextCall A, ¬ c.IsInit) {i : Act}
    {p : Endpoint π × List Datagram} (h : (machine A).act e i = some p) : Quiet e p := by
  cases i with
  | run o => exact quiet_run hcall h
  | timeout o => exact quiet_timeout h
  | error => exact quiet_error h

/-- What a step without a packet sends and what it adds to the history, new objects included. -/
theorem act_frame {i : Act} {p : Endpoint π × List Datagram}
    (h : (machine A).act e i = some p) :
    (∀ d ∈ p.2, SentByAct p.1 d) ∧ ∃ evs, p.1.log = e.log ++ evs ∧ ∀ ev ∈ evs, ev.IsLocal := by
  by_cases hcall : ∀ c ∈ e.nextCall A, ¬ c.IsInit
  · exact ⟨(quiet_act hcall h).out, (quiet_act hcall h).log⟩
  · push Not at hcall
    obtain ⟨c, hc, hinit⟩ := hcall
    have hidle := (Endpoint.nextCall_eq_some.1 hc).1
    cases c with
    | udpInit windowSize memory =>
        cases i with
        | run o =>
            simp only [machine, Endpoint.run, hidle, Option.map_eq_some_iff] at h
            obtain ⟨c', hc', rfl⟩ := h
            cases hc.symm.trans hc'
            exact ⟨by simp [Endpoint.begin], [.returned (.code 0)], rfl, by simp [Event.IsLocal]⟩
        | timeout o => simp [machine, Endpoint.timeout, hidle] at h
        | error => simp [machine, Endpoint.error, hidle] at h
    | _ => cases hinit

/-- `udp_sendto` waits for the answer to a handshake request. -/
def Control.AwaitsHandshake : Control → Prop
  | .udpSendto _ _ _ => True
  | _ => False

theorem Control.IsRest.not_awaitsHandshake {c : Control} (h : c.IsRest) : ¬ c.AwaitsHandshake := by
  cases c <;> simp_all [Control.IsRest, Control.AwaitsHandshake]

theorem Control.IsSendRest.not_awaitsHandshake {c : Control} (h : c.IsSendRest) :
    ¬ c.AwaitsHandshake := by
  cases c <;> simp_all [Control.IsSendRest, Control.AwaitsHandshake]

theorem settle_not_awaitsHandshake (k : SendCaller) (oc : Outcome) :
    ¬ (e.settle A k oc).ctl.AwaitsHandshake := by
  cases oc with
  | waits l => exact id
  | returns r => exact (Endpoint.afterSend_isSendRest k r).not_awaitsHandshake

theorem copyAndSend_not_awaitsHandshake (buf : Payload) (k : SendCaller) :
    ¬ (e.copyAndSend A o buf k).1.ctl.AwaitsHandshake := by
  unfold Endpoint.copyAndSend
  dsimp only
  split
  · exact settle_not_awaitsHandshake k _
  · exact (Endpoint.afterSend_isSendRest k 1).not_awaitsHandshake

theorem sendHandshake_ctl {udp udp' : UdpPacket} {retryCnt retryCnt' : Nat} {hs hs' : Handshake}
    (h : (e.sendHandshake A o udp retryCnt hs).1.ctl = .udpSendto udp' retryCnt' hs') :
    udp' = udp ∧ hs' = hs := by
  unfold Endpoint.sendHandshake at h
  split at h
  · cases h
  · split at h
    · cases h
      exact ⟨rfl, rfl⟩
    · cases h

theorem begin_ctl {c : Call} {udp : UdpPacket} {retryCnt : Nat} {hs : Handshake}
    (h : (e.begin A o c).1.ctl = .udpSendto udp retryCnt hs) :
    ∃ n junk, c = .clientHandshake n junk ∧ udp = e.handshakeRequest n junk ∧ hs = ⟨n, 0⟩ := by
  cases c with
  | clientHandshake n junk =>
      obtain ⟨rfl, rfl⟩ := sendHandshake_ctl h
      exact ⟨n, junk, rfl, rfl, rfl⟩
  | sockSendtoEx buf flag =>
      refine absurd ?_ (copyAndSend_not_awaitsHandshake (A := A) (e := e) (o := o) buf
        (.sockSendtoExCopy flag))
      have hctl : (e.copyAndSend A o buf (.sockSendtoExCopy flag)).1.ctl = _ := h
      rw [hctl]
      trivial
  | sendFile file => cases file <;> cases h
  | recvFile canOpen len => cases canOpen <;> cases h
  | _ => cases h

/-- A handshake request is on its way out only while `udp_sendto` waits with it, and only
`SockClient::handshake` gets there. -/
theorem udpSendto_of_act {i : Act} {p : Endpoint π × List Datagram}
    (h : (machine A).act e i = some p) {udp : UdpPacket} {retryCnt : Nat} {hs : Handshake}
    (hctl : p.1.ctl = .udpSendto udp retryCnt hs) :
    (∃ retryCnt', e.ctl = .udpSendto udp retryCnt' hs) ∨
      ∃ n junk, e.nextCall A = some (.clientHandshake n junk) ∧ udp = e.handshakeRequest n junk ∧
        hs = ⟨n, 0⟩ := by
  have hwaits : p.1.ctl.AwaitsHandshake := by
    rw [hctl]
    trivial
  -- only `begin` and the resending of a request leave `udp_sendto` waiting
  cases i with
  | run o =>
      have hrun : e.run A o = some p := h
      unfold Endpoint.run at hrun
      split at hrun
      · obtain ⟨c, hc, rfl⟩ := Option.map_eq_some_iff.1 hrun
        obtain ⟨n, junk, rfl, hudp, hhs⟩ := begin_ctl hctl
        exact Or.inr ⟨n, junk, hc, hudp, hhs⟩
      · cases hrun
        unfold Endpoint.readAndCopy at hwaits
        split at hwaits
        · cases hwaits
        · exact absurd hwaits (copyAndSend_not_awaitsHandshake _ _)
      · cases hrun
        exact absurd hwaits (settle_not_awaitsHandshake _ _)
      · cases hrun
        exact absurd hwaits (settle_not_awaitsHandshake _ _)
      · cases hrun
        exact absurd hwaits Endpoint.recvPiece_isRest.not_awaitsHandshake
      · cases hrun
  | timeout o =>
      have htime : e.timeout A o = some p := h
      unfold Endpoint.timeout at htime
      split at htime
      · cases htime
        exact absurd hwaits (settle_not_awaitsHandshake _ _)
      · rename_i hctl'
        cases htime
        obtain ⟨rfl, rfl⟩ := sendHandshake_ctl hctl
        exact Or.inl ⟨_, hctl'⟩
      · cases htime
        exact absurd hwaits (Endpoint.recvLoop_isRest _).not_awaitsHandshake
      · cases htime
        exact Or.inl ⟨_, hctl⟩
      · cases htime
        exact absurd hwaits (Endpoint.lingerLoop_isRest _).not_awaitsHandshake
      · cases htime
  | error =>
      have herr : e.error A = some p := h
      unfold Endpoint.error at herr
      split at herr
      · cases herr
        exact absurd hwaits (Endpoint.afterSend_isSendRest _ _).not_awaitsHandshake
      · cases herr
        cases hwaits
      · cases herr
        exact absurd hwaits (Endpoint.recvFailed_isRest _).not_awaitsHandshake
      · cases herr
        cases hwaits
      · cases herr
        cases hwaits
      · cases herr

/-! ## Steps with a packet -/

/-- An endpoint takes a datagram in at one of its five waits. -/
theorem recv_cases {d : Datagram} {p : Endpoint π × List Datagram}
    (h : (machine A).recv e o d = some p) :
    (∃ l k, e.ctl = .udpSendtoEx l k ∧ p = e.recvInSend A o l k d) ∨
      (∃ udp retryCnt hs, e.ctl = .udpSendto udp retryCnt hs ∧
        p = (e.recvInHandshake A hs d, [])) ∨
      (∃ left got k, e.ctl = .sockRecvfrom left got k ∧ p = e.recvInData A o left got k d) ∨
      (e.ctl = .serverHandshake ∧ p = e.recvInServerHandshake A o d) ∨
      ∃ sec, e.ctl = .srvWait4cnn sec ∧ p = e.recvInLinger A o sec d := by
  have h' : e.packet A o d = some p := h
  unfold Endpoint.packet at h'
  split at h' <;> rename_i hctl
  · cases h'
    exact Or.inl ⟨_, _, hctl, rfl⟩
  · cases h'
    exact Or.inr (Or.inl ⟨_, _, _, hctl, rfl⟩)
  · cases h'
    exact Or.inr (Or.inr (Or.inl ⟨_, _, _, hctl, rfl⟩))
  · cases h'
    exact Or.inr (Or.inr (Or.inr (Or.inl ⟨hctl, rfl⟩)))
  · cases h'
    exact Or.inr (Or.inr (Or.inr (Or.inr ⟨_, hctl, rfl⟩)))
  · cases h'

/-- `sock_recvfrom` answers a handshake packet, accepts the expected packet, or answers with what it
expects. -/
theorem recvInData_cases (e : Endpoint π) (left : Int) (got : List Byte) (k : RecvCaller)
    (d : Datagram) :
    let t := e.lib.syncLastSeq d.pkt
    let log := e.log ++ if e.lib.lastSeq = -1 then [Event.synced d] else []
    (d.pkt.ackType = .handshake ∧ e.recvInData A o left got k d =
        (e.recvLoop A left got k, (libSendto o [] e.lib.handshakeAck).1)) ∨
      (d.pkt.ackType = .request ∧ d.pkt.seq = seqField (t.lastSeq + 1) ∧
        e.recvInData A o left got k d =
          (({ e with
              lib := { t with lastSeq := UInt32.ofNat d.pkt.seq.val }
              log := log ++ [.acked d, .handed d] } : Endpoint π).recvLoop A (left - bufferLength)
                (got ++ d.pkt.data.bytes.take (min left bufferLength).toNat) k,
            (libSendto o [] (SockLib.ackPacket (t.lastSeq + 1) .ack)).1)) ∨
      (d.pkt.ackType ≠ .handshake ∧
        (d.pkt.ackType = .request → d.pkt.seq ≠ seqField (t.lastSeq + 1)) ∧
        ∃ out, e.recvInData A o left got k d =
            (({ e with lib := t, log := log } : Endpoint π).recvLoop A left got k, out) ∧
          ∀ x ∈ out, x.site = .sendAck ∧ (x.pkt.ackType = .nack ∨ x.pkt.ackType = .sack)) := by
  dsimp only
  by_cases hhs : d.pkt.ackType = .handshake
  · exact Or.inl ⟨hhs, by simp [Endpoint.recvInData, hhs]⟩
  · right
    have hanswer : ∀ seq type x, x ∈ (libSendto o [] (SockLib.ackPacket seq type)).1 →
        x.site = .sendAck ∧ x.pkt.ackType = type := by
      intro seq type x hx
      rcases SockLib.mem_libSendto hx with hx | rfl
      · cases hx
      · exact ⟨rfl, rfl⟩
    -- the packet expected, another number, a special request, or a reply
    rcases SockLib.chkSeqEx_cases e.lib d.pkt with
      ⟨hreq, hseq, hchk⟩ | ⟨-, hseq, hchk⟩ | ⟨hsack, hchk⟩ | ⟨hreq, -, hchk⟩
    · refine Or.inl ⟨hreq, hseq.symm, ?_⟩
      simp [Endpoint.recvInData, hhs, hchk]
    · refine Or.inr ⟨hhs, fun _ => Ne.symm hseq, _, by simp [Endpoint.recvInData, hhs, hchk]; rfl, ?_⟩
      intro x hx
      exact ⟨(hanswer _ _ x hx).1, Or.inl (hanswer _ _ x hx).2⟩
    · refine Or.inr ⟨hhs, fun hreq => ?_, _, by simp [Endpoint.recvInData, hhs, hchk]; rfl, ?_⟩
      · rw [hreq] at hsack
        cases hsack
      · intro x hx
        exact ⟨(hanswer _ _ x hx).1, Or.inr (hanswer _ _ x hx).2⟩
    · refine Or.inr ⟨hhs, fun h => absurd h hreq, [],
        by simp [Endpoint.recvInData, hhs, hchk], by simp⟩

/-- What the endpoint `e` may have sent in a step that took a packet in. -/
def SentByRecv {π : Type*} (e : Endpoint π) (d : Datagram) : Prop :=
  match d.site with
  | .window => True
  | .sendAck => d.pkt.ackType.IsAnswer
  | .handshakeResponse =>
      d.pkt.ackType = .request ∧ ∃ rest, d.pkt.data = .ofBytes (e.lib.hsData.toBytes ++ rest)
  | _ => False

theorem recv_sent {d : Datagram} {p : Endpoint π × List Datagram}
    (h : (machine A).recv e o d = some p) : ∀ x ∈ p.2, SentByRecv p.1 x := by
  intro x hx
  -- the wait that the packet arrives at decides what is sent
  rcases recv_cases h with ⟨l, k, -, rfl⟩ | ⟨udp, r, hs, -, rfl⟩ | ⟨left, got, k, -, rfl⟩ |
    ⟨-, rfl⟩ | ⟨sec, -, rfl⟩
  · rcases SockLib.mem_udpSendtoExPacket hx with ⟨-, rfl⟩ | ⟨-, -, rfl⟩ <;> trivial
  · cases hx
  · rcases recvInData_cases (A := A) (o := o) e left got k d with
      ⟨-, hp⟩ | ⟨-, -, hp⟩ | ⟨-, -, out, hp, hout⟩
    · rw [hp] at hx ⊢
      rcases SockLib.mem_libSendto hx with hx | rfl
      · cases hx
      · refine ⟨rfl, [], ?_⟩
        rw [(Endpoint.moves_recvLoop _ _ k).lib, List.append_nil]
        rfl
    · rw [hp] at hx ⊢
      rcases SockLib.mem_libSendto hx with hx | rfl
      · cases hx
      · trivial
    · rw [hp] at hx ⊢
      obtain ⟨hsite, htype | htype⟩ := hout x hx <;> simp [SentByRecv, hsite, htype, AckType.IsAnswer]
  · unfold Endpoint.recvInServerHandshake at hx ⊢
    dsimp only at hx ⊢
    split at hx
    · cases hx
    · rename_i hcond
      rw [if_neg hcond]
      rcases SockLib.mem_libSendto hx with hx | rfl
      · cases hx
      · exact ⟨rfl, [], by rw [List.append_nil]; rfl⟩
  · rcases SockLib.mem_libSendto hx with hx | rfl
    · cases hx
    · trivial

theorem recv_not_awaitsHandshake {d : Datagram} {p : Endpoint π × List Datagram}
    (h : (machine A).recv e o d = some p) : ¬ p.1.ctl.AwaitsHandshake := by
  rcases recv_cases h with ⟨l, k, -, rfl⟩ | ⟨udp, r, hs, -, rfl⟩ | ⟨left, got, k, -, rfl⟩ |
    ⟨-, rfl⟩ | ⟨sec, -, rfl⟩
  · exact settle_not_awaitsHandshake k _
  · unfold Endpoint.recvInHandshake
    dsimp only
    split <;> exact id
  · rcases recvInData_cases (A := A) (o := o) e left got k d with
      ⟨-, hp⟩ | ⟨-, -, hp⟩ | ⟨-, -, out, hp, -⟩ <;> rw [hp] <;>
      exact (Endpoint.recvLoop_isRest _).not_awaitsHandshake
  · unfold Endpoint.recvInServerHandshake
    dsimp only
    split <;> exact id
  · exact (Endpoint.lingerLoop_isRest _).not_awaitsHandshake

/-- The three places that acknowledge a datagram. -/
inductive AckedBy {π : Type*} (e : Endpoint π) (d : Datagram) (e' : Endpoint π) : Prop
  /-- the unknown-type branch of `udp_sendtoEx` -/
  | unknown (l : SendtoEx) (k : SendCaller) : e.ctl = .udpSendtoEx l k →
      ¬ d.pkt.ackType.IsAnswer → e.lib.acksUnknown d.pkt = true → AckedBy e d e'
  /-- `chk_seqEx` accepts the packet, and `sock_recvfrom` hands it over -/
  | accepted (left : Int) (got : List Byte) (k : RecvCaller) : e.ctl = .sockRecvfrom left got k →
      d.pkt.ackType = .request → d.pkt.seq = seqField ((e.lib.syncLastSeq d.pkt).lastSeq + 1) →
      Event.handed d ∈ e'.log → AckedBy e d e'
  /-- `srv_wait4cnn` -/
  | linger (sec : Int) : e.ctl = .srvWait4cnn sec → AckedBy e d e'

/-- What a step with a packet adds to the history. -/
structure RecvLog {π : Type*} (e : Endpoint π) (d : Datagram) (p : Endpoint π × List Datagram) :
    Prop where
  log_grows : e.log <+: p.1.log
  acked : ∀ x, Event.acked x ∈ p.1.log → Event.acked x ∈ e.log ∨ (x = d ∧ AckedBy e d p.1)
  handed : ∀ x, Event.handed x ∈ p.1.log → Event.handed x ∈ e.log ∨
    (x = d ∧ Event.acked d ∈ p.1.log ∧ AckedBy e d p.1 ∧ ∃ left got k, e.ctl = .sockRecvfrom left got k)
  synced : ∀ x, Event.synced x ∈ p.1.log → Event.synced x ∈ e.log ∨
    (x = d ∧ e.lib.lastSeq = -1 ∧ d.pkt.ackType ≠ .handshake ∧
      ∃ left got k, e.ctl = .sockRecvfrom left got k)
  out : ∀ x ∈ p.2, x.pkt.ackType = .ack → x.site = .window ∨
    (Event.acked d ∈ p.1.log ∧ x.pkt.seq = d.pkt.seq)

/-- An event that a step which takes `d` in may add to the history of `e`. -/
def AddedByRecv {π : Type*} (e : Endpoint π) (d : Datagram) (e' : Endpoint π) (added : List Event) :
    Event → Prop
  | .acked x => x = d ∧ AckedBy e d e'
  | .handed x => x = d ∧ Event.acked d ∈ added ∧ AckedBy e d e' ∧
      ∃ left got k, e.ctl = .sockRecvfrom left got k
  | .synced x => x = d ∧ e.lib.lastSeq = -1 ∧ d.pkt.ackType ≠ .handshake ∧
      ∃ left got k, e.ctl = .sockRecvfrom left got k
  | .numbered _ => True
  | .returned _ => True

theorem recvLog_of_added {d : Datagram} {p : Endpoint π × List Datagram} (e₁ : Endpoint π)
    (added : List Event) (hlog : e₁.log = e.log ++ added) (hmoves : Endpoint.Moves A e₁ p.1)
    (hadded : ∀ ev ∈ added, AddedByRecv e d p.1 added ev)
    (hout : ∀ x ∈ p.2, x.pkt.ackType = .ack → x.site = .window ∨
      (Event.acked d ∈ added ∧ x.pkt.seq = d.pkt.seq)) : RecvLog e d p := by
  obtain ⟨evs, hevs, hloc⟩ := hmoves.log_local
  have hmem : ∀ ev, ¬ ev.IsLocal → ev ∈ p.1.log → ev ∈ e.log ∨ ev ∈ added := by
    intro ev hev h
    rw [hevs, hlog] at h
    rcases List.mem_append.1 h with h | h
    · exact List.mem_append.1 h
    · exact absurd (hloc ev h) hev
  have hkeep : ∀ ev ∈ added, ev ∈ p.1.log := by
    intro ev hev
    rw [hevs, hlog]
    simp [hev]
  refine ⟨⟨added ++ evs, by rw [hevs, hlog, List.append_assoc]⟩, ?_, ?_, ?_, ?_⟩
  · intro x hx
    exact (hmem _ id hx).imp_right (hadded _)
  · intro x hx
    refine (hmem _ id hx).imp_right fun h => ?_
    obtain ⟨h1, h2, h3⟩ := hadded _ h
    exact ⟨h1, hkeep _ h2, h3⟩
  · intro x hx
    exact (hmem _ id hx).imp_right (hadded _)
  · intro x hx htype
    exact (hout x hx htype).imp_right fun h => ⟨hkeep _ h.1, h.2⟩

theorem ackPacket_seq_self (d : Datagram) :
    (SockLib.ackPacket (UInt32.ofNat d.pkt.seq.val) .ack).pkt.seq = d.pkt.seq := by
  have hlt := d.pkt.seq.isLt
  apply Fin.ext
  rw [SockLib.ackPacket_seq, seqField_val, UInt32.toNat_ofNat']
  omega

theorem recvLog_recvInSend {l : SendtoEx} {k : SendCaller} (d : Datagram)
    (hctl : e.ctl = .udpSendtoEx l k) : RecvLog e d (e.recvInSend A o l k d) := by
  have hsent : ∀ x ∈ (e.lib.udpSendtoExPacket o l d.pkt).2.1, x.site = .window ∨
      (¬ d.pkt.ackType.IsAnswer ∧ e.lib.acksUnknown d.pkt = true ∧ x.pkt.seq = d.pkt.seq) := by
    intro x hx
    rcases SockLib.mem_udpSendtoExPacket hx with ⟨-, rfl⟩ | ⟨htype, hacks, rfl⟩
    · exact Or.inl rfl
    · exact Or.inr ⟨htype, hacks, ackPacket_seq_self d⟩
  rcases Endpoint.recvInSend_cases (A := A) (o := o) e l k d with
    ⟨htype, hacks, hp⟩ | ⟨hnot, hp⟩ <;> rw [hp]
  · refine recvLog_of_added { e with
        lib := (e.lib.udpSendtoExPacket o l d.pkt).1, log := e.log ++ [.acked d] } [.acked d] rfl
      (Endpoint.moves_settle k _) ?_ ?_
    · intro ev hev
      rw [List.mem_singleton] at hev
      subst hev
      exact ⟨rfl, .unknown l k hctl htype hacks⟩
    · intro x hx _
      exact (hsent x hx).imp_right fun h => ⟨List.mem_singleton.2 rfl, h.2.2⟩
  · refine recvLog_of_added { e with lib := (e.lib.udpSendtoExPacket o l d.pkt).1 } [] (by simp)
      (Endpoint.moves_settle k _) (by simp) ?_
    intro x hx _
    refine Or.inl ((hsent x hx).resolve_right ?_)
    rintro ⟨htype, hacks, -⟩
    rw [hnot htype] at hacks
    cases hacks

theorem recvLog_recvInData {left : Int} {got : List Byte} {k : RecvCaller} (d : Datagram)
    (hctl : e.ctl = .sockRecvfrom left got k) : RecvLog e d (e.recvInData A o left got k d) := by
  -- the first packet sets `last_seq`, unless a handshake is answered
  have hsynced : ∀ (e' : Endpoint π) (added : List Event), d.pkt.ackType ≠ .handshake →
      ∀ ev ∈ (if e.lib.lastSeq = -1 then [Event.synced d] else []), AddedByRecv e d e' added ev := by
    intro e' added hhs ev hev
    split at hev
    · rename_i hunset
      rw [List.mem_singleton] at hev
      subst hev
      exact ⟨rfl, hunset, hhs, _, _, _, hctl⟩
    · cases hev
  rcases recvInData_cases (A := A) (o := o) e left got k d with
    ⟨-, hp⟩ | ⟨hreq, hseq, hp⟩ | ⟨hhs, -, out, hp, hout⟩ <;> rw [hp]
  · refine recvLog_of_added e [] (by simp) (Endpoint.moves_recvLoop _ _ k) (by simp) ?_
    intro x hx htype
    rcases SockLib.mem_libSendto hx with hx | rfl
    · cases hx
    · cases htype
  · -- the packet expected is acknowledged and handed over
    have hmoves := Endpoint.moves_recvLoop (A := A)
      (e := { e with
        lib := { e.lib.syncLastSeq d.pkt with lastSeq := UInt32.ofNat d.pkt.seq.val }
        log := e.log ++ (if e.lib.lastSeq = -1 then [Event.synced d] else []) ++
          [.acked d, .handed d] })
      (left - bufferLength) (got ++ d.pkt.data.bytes.take (min left bufferLength).toNat) k
    have hhanded : Event.handed d ∈ _ := hmoves.log_grows.subset (by simp)
    refine recvLog_of_added _ ((if e.lib.lastSeq = -1 then [Event.synced d] else []) ++
      [.acked d, .handed d]) (by simp) hmoves ?_ ?_
    · intro ev hev
      rcases List.mem_append.1 hev with hev | hev
      · exact hsynced _ _ (by rw [hreq]; simp) ev hev
      · rcases List.mem_pair.1 hev with rfl | rfl
        · exact ⟨rfl, .accepted left got k hctl hreq hseq hhanded⟩
        · exact ⟨rfl, by simp, .accepted left got k hctl hreq hseq hhanded, _, _, _, hctl⟩
    · intro x hx _
      rcases SockLib.mem_libSendto hx with hx | rfl
      · cases hx
      · exact Or.inr ⟨by simp, by rw [SockLib.ackPacket_seq, hseq]⟩
  · refine recvLog_of_added _ (if e.lib.lastSeq = -1 then [Event.synced d] else []) rfl
      (Endpoint.moves_recvLoop _ _ k) (hsynced _ _ hhs) ?_
    intro x hx htype
    rcases (hout x hx).2 with h | h <;> rw [h] at htype <;> cases htype

/-- The spec of a step with a packet. -/
theorem recv_log {d : Datagram} {p : Endpoint π × List Datagram}
    (h : (machine A).recv e o d = some p) : RecvLog e d p := by
  -- a handshake that ends adds to the history only what it returns
  have hfinish : ∀ (lib : SockLib) (r : Int) (out : List Datagram),
      (∀ x ∈ out, x.pkt.ackType ≠ .ack) →
      RecvLog e d (({ e with lib := lib } : Endpoint π).finishHandshake A r, out) := by
    intro lib r out hout
    exact recvLog_of_added (A := A) (({ e with lib := lib } : Endpoint π).finishHandshake A r) _ rfl
      ⟨rfl, Or.inl rfl, Or.inl rfl⟩ (by simp [AddedByRecv]) fun x hx htype => absurd htype (hout x hx)
  rcases recv_cases h with ⟨l, k, hctl, rfl⟩ | ⟨udp, r, hs, -, rfl⟩ | ⟨left, got, k, hctl, rfl⟩ |
    ⟨-, rfl⟩ | ⟨sec, hctl, rfl⟩
  · exact recvLog_recvInSend d hctl
  · unfold Endpoint.recvInHandshake
    dsimp only
    split <;> exact hfinish _ _ [] (by simp)
  · exact recvLog_recvInData d hctl
  · unfold Endpoint.recvInServerHandshake
    dsimp only
    split
    · exact hfinish e.lib _ [] (by simp)
    · refine hfinish _ _ _ ?_
      intro x hx
      rcases SockLib.mem_libSendto hx with hx | rfl
      · cases hx
      · simp [SockLib.handshakeReply, UdpPacket.zero]
  · refine recvLog_of_added { e with log := e.log ++ [.acked d] } [.acked d] rfl
      (Endpoint.moves_lingerLoop sec) ?_ ?_
    · intro ev hev
      rw [List.mem_singleton] at hev
      subst hev
      exact ⟨rfl, .linger sec hctl⟩
    · intro x hx _
      rcases SockLib.mem_libSendto hx with hx | rfl
      · cases hx
      · exact Or.inr ⟨List.mem_singleton.2 rfl, ackPacket_seq_self d⟩

end

end Sample3
end FileTransfer
