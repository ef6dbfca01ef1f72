import FileTransfer.Sample3.Programs
import FileTransfer.Sample3.Session

/-!
# Acknowledgements are sound

An endpoint acknowledges a datagram only if it is a data packet whose payload it has handed to its
program.  `chk_seqEx` does so by itself; the unknown-type branch of `udp_sendtoEx` and `srv_wait4cnn` do so
only in sessions whose events meet `SessionOk` and `NumbersOk`, and `acked_without_handing` shows what happens
otherwise.
-/

namespace FileTransfer
namespace Sample3

variable {π : Type*}

/-- Every datagram that `e` has acknowledged is a data packet that it has handed to its program. -/
def AckedHanded (e : Endpoint π) : Prop :=
  ∀ d, Event.acked d ∈ e.log → d.pkt.ackType = .request ∧ Event.handed d ∈ e.log

/-- One event of the history, as `AckedHanded` sees it. -/
def Event.AckedIn (log : List Event) : Event → Prop
  | .acked d => d.pkt.ackType = .request ∧ Event.handed d ∈ log
  | _ => True

instance (log : List Event) : DecidablePred (Event.AckedIn log)
  | .acked _ => inferInstanceAs (Decidable (_ ∧ _))
  | .numbered _ | .handed _ | .synced _ | .returned _ => inferInstanceAs (Decidable True)

instance (e : Endpoint π) : Decidable (AckedHanded e) :=
  decidable_of_iff (∀ ev ∈ e.log, ev.AckedIn e.log)
    ⟨fun h d hd => h _ hd, fun h ev hev => by cases ev <;> first | trivial | exact h _ hev⟩

/-- Every `ACKTYPE_ACK` on the wire that leaves `s` answers a datagram that `s` has acknowledged. -/
def AcksAnswer (n : Net (Endpoint π) Datagram) (s : Side) : Prop :=
  ∀ x ∈ n.wire s, x.pkt.ackType = .ack →
    ∃ d, Event.acked d ∈ (n.node s).log ∧ d.pkt.seq = x.pkt.seq

structure AckSound (n : Net (Endpoint π) Datagram) : Prop where
  session : Session (fun _ => True) n
  acked : ∀ s, AckedHanded (n.node s)
  wire : ∀ s, AcksAnswer n s

section

variable {A : App π} {n n' : Net (Endpoint π) Datagram} {s t : Side} {w start : Nat} {b : Origin}
  {g : GoBackN.State Payload} {o : Oracle} {d : Datagram} {p : Endpoint π × List Datagram}
  {ev : FifoEvent Act Oracle}

/-- The number and the payload determine a data packet. -/
theorem IsData.unique {sub : List Payload} {m : Nat} {u v : UdpPacket} (hu : IsData start sub m u)
    (hv : IsData start sub m v) : u = v := by
  obtain ⟨hu1, hu2, hu3⟩ := hu
  obtain ⟨hv1, hv2, hv3⟩ := hv
  have hseq : u.seq = v.seq := Fin.ext (hu1.trans hv1.symm)
  have hdata : u.data = v.data := Option.some.inj (hu3.symm.trans hv3)
  cases u
  cases v
  simp_all

/-- A packet that `srv_wait4cnn` takes in as another copy of the last one was handed over. -/
theorem LinkAt.handed_of_linger (h : LinkAt n s w b g) (hd : d ∈ n.wire s)
    (htakes : LingerTakes (n.node s.peer).lib d) :
    d.pkt.ackType = .request ∧ Event.handed d ∈ (n.node s.peer).log := by
  obtain ⟨hsite, hlast⟩ := htakes
  obtain ⟨m, hm, hfirst⟩ := exists_mem_of_forall₂ h.data (mem_dataOn hd hsite)
  have hdata : IsData b.start g.submitted m d.pkt :=
    hfirst.recount (h.aligned (List.length_pos_iff.1 (Nat.zero_lt_of_lt hfirst.lt)))
  -- after a reset `last_seq` is all ones, which is no sequence number
  have hset : (n.node s.peer).lib.lastSeq ≠ -1 := by
    rw [← hlast]
    exact ofNat_seq_ne _
  -- so the packet is the one before the expected one, the last that was taken in
  have hexp : m + 1 = g.expected := by
    refine h.inv.succ_eq_expected_of_mod b.start hm ?_
    have h1 := h.recv.set hset
    have h2 := hdata.1
    rw [← hlast, toNat_ofNat_seq] at h1
    omega
  obtain ⟨d', hd', hsite', hdata'⟩ := h.recv.last (by omega)
  have hpkt : d'.pkt = d.pkt := by
    refine hdata'.unique ?_
    rw [← hexp, Nat.add_sub_cancel]
    exact hdata
  -- the packets of one index are one
  have hdd : d' = d := by
    cases d'
    cases d
    simp_all
  exact ⟨hdata.2.1, hdd ▸ hd'⟩

/-- What a step with a packet acknowledges was handed over. -/
theorem AckSound.acked_recv (h : AckSound n) {rest : List Datagram}
    (hwire : n.wire t.peer = d :: rest)
    (htakes : ¬ (n.node t).ctl.Restarts → Takes (n.node t) o d)
    (hrecv : (machine A).recv (n.node t) o d = some p) : AckedHanded p.1 := by
  have hlog := recv_log hrecv
  intro x hx
  rcases hlog.acked x hx with hx | ⟨rfl, hby⟩
  · obtain ⟨htype, hhanded⟩ := h.acked t x hx
    exact ⟨htype, hlog.log_grows.subset hhanded⟩
  · cases hby with
    | unknown l k hctl htype hacks =>
        -- `udp_sendtoEx` took a packet that it must not take
        have htake := htakes (by rw [hctl]; exact id)
        simp only [Takes, hctl] at htake
        unfold SendTakes at htake
        cases hcase : x.pkt.ackType <;> simp_all [AckType.IsAnswer]
    | accepted left got k _ htype _ hhanded => exact ⟨htype, hhanded⟩
    | linger sec hctl =>
        have htake := htakes (by rw [hctl]; exact id)
        simp only [Takes, hctl] at htake
        obtain ⟨w, b, g, hlink, -⟩ := h.session.links t.peer
        have hd : x ∈ n.wire t.peer := by
          rw [hwire]
          exact List.mem_cons_self
        have hhanded := hlink.handed_of_linger hd (by rwa [Side.peer_peer])
        rw [Side.peer_peer] at hhanded
        exact ⟨hhanded.1, hlog.log_grows.subset hhanded.2⟩

/-- The acknowledgements on the wires after a step of the party `t`. -/
theorem AcksAnswer.emit (h : ∀ s, AcksAnswer n s) {m : Net (Endpoint π) Datagram}
    (hnode : m.node = n.node) (hsub : ∀ s, ∀ x ∈ m.wire s, x ∈ n.wire s)
    (hlog : (n.node t).log <+: p.1.log)
    (hout : ∀ x ∈ p.2, x.pkt.ackType = .ack → ∃ d, Event.acked d ∈ p.1.log ∧ d.pkt.seq = x.pkt.seq) :
    ∀ s, AcksAnswer (m.emit t p) s := by
  intro s x hx htype
  rcases Side.eq_or_eq_peer t s with rfl | rfl
  · rw [Net.emit_wire_self] at hx
    rw [Net.emit_node_self]
    rcases List.mem_append.1 hx with hx | hx
    · obtain ⟨d, hd, hseq⟩ := h _ x (hsub _ x hx) htype
      exact ⟨d, hlog.subset hd, hseq⟩
    · exact hout x hx htype
  · rw [Net.emit_wire_peer] at hx
    rw [Net.emit_node_peer, hnode]
    exact h _ x (hsub _ x hx) htype

/-- An event that meets `NumbersOk` numbers a packet into an empty window only where the peer expects it. -/
theorem NumbersOk.admits (hok : NumbersOk A n ev) (hstep : fifoStep (machine A) n ev = some n') :
    Admits (fun _ => True) A n ev n' := by
  refine ⟨fun s hnew _ hempty => ?_, fun _ _ _ => trivial, fun _ _ => Or.inl trivial⟩
  have hnumbers : ∃ i, ev = .act s i ∧ (n.node s).Numbers A := numbers_of_step hstep hnew
  obtain ⟨i, rfl, hnumbers⟩ := hnumbers
  exact hok hnumbers hempty

theorem AckSound.step (h : AckSound n) (hok : SessionOk A n ev) (hnumbers : NumbersOk A n ev)
    (hstep : fifoStep (machine A) n ev = some n') : AckSound n' := by
  have hsession := h.session.step hok (hnumbers.admits hstep) hstep
  -- an acknowledgement on a wire was sent as a reply
  have hsite : ∀ s, ∀ x ∈ n'.wire s, x.pkt.ackType = .ack → x.site = .sendAck := by
    intro s x hx htype
    have htyped := hsession.wellTyped hx
    unfold WellTyped at htyped
    cases hs : x.site <;> rw [hs] at htyped <;> simp_all
  cases ev with
  | act t i =>
      obtain ⟨p, hact, rfl⟩ := fifoStep_act.1 hstep
      obtain ⟨hsent, evs, hevs, hloc⟩ := act_frame hact
      refine ⟨hsession, ?_, AcksAnswer.emit h.wire rfl (fun _ _ hx => hx) ⟨evs, hevs.symm⟩ ?_⟩
      · intro s
        rcases Side.eq_or_eq_peer t s with rfl | rfl
        · rw [Net.emit_node_self]
          intro d hd
          rw [hevs] at hd ⊢
          rcases List.mem_append.1 hd with hd | hd
          · obtain ⟨htype, hhanded⟩ := h.acked _ d hd
            exact ⟨htype, List.mem_append_left _ hhanded⟩
          · exact absurd (hloc _ hd) id
        · rw [Net.emit_node_peer]
          exact h.acked _
      · intro x hx htype
        have hx' : x.site = .sendAck :=
          hsite t x (by rw [Net.emit_wire_self]; exact List.mem_append_right _ hx) htype
        have := hsent x hx
        simp [SentByAct, hx'] at this
  | deliver t o =>
      obtain ⟨d, rest, p, hwire, hrecv, rfl⟩ := fifoStep_deliver.1 hstep
      have hlog := recv_log hrecv
      have htakes := (hok d (by rw [hwire]; rfl)).2
      refine ⟨hsession, ?_, AcksAnswer.emit h.wire rfl ?_ hlog.log_grows ?_⟩
      · intro s
        rcases Side.eq_or_eq_peer t s with rfl | rfl
        · rw [Net.emit_node_self]
          exact h.acked_recv hwire htakes hrecv
        · rw [Net.emit_node_peer]
          exact h.acked _
      · intro s x hx
        rcases Side.eq_or_eq_peer t s with rfl | rfl
        · rwa [Net.setWire_peer_wire] at hx
        · rw [Net.setWire_wire_self] at hx
          rw [hwire]
          exact List.mem_cons_of_mem _ hx
      · intro x hx htype
        rcases hlog.out x hx htype with hwindow | ⟨hd, hseq⟩
        · have hx' : x.site = .sendAck :=
            hsite t x (by rw [Net.emit_wire_self]; exact List.mem_append_right _ hx) htype
          rw [hwindow] at hx'
          cases hx'
        · exact ⟨d, hd, hseq.symm⟩
  | lose t k =>
      obtain ⟨-, rfl⟩ := fifoStep_lose.1 hstep
      refine ⟨hsession, h.acked, ?_⟩
      intro s x hx
      refine h.wire s x ?_
      rcases Side.eq_or_eq_peer t s with rfl | rfl
      · rw [Net.setWire_wire_self] at hx
        exact (List.eraseIdx_sublist _ _).subset hx
      · rwa [Net.setWire_wire_peer] at hx

/-- In every run of a session whose events meet `SessionOk` and `NumbersOk`, every acknowledgement answers a
data packet whose payload has been handed over. -/
theorem acks_sound {lib : Side → SockLib} {app : Side → π} {es : List (FifoEvent Act Oracle)}
    (hsize : ∀ s, 1 ≤ (lib s).wSize ∧ (lib s).wSize ≤ 31) (hempty : ∀ s, (lib s).winBufPos = 0)
    (hunset : ∀ s, (lib s).lastSeq = -1)
    (hrun : Run (fifoStep (machine A)) (fun n ev => SessionOk A n ev ∧ NumbersOk A n ev)
      (sessionStart lib app) es n) :
    ∀ s, AckedHanded (n.node s) ∧ AcksAnswer n s := by
  have hstart : AckSound (sessionStart lib app) :=
    ⟨session_start hsize hempty hunset, fun _ _ hd => (by cases hd), fun _ _ hx => (by cases hx)⟩
  have hsound : AckSound n :=
    hrun.invariant (fun _ _ _ ht hok hst => ht.step hok.1 hok.2 hst) hstart
  exact fun s => ⟨hsound.acked s, hsound.wire s⟩

end

/-- A request for a file by the second object of the client, up to the acknowledgement of its second packet. -/
theorem acks_sound_request :
    ∃ n : Net (Endpoint Program) Datagram,
      (∀ s, AckedHanded (n.node s) ∧ AcksAnswer n s) ∧ 2 ≤ (handedData (n.node .server).log).length := by
  have hex : ∃ n, Run (fifoStep (machine ftpApp)) (fun n ev => SessionOk ftpApp n ev ∧ NumbersOk ftpApp n ev)
      (sampleSession [.put none, .get] [some []]) secondObjectEvents n ∧
        2 ≤ (handedData (n.node .server).log).length :=
    exists_run_of_exec (by decide +kernel)
  obtain ⟨n, hrun, hlen⟩ := hex
  refine ⟨n, ?_, hlen⟩
  exact acks_sound (by decide) (by decide) (by decide) hrun

/-- The client puts an empty file.  `recv_file` has nothing to receive, and `srv_wait4cnn` acknowledges the
packet that `send_file` sends all the same. -/
def emptyPutEvents : List (FifoEvent Act Oracle) :=
  requestEvents ++ [runs .client, runs .client, runs .client, runs .client, runs .server,
    runs .server, runs .server, arrives .server]

theorem acked_without_handing :
    ∃ n, Run (fifoStep (machine ftpApp)) anyStep (sampleSession [.put (some [])] [none])
        emptyPutEvents n ∧ ¬ AckedHanded (n.node .server) :=
  exists_run_of_exec_any (by decide +kernel)

end Sample3
end FileTransfer
