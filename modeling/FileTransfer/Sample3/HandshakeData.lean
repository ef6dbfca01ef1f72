import FileTransfer.Sample3.Programs
import FileTransfer.Sample3.ReceiverLink
import FileTransfer.Sample3.WindowContent

/-!
# Handshake packets and data

A handshake request has a packet type of its own, and `sock_recvfrom` answers it without looking at
`lastSeq`.  A handshake response is built with a zeroed header, so it has the type and, mostly, the number
of a first data packet.  `handshake_never_data` says that nothing but data packets of the peer is handed
over, acknowledged or used to set `lastSeq` as long as every handshake packet that arrives meets `Passes`;
`response_handed` shows a late response that does not meet it.
-/

namespace FileTransfer
namespace Sample3

/-- One event of an endpoint's history, against the history of the peer. -/
def Event.FromData (peerLog : List Event) : Event → Prop
  | .handed d => d.site = .window ∧ Event.numbered d.pkt ∈ peerLog
  | .acked d => d.isHandshake = false
  | .synced d => d.isHandshake = false
  | .numbered _ => True
  | .returned _ => True

instance (log : List Event) : DecidablePred (Event.FromData log)
  | .handed _ => inferInstanceAs (Decidable (_ ∧ _))
  | .acked d => inferInstanceAs (Decidable (d.isHandshake = false))
  | .synced d => inferInstanceAs (Decidable (d.isHandshake = false))
  | .numbered _ | .returned _ => inferInstanceAs (Decidable True)

variable {π : Type*}

/-- Everything that `t` has handed to its program is a packet that the peer has numbered as data, and no
handshake packet is handed over, acknowledged or used for `lastSeq`. -/
def DataOnly (n : Net (Endpoint π) Datagram) (t : Side) : Prop :=
  ∀ ev ∈ (n.node t).log, ev.FromData (n.node t.peer).log

instance (n : Net (Endpoint π) Datagram) (t : Side) : Decidable (DataOnly n t) :=
  inferInstanceAs (Decidable (∀ ev ∈ (n.node t).log, _))

/-- The wait in which `e` stands does not take the handshake packet `d` for data. -/
def Passes (e : Endpoint π) (d : Datagram) : Prop :=
  match e.ctl with
  | .sockRecvfrom _ _ _ => d.pkt.ackType = .handshake ∨
      (e.lib.lastSeq ≠ -1 ∧ d.pkt.seq ≠ seqField (e.lib.lastSeq + 1))
  | .udpSendtoEx _ _ => e.lib.acksUnknown d.pkt = false
  | .srvWait4cnn _ => False
  | _ => True

instance : (e : Endpoint π) → (d : Datagram) → Decidable (Passes e d)
  | ⟨s, .sockRecvfrom _ _ _, _, _⟩, d =>
      inferInstanceAs (Decidable (d.pkt.ackType = .handshake ∨
        (s.lastSeq ≠ -1 ∧ d.pkt.seq ≠ seqField (s.lastSeq + 1))))
  | ⟨s, .udpSendtoEx _ _, _, _⟩, d => inferInstanceAs (Decidable (s.acksUnknown d.pkt = false))
  | ⟨_, .srvWait4cnn _, _, _⟩, _ => inferInstanceAs (Decidable False)
  | ⟨_, .idle, _, _⟩, _ | ⟨_, .sendFile _ _, _, _⟩, _ | ⟨_, .sendFileLast, _, _⟩, _
  | ⟨_, .sockSendtoEx, _, _⟩, _ | ⟨_, .recvFile _ _, _, _⟩, _ | ⟨_, .udpSendto _ _ _, _, _⟩, _
  | ⟨_, .serverHandshake, _, _⟩, _ => inferInstanceAs (Decidable True)

/-- Every handshake packet arrives where it is not taken for data. -/
def HandshakeOk (n : Net (Endpoint π) Datagram) : BagEvent Act Oracle → Prop
  | .act _ _ => True
  | .deliver t k _ =>
      ∀ d ∈ (n.wire t.peer)[k]?, d.isHandshake = true → Passes (n.node t) d

instance (n : Net (Endpoint π) Datagram) : DecidablePred (HandshakeOk n)
  | .act _ _ => inferInstanceAs (Decidable True)
  | .deliver t k _ =>
      inferInstanceAs (Decidable (∀ d ∈ (n.wire t.peer)[k]?, d.isHandshake = true → _))

/-- New objects have a window of at least one slot. -/
def App.HasWindow (A : App π) : Prop :=
  ∀ a windowSize memory, A.call a = some (.udpInit windowSize memory) → 0 < windowSize

/-- The invariant: what is on the wires comes from where its site says, and so does what an endpoint has
taken in. -/
structure HandshakeApart (n : Net (Endpoint π) Datagram) : Prop where
  window : ∀ t, WindowNumbered (n.node t)
  sent : ∀ t, ∀ d ∈ n.wire t, d.site = .window → Event.numbered d.pkt ∈ (n.node t).log
  typed : ∀ t, ∀ d ∈ n.wire t, d.site ≠ .window → WellTyped d
  request : ∀ t udp retryCnt hs, (n.node t).ctl = .udpSendto udp retryCnt hs →
    udp.ackType = .handshake
  data : ∀ t, DataOnly n t

section

variable {A : App π} {n n' : Net (Endpoint π) Datagram} {t : Side} {e : Endpoint π} {i : Act}
  {o : Oracle} {d : Datagram} {p : Endpoint π × List Datagram} {ev : BagEvent Act Oracle}
  {log log' : List Event}

theorem Event.FromData.mono {x : Event} (h : x.FromData log) (hlog : log <+: log') :
    x.FromData log' := by
  cases x with
  | handed d => exact ⟨h.1, hlog.subset h.2⟩
  | _ => exact h

theorem Event.IsLocal.fromData {x : Event} (h : x.IsLocal) : x.FromData log := by
  cases x with
  | numbered _ => trivial
  | returned _ => trivial
  | _ => cases h

/-- A packet of type `ACKTYPE_REQUEST` that is not a handshake packet comes from the window. -/
theorem HandshakeApart.site_window (h : HandshakeApart n) (hd : d ∈ n.wire t)
    (htype : d.pkt.ackType = .request) (hnot : d.isHandshake = false) : d.site = .window := by
  by_contra hsite
  rcases (h.typed t d hd hsite).of_request htype with hw | hw
  · exact hsite hw
  · simp [Datagram.isHandshake, hw] at hnot

/-- A handshake packet that passes is not acknowledged. -/
theorem Passes.not_acked (h : Passes e d) {e' : Endpoint π} : ¬ AckedBy e d e' := by
  intro hby
  cases hby with
  | unknown l k hctl _ hacks =>
      simp only [Passes, hctl] at h
      rw [h] at hacks
      cases hacks
  | accepted left got k hctl htype hseq _ =>
      simp only [Passes, hctl] at h
      rcases h with h | ⟨hset, hne⟩
      · rw [htype] at h
        cases h
      · rw [SockLib.syncLastSeq_of_ne hset] at hseq
        exact hne hseq
  | linger sec hctl => simp only [Passes, hctl] at h

/-- A handshake packet that passes does not set `lastSeq`. -/
theorem Passes.lastSeq_ne (h : Passes e d) {left : Int} {got : List Byte} {k : RecvCaller}
    (hctl : e.ctl = .sockRecvfrom left got k) (htype : d.pkt.ackType ≠ .handshake) :
    e.lib.lastSeq ≠ -1 := by
  simp only [Passes, hctl] at h
  exact (h.resolve_left htype).1

/-- The history of an endpoint after it has taken in a datagram. -/
theorem HandshakeApart.data_recv (h : HandshakeApart n) (hd : d ∈ n.wire t.peer)
    (hpass : d.isHandshake = true → Passes (n.node t) d)
    (hrecv : (machine A).recv (n.node t) o d = some p) :
    ∀ x ∈ p.1.log, x.FromData (n.node t.peer).log := by
  have hlog := recv_log hrecv
  -- only data packets pass the tests of `chk_seqEx`, `udp_sendtoEx` and `srv_wait4cnn`
  have hacked : AckedBy (n.node t) d p.1 → d.isHandshake = false := by
    intro hby
    by_contra hhs
    rw [Bool.not_eq_false] at hhs
    exact (hpass hhs).not_acked hby
  intro x hx
  cases x with
  | handed y =>
      rcases hlog.handed y hx with hold | ⟨rfl, -, hby, left, got, k, hctl⟩
      · exact h.data t _ hold
      · have htype : y.pkt.ackType = .request := by
          cases hby with
          | unknown l k hctl' _ _ => cases hctl.symm.trans hctl'
          | accepted _ _ _ _ htype _ _ => exact htype
          | linger sec hctl' => cases hctl.symm.trans hctl'
        have hsite := h.site_window hd htype (hacked hby)
        exact ⟨hsite, h.sent _ y hd hsite⟩
  | acked y =>
      rcases hlog.acked y hx with hold | ⟨rfl, hby⟩
      · exact h.data t _ hold
      · exact hacked hby
  | synced y =>
      rcases hlog.synced y hx with hold | ⟨rfl, hunset, htype, left, got, k, hctl⟩
      · exact h.data t _ hold
      · show y.isHandshake = false
        by_contra hhs
        rw [Bool.not_eq_false] at hhs
        exact (hpass hhs).lastSeq_ne hctl htype hunset
  | numbered _ => trivial
  | returned _ => trivial

/-- A handshake packet is no answer to data. -/
theorem HandshakeApart.handshake_type (h : HandshakeApart n) (hd : d ∈ n.wire t)
    (hhs : d.isHandshake = true) : d.pkt.ackType = .handshake ∨ d.pkt.ackType = .request := by
  have htyped : d.site ≠ .window → WellTyped d := h.typed t d hd
  unfold WellTyped at htyped
  unfold Datagram.isHandshake at hhs
  cases hsite : d.site <;> simp_all

/-- `Passes` is exact: a handshake packet that does not pass is taken for data. -/
theorem HandshakeApart.not_passes (h : HandshakeApart n) (hd : d ∈ n.wire t.peer)
    (hhs : d.isHandshake = true) (hnot : ¬ Passes (n.node t) d)
    (hrecv : (machine A).recv (n.node t) o d = some p) :
    ∃ x ∈ p.1.log, ¬ x.FromData (n.node t.peer).log := by
  have hacked : ¬ Event.FromData (n.node t.peer).log (.acked d) := by
    intro hfrom
    exact absurd (hhs.symm.trans hfrom) (by simp)
  have htype := h.handshake_type hd hhs
  -- by the wait at which the packet arrives
  rcases recv_cases hrecv with ⟨l, k, hctl, rfl⟩ | ⟨udp, r, hs, hctl, -⟩ | ⟨left, got, k, hctl, rfl⟩ |
    ⟨hctl, -⟩ | ⟨sec, hctl, rfl⟩ <;> simp only [Passes, hctl] at hnot
  · -- the unknown-type branch of `udp_sendtoEx` acknowledges it
    rw [Bool.not_eq_false] at hnot
    have hanswer : ¬ d.pkt.ackType.IsAnswer := by
      rcases htype with htype | htype <;> rw [htype] <;> exact id
    rcases Endpoint.recvInSend_cases (A := A) (o := o) (n.node t) l k d with
      ⟨-, -, hp⟩ | ⟨hnone, -⟩
    · refine ⟨.acked d, ?_, hacked⟩
      rw [hp]
      exact (Endpoint.moves_settle k _).log_grows.subset (by simp)
    · rw [hnone hanswer] at hnot
      cases hnot
  · exact absurd trivial hnot
  · push Not at hnot
    obtain ⟨hne, hnext⟩ := hnot
    have hreq : d.pkt.ackType = .request := htype.resolve_left hne
    rcases recvInData_cases (A := A) (o := o) (n.node t) left got k d with
      ⟨heq, -⟩ | ⟨-, -, hp⟩ | ⟨-, hseq, out, hp, -⟩
    · exact absurd heq hne
    · refine ⟨.acked d, ?_, hacked⟩
      rw [hp]
      exact (Endpoint.moves_recvLoop _ _ k).log_grows.subset (by simp)
    · -- `chk_seqEx` refuses every number but the next one, so `lastSeq` was unset
      have hunset : (n.node t).lib.lastSeq = -1 := by
        by_contra hset
        rw [SockLib.syncLastSeq_of_ne hset] at hseq
        exact hseq hreq (hnext hset)
      exact absurd (SockLib.syncLastSeq_of_eq hunset).symm (hseq hreq)
  · exact absurd trivial hnot
  · refine ⟨.acked d, ?_, hacked⟩
    exact (Endpoint.moves_lingerLoop sec).log_grows.subset (by simp)

/-- The invariant after a step of the party `t`. -/
theorem HandshakeApart.emit (h : HandshakeApart n) (hsends : SendsNumbered p)
    (hlog : (n.node t).log <+: p.1.log)
    (htyped : ∀ d ∈ p.2, d.site ≠ .window → WellTyped d)
    (hrequest : ∀ udp retryCnt hs, p.1.ctl = .udpSendto udp retryCnt hs → udp.ackType = .handshake)
    (hdata : ∀ x ∈ p.1.log, x.FromData (n.node t.peer).log) : HandshakeApart (n.emit t p) := by
  -- each part for the party that moves, and then for its peer
  refine ⟨?_, ?_, ?_, ?_, ?_⟩ <;> intro s <;> rcases Side.eq_or_eq_peer t s with rfl | rfl
  · rw [Net.emit_node_self]
    exact hsends.window
  · rw [Net.emit_node_peer]
    exact h.window _
  · rw [Net.emit_wire_self, Net.emit_node_self]
    intro d hd hsite
    rcases List.mem_append.1 hd with hd | hd
    · exact hlog.subset (h.sent _ d hd hsite)
    · exact hsends.sent d hd hsite
  · rw [Net.emit_wire_peer, Net.emit_node_peer]
    exact h.sent _
  · rw [Net.emit_wire_self]
    intro d hd
    rcases List.mem_append.1 hd with hd | hd
    · exact h.typed _ d hd
    · exact htyped d hd
  · rw [Net.emit_wire_peer]
    exact h.typed _
  · rw [Net.emit_node_self]
    exact hrequest
  · rw [Net.emit_node_peer]
    exact h.request _
  · unfold DataOnly
    rw [Net.emit_node_self, Net.emit_node_peer]
    exact hdata
  · -- the peer of `t` has the same history, and `t` has numbered at least what it had before
    unfold DataOnly
    rw [Net.emit_node_peer, Side.peer_peer, Net.emit_node_self]
    intro x hx
    have hold := h.data t.peer x hx
    rw [Side.peer_peer] at hold
    exact hold.mono hlog

/-- Every event that meets `HandshakeOk` keeps the invariant. -/
theorem HandshakeApart.step (hA : A.HasWindow) (h : HandshakeApart n) (hok : HandshakeOk n ev)
    (hstep : bagStep (machine A) n ev = some n') : HandshakeApart n' := by
  cases ev with
  | act t i =>
      obtain ⟨p, hact, rfl⟩ := bagStep_act.1 hstep
      obtain ⟨hsent, evs, hevs, hlocal⟩ := act_frame hact
      have hcall : ∀ ws memory, (n.node t).nextCall A = some (.udpInit ws memory) → 0 < ws := by
        intro ws memory hc
        exact hA _ ws memory (Endpoint.nextCall_eq_some.1 hc).2
      have hrequest : ∀ udp retryCnt hs, p.1.ctl = .udpSendto udp retryCnt hs →
          udp.ackType = .handshake := by
        intro udp retryCnt hs hctl
        rcases udpSendto_of_act hact hctl with ⟨r, hctl'⟩ | ⟨c, junk, -, rfl, -⟩
        · exact h.request t _ _ _ hctl'
        · rfl
      refine h.emit ((h.window t).act hcall hact) ⟨evs, hevs.symm⟩ ?_ hrequest ?_
      · intro d hd hwindow
        have hby := hsent d hd
        unfold SentByAct at hby
        unfold WellTyped
        cases hsite : d.site <;> rw [hsite] at hby <;> simp_all
        -- a handshake request is sent where `udp_sendto` waits with it
        obtain ⟨r, hs, hctl⟩ := hby
        exact hrequest _ _ _ hctl
      · intro x hx
        rw [hevs] at hx
        rcases List.mem_append.1 hx with hx | hx
        · exact h.data t x hx
        · exact (hlocal x hx).fromData
  | deliver t k o =>
      obtain ⟨d, p, hwire, hrecv, rfl⟩ := bagStep_deliver.1 hstep
      have hd : d ∈ n.wire t.peer := List.mem_of_getElem? hwire
      refine h.emit ((h.window t).recv hrecv) (recv_log hrecv).log_grows ?_ ?_ ?_
      · intro x hx hwindow
        have hby := recv_sent hrecv x hx
        unfold SentByRecv at hby
        unfold WellTyped
        cases hsite : x.site <;> rw [hsite] at hby <;> simp_all
      · intro udp retryCnt hs hctl
        refine absurd ?_ (recv_not_awaitsHandshake hrecv)
        rw [hctl]
        trivial
      · exact h.data_recv hd (hok d (by rw [hwire]; rfl)) hrecv

/-- A session in which nothing has been sent. -/
theorem handshakeApart_start {lib : Side → SockLib} {app : Side → π}
    (hsize : ∀ s, 0 < (lib s).wSize) (hempty : ∀ s, (lib s).winBufPos = 0) :
    HandshakeApart (sessionStart lib app) := by
  refine ⟨?_, ?_, ?_, ?_, ?_⟩
  · intro t
    refine windowNumbered_rest ⟨hsize t, ?_, ?_⟩ id
    · show (lib t).winBufPos ≤ (lib t).wSize
      rw [hempty t]
      exact Nat.zero_le _
    · intro i hi
      have hi' : i < (lib t).winBufPos := hi
      rw [hempty t] at hi'
      cases hi'
  · intro t d hd
    cases hd
  · intro t d hd
    cases hd
  · intro t udp r hs hctl
    cases hctl
  · intro t x hx
    cases hx

/-- Both programs create their objects with `DEFAULT_WINDOWSIZE`. -/
theorem ftpApp_hasWindow : ftpApp.HasWindow := by
  intro a windowSize memory hcall
  have hsize : windowSize = defaultWindowSize := by
    cases a with
    | client c =>
        cases hpc : c.pc with
        | main =>
            simp only [ftpApp, Client.call, hpc] at hcall
            split at hcall <;> cases hcall
            rfl
        | _ => simp [ftpApp, Client.call, hpc] at hcall
    | server s =>
        cases hpc : s.pc <;> simp [ftpApp, Server.call, hpc] at hcall
  rw [hsize]
  decide

/-- In every run of a client and a server in which each handshake packet arrives where it passes, what
either side takes for data is data of its peer. -/
theorem handshake_never_data {memory : Side → SockLib} {c : Client} {s : Server}
    {es : List (BagEvent Act Oracle)} {n : Net (Endpoint Program) Datagram}
    (hrun : Run (bagStep (machine ftpApp)) HandshakeOk (ftpStart memory c s) es n) :
    ∀ t, DataOnly n t := by
  have hstart : HandshakeApart (ftpStart memory c s) :=
    handshakeApart_start (fun _ => (by decide : 0 < defaultWindowSize)) fun _ => rfl
  exact (hrun.invariant (fun _ _ _ ht hok hst => ht.step ftpApp_hasWindow hok hst) hstart).data

end

/-! ## Two runs -/

/-- Events in a reliable environment; `bagArrives t k` brings the `k`-th datagram of the peer to `t`. -/
def bagRuns (s : Side) : BagEvent Act Oracle := .act s (.run .reliable)
def bagArrives (s : Side) (k : Nat) : BagEvent Act Oracle := .deliver s k .reliable

/-- The handshake, the request header and the request record of a GET. -/
def bagRequestEvents : List (BagEvent Act Oracle) :=
  [bagRuns .client, bagRuns .server, bagArrives .server 0, bagArrives .client 0,
    bagRuns .client, bagRuns .client, bagRuns .server, bagArrives .server 1, bagArrives .client 1,
    bagRuns .client, bagRuns .client, bagRuns .server, bagArrives .server 2, bagArrives .client 2]

/-- The server hands both packets of the request over; the handshake request, which arrives once more
between them, is answered and nothing else. -/
theorem handshake_never_data_request :
    ∃ n : Net (Endpoint Program) Datagram,
      (∀ t, DataOnly n t) ∧ 2 ≤ (handedData (n.node .server).log).length := by
  have hex : ∃ n, Run (bagStep (machine ftpApp)) HandshakeOk (sampleSession [.get] [some []])
      (bagRequestEvents.take 12 ++ [bagArrives .server 0, bagArrives .server 2]) n ∧
        2 ≤ (handedData (n.node .server).log).length :=
    exists_run_of_exec (by decide +kernel)
  obtain ⟨n, hrun, hlen⟩ := hex
  exact ⟨n, handshake_never_data hrun, hlen⟩

/-- The client waits for the response header when the handshake response arrives once more: its payload is
handed over as the header. -/
theorem response_handed :
    ∃ n, Run (bagStep (machine ftpApp)) anyStep (sampleSession [.get] [some []])
        (bagRequestEvents ++ [bagRuns .client, bagArrives .client 0]) n ∧ ¬ DataOnly n .client :=
  exists_run_of_exec_any (by decide +kernel)

end Sample3
end FileTransfer
