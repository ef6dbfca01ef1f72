import FileTransfer.Sample3.EndpointSteps
import FileTransfer.Sample3.HandshakeData
import FileTransfer.Sample3.PastHandshake

/-!
# The two handshakes agree

One client and one server process, over a network that loses, duplicates, delays and reorders.  The state of
a run is in one of three phases (`AgreementPhase`): the client is in its handshake, it has failed, or both
sides are past their handshakes with the same record.
-/

namespace FileTransfer
namespace Sample3

/-- What the statement says about a state: `agreed` is the record with the numbers of both sides. -/
structure HandshakeAgreed (clientSeq serverSeq : UInt32) (n : Net (Endpoint Program) Datagram) :
    Prop where
  /-- the client's handshake has returned `0` -/
  client : ∀ seq hs, Event.returned (.handshake 0 seq hs) ∈ (n.node .client).log →
    seq = serverSeq ∧ hs = ⟨clientSeq, serverSeq⟩ ∧
      (n.node .client).lib.hsData = ⟨clientSeq, serverSeq⟩ ∧
      (n.node .server).lib.hsData = ⟨clientSeq, serverSeq⟩ ∧
      Event.returned (.handshake 0 clientSeq ⟨clientSeq, serverSeq⟩) ∈ (n.node .server).log
  /-- the server's handshake has returned `0` -/
  server : ∀ seq hs, Event.returned (.handshake 0 seq hs) ∈ (n.node .server).log →
    seq = clientSeq ∧ hs = ⟨clientSeq, serverSeq⟩ ∧
      (n.node .server).lib.hsData = ⟨clientSeq, serverSeq⟩

/-- The network loses, duplicates, delays and reorders, but while the client is in its handshake no socket
call of the server fails. -/
def SocketOk (n : Net (Endpoint Program) Datagram) : BagEvent Act Oracle → Prop
  | .act .server .error => ¬ (n.node .client).ctl.AwaitsHandshake
  | _ => True

/-- No handshake has returned `0`. -/
def NoHandshake (log : List Event) : Prop :=
  ∀ seq hs, Event.returned (.handshake 0 seq hs) ∉ log

/-- A handshake request of the client with the number `x`. -/
def IsHandshakeRequest (x : UInt32) (udp : UdpPacket) : Prop :=
  udp.ackType = .handshake ∧ Handshake.ofPayload udp.data = ⟨x, 0⟩

/-- The client before its handshake and in it. -/
structure ClientBegins (i : Start) (e : Endpoint Program) : Prop where
  app : ∃ c, e.app = .client c ∧ c.pc = .handshake i ∧ c.objects = []
  log : e.log = []
  ctl : e.ctl = .idle ∨ ∃ udp retryCnt, e.ctl = .udpSendto udp retryCnt ⟨i.clientSeq, 0⟩ ∧
    IsHandshakeRequest i.clientSeq udp

/-- The client's handshake has failed, and there is no further object. -/
structure ClientFailed (e : Endpoint Program) : Prop where
  app : ∃ c, e.app = .client c ∧ c.pc = .main ∧ c.objects = []
  log : NoHandshake e.log
  ctl : e.ctl = .idle

/-- The server before its handshake, in it, and after a failure. -/
inductive ServerWaits (y : UInt32) (e : Endpoint Program) : Prop
  | before (s : Server) : e.app = .server s → s.pc = .handshake → s.serverSeq = y → e.log = [] →
      (e.ctl = .idle ∨ (e.ctl = .serverHandshake ∧ e.lib.hsData = ⟨0, y⟩)) → ServerWaits y e
  | failed (s : Server) : e.app = .server s → s.pc = .halted → e.ctl = .idle → NoHandshake e.log →
      ServerWaits y e

/-- The server waits for a request header, or is about to. -/
def Listens (e : Endpoint Program) : Prop :=
  (e.ctl = .idle ∧ ∃ s, e.app = .server s ∧ ((∃ h, s.pc = .header h) ∨ s.pc = .halted)) ∨
    e.ctl = .sockRecvfrom sizeofMsgHeader [] .program

/-- What is on the way while the client is in its handshake. -/
structure Exchange (i : Start) (y : UInt32) (n : Net (Endpoint Program) Datagram) : Prop where
  client : ClientBegins i (n.node .client)
  requests : ∀ d ∈ n.wire .client, IsHandshakeRequest i.clientSeq d.pkt
  idle : (n.node .client).ctl = .idle → n.wire .client = []
  server : (ServerWaits y (n.node .server) ∧ n.wire .server = []) ∨
    ((n.node .client).ctl.AwaitsHandshake ∧
      PastHandshake i.clientSeq ⟨i.clientSeq, y⟩ (n.node .server) ∧ Listens (n.node .server) ∧
      ∀ d ∈ n.wire .server, Handshake.ofPayload d.pkt.data = ⟨i.clientSeq, y⟩)

/-- The invariant. -/
inductive AgreementPhase (i : Start) (y : UInt32) (n : Net (Endpoint Program) Datagram) : Prop
  | begins : Exchange i y n → AgreementPhase i y n
  | failed : ClientFailed (n.node .client) →
      (∀ d ∈ n.wire .client, IsHandshakeRequest i.clientSeq d.pkt) →
      (ServerWaits y (n.node .server) ∨
        PastHandshake i.clientSeq ⟨i.clientSeq, y⟩ (n.node .server)) → AgreementPhase i y n
  | done : PastHandshake y ⟨i.clientSeq, y⟩ (n.node .client) →
      PastHandshake i.clientSeq ⟨i.clientSeq, y⟩ (n.node .server) → AgreementPhase i y n

section

variable {n n' : Net (Endpoint Program) Datagram} {e : Endpoint Program} {i : Start} {x y seq : UInt32}
  {agreed : Handshake} {j : Act} {o : Oracle} {d : Datagram} {p : Endpoint Program × List Datagram}
  {ev : BagEvent Act Oracle}

/-! ## The server's handshake -/

/-- An idle endpoint whose program makes no call takes no step. -/
theorem act_none (hctl : e.ctl = .idle) (hcall : ftpApp.call e.app = none) :
    (machine ftpApp).act e j = none := by
  cases hact : (machine ftpApp).act e j with
  | none => rfl
  | some p =>
      have hstep : (machine ftpApp).step e (.act j) = some p := hact
      obtain ⟨o, c, -, hsome, -⟩ := step_of_idle hctl hstep
      rw [hcall] at hsome
      cases hsome

theorem recv_none (hctl : e.ctl = .idle) : (machine ftpApp).recv e o d = none := by
  simp [machine, Endpoint.packet, hctl]

theorem ServerWaits.act (h : ServerWaits y e) (hact : (machine ftpApp).act e j = some p) :
    ServerWaits y p.1 ∧ p.2 = [] := by
  cases h with
  | before s happ hpc hseq hlog hctl =>
      have hcall : ftpApp.call e.app = some (.serverHandshake y) := by
        simp [ftpApp, happ, Server.call, hpc, hseq]
      have hstep : (machine ftpApp).step e (.act j) = some p := hact
      -- the server calls `handshake` and waits there, whatever times out
      rcases hctl with hctl | ⟨hctl, hdata⟩
      · obtain ⟨o, c, -, hc, rfl⟩ := step_of_idle hctl hstep
        cases hcall.symm.trans hc
        exact ⟨.before s happ hpc hseq hlog (Or.inr ⟨rfl, rfl⟩), rfl⟩
      · rcases step_of_serverHandshake hctl hstep with ⟨o, -, rfl⟩ | ⟨-, rfl⟩ | ⟨_, _, ⟨⟩, -⟩
        · exact ⟨.before s happ hpc hseq hlog (Or.inr ⟨hctl, hdata⟩), rfl⟩
        · -- the call fails, and the program ends without an agreement
          refine ⟨.failed { s with pc := .halted } ?_ rfl rfl ?_, rfl⟩
          · simp [Endpoint.finishHandshake, Endpoint.finish, ftpApp, happ, Server.resume, hpc]
          · simp [NoHandshake, Endpoint.finishHandshake, Endpoint.finish, hlog]
  | failed s happ hpc hctl _ =>
      have hcall : ftpApp.call e.app = none := by simp [ftpApp, happ, Server.call, hpc]
      rw [act_none hctl hcall] at hact
      cases hact

/-- The server takes a handshake request in. -/
theorem ServerWaits.recv (h : ServerWaits y e) (hd : IsHandshakeRequest x d.pkt)
    (hrecv : (machine ftpApp).recv e o d = some p) :
    PastHandshake x ⟨x, y⟩ p.1 ∧ Listens p.1 ∧
      ∀ z ∈ p.2, Handshake.ofPayload z.pkt.data = ⟨x, y⟩ := by
  cases h with
  | before s happ hpc hseq hlog hctl =>
      rcases hctl with hctl | ⟨hctl, hdata⟩
      · rw [recv_none hctl] at hrecv
        cases hrecv
      · have hstep : (machine ftpApp).step e (.recv o d) = some p := hrecv
        rcases step_of_serverHandshake hctl hstep with ⟨_, ⟨⟩, -⟩ | ⟨⟨⟩, -⟩ | ⟨_, _, ⟨⟩, rfl⟩
        -- the request carries `serverSeq = 0`, so the server fills in `clientSeq`
        have hsuccess : e.recvInServerHandshake ftpApp o d =
            (({ e with lib := { e.lib with hsData := ⟨x, y⟩, seq := x, lastSeq := -1 } } :
              Endpoint Program).finishHandshake ftpApp 0,
              (libSendto o [] (SockLib.handshakeReply
                { e.lib with hsData := ⟨x, y⟩, seq := x, lastSeq := -1 } d.pkt)).1) := by
          simp [Endpoint.recvInServerHandshake, hd.2, hdata]
        have happ' : ftpApp.resume e.app (.handshake 0 x ⟨x, y⟩) = .server s.clientHandler := by
          simp [ftpApp, happ, Server.resume, hpc]
        rw [hsuccess]
        refine ⟨⟨id, ?_, rfl, ?_, ?_⟩, Or.inl ⟨rfl, s.clientHandler, happ', ?_⟩, ?_⟩
        · show (ftpApp.resume e.app (.handshake 0 x ⟨x, y⟩)).Past
          rw [happ']
          exact past_clientHandler s
        · simp [Endpoint.finishHandshake, Endpoint.finish]
        · simp [Endpoint.finishHandshake, Endpoint.finish, hlog]
        · unfold Server.clientHandler
          split
          · exact Or.inr rfl
          · exact Or.inl ⟨_, rfl⟩
        · intro z hz
          rcases SockLib.mem_libSendto hz with hz | rfl
          · cases hz
          · have hback := Handshake.ofPayload_ofBytes ⟨x, y⟩ []
            rwa [List.append_nil] at hback
  | failed s _ _ hctl _ =>
      rw [recv_none hctl] at hrecv
      cases hrecv

/-- A listening server sends nothing by itself. -/
theorem Listens.act (h : Listens e) (hj : j ≠ .error) (hact : (machine ftpApp).act e j = some p) :
    Listens p.1 ∧ p.2 = [] := by
  have hstep : (machine ftpApp).step e (.act j) = some p := hact
  rcases h with ⟨hctl, s, happ, ⟨h, hpc⟩ | hpc⟩ | hctl
  · have hcall : ftpApp.call e.app = some (.sockRecvfrom sizeofMsgHeader) := by
      simp [ftpApp, happ, Server.call, hpc]
    obtain ⟨o, c, -, hc, rfl⟩ := step_of_idle hctl hstep
    cases hcall.symm.trans hc
    exact ⟨Or.inr rfl, rfl⟩
  · have hcall : ftpApp.call e.app = none := by simp [ftpApp, happ, Server.call, hpc]
    rw [act_none hctl hcall] at hact
    cases hact
  · rcases step_of_sockRecvfrom hctl hstep with ⟨o, -, rfl⟩ | ⟨⟨⟩, -⟩ | ⟨_, _, ⟨⟩, -⟩
    · exact ⟨Or.inr rfl, rfl⟩
    · exact absurd rfl hj

/-- A listening server answers a handshake request with its record. -/
theorem Listens.recv (h : Listens e) (hdata : e.lib.hsData = agreed) (hd : d.pkt.ackType = .handshake)
    (hrecv : (machine ftpApp).recv e o d = some p) :
    Listens p.1 ∧ ∀ z ∈ p.2, Handshake.ofPayload z.pkt.data = agreed := by
  rcases h with ⟨hctl, -⟩ | hctl
  · rw [recv_none hctl] at hrecv
    cases hrecv
  · have hstep : (machine ftpApp).step e (.recv o d) = some p := hrecv
    rcases step_of_sockRecvfrom hctl hstep with ⟨_, ⟨⟩, -⟩ | ⟨⟨⟩, -⟩ | ⟨_, _, ⟨⟩, rfl⟩
    simp only [Endpoint.recvInData, hd, if_true]
    refine ⟨Or.inr rfl, ?_⟩
    intro z hz
    rcases SockLib.mem_libSendto hz with hz | rfl
    · cases hz
    · have hback := Handshake.ofPayload_ofBytes e.lib.hsData []
      rw [List.append_nil, hdata] at hback
      simpa [SockLib.handshakeAck, hdata] using hback

/-! ## The client's handshake -/

theorem ClientFailed.act (h : ClientFailed e) (hact : (machine ftpApp).act e j = some p) : False := by
  obtain ⟨c, happ, hpc, hobjects⟩ := h.app
  have hcall : ftpApp.call e.app = none := by simp [ftpApp, happ, Client.call, hpc, hobjects]
  rw [act_none h.ctl hcall] at hact
  cases hact

/-- The handshake returns `-1`. -/
theorem ClientBegins.fails (h : ClientBegins i e) {s : SockLib} :
    ClientFailed (({ e with lib := s } : Endpoint Program).finishHandshake ftpApp (-1)) := by
  obtain ⟨c, happ, hpc, hobjects⟩ := h.app
  refine ⟨⟨c.fail, ?_, rfl, hobjects⟩, ?_, rfl⟩
  · simp [Endpoint.finishHandshake, Endpoint.finish, ftpApp, happ, Client.resume, hpc]
  · simp [NoHandshake, Endpoint.finishHandshake, Endpoint.finish, h.log]

/-- `udp_sendto` sends the request, or gives up. -/
theorem ClientBegins.sends (h : ClientBegins i e) {s : SockLib} {udp : UdpPacket} {retryCnt : Nat}
    (hudp : IsHandshakeRequest i.clientSeq udp)
    (hp : ({ e with lib := s } : Endpoint Program).sendHandshake ftpApp o udp retryCnt
      ⟨i.clientSeq, 0⟩ = p) :
    ((ClientBegins i p.1 ∧ p.1.ctl ≠ .idle) ∨ ClientFailed p.1) ∧
      ∀ z ∈ p.2, IsHandshakeRequest i.clientSeq z.pkt := by
  subst hp
  unfold Endpoint.sendHandshake
  split
  · exact ⟨Or.inr h.fails, by simp⟩
  · have hout : ∀ z ∈ (libSendto o [] ⟨udp, .handshakeRequest⟩).1,
        IsHandshakeRequest i.clientSeq z.pkt := by
      intro z hz
      rcases SockLib.mem_libSendto hz with hz | rfl
      · cases hz
      · exact hudp
    split <;> rename_i heq <;> rw [heq] at hout
    · exact ⟨Or.inl ⟨⟨h.app, h.log, Or.inr ⟨udp, retryCnt, rfl, hudp⟩⟩, by simp⟩, hout⟩
    · exact ⟨Or.inr h.fails, hout⟩

theorem ClientBegins.act (h : ClientBegins i e) (hact : (machine ftpApp).act e j = some p) :
    ((ClientBegins i p.1 ∧ p.1.ctl ≠ .idle) ∨ ClientFailed p.1) ∧
      ∀ z ∈ p.2, IsHandshakeRequest i.clientSeq z.pkt := by
  have hstep : (machine ftpApp).step e (.act j) = some p := hact
  obtain ⟨c, happ, hpc, hobjects⟩ := h.app
  rcases h.ctl with hctl | ⟨udp, retryCnt, hctl, hudp⟩
  · have hcall : ftpApp.call e.app = some (.clientHandshake i.clientSeq i.stack) := by
      simp [ftpApp, happ, Client.call, hpc]
    obtain ⟨o, c', -, hc, hbegin⟩ := step_of_idle hctl hstep
    cases hcall.symm.trans hc
    refine h.sends ⟨rfl, ?_⟩ hbegin
    exact Handshake.ofPayload_ofBytes ⟨i.clientSeq, 0⟩ i.stack
  · rcases step_of_udpSendto hctl hstep with ⟨o, -, hsend⟩ | ⟨-, rfl⟩ | ⟨_, _, ⟨⟩, -⟩
    · exact h.sends hudp hsend
    · exact ⟨Or.inr h.fails, by simp⟩

/-- The client takes the response in. -/
theorem ClientBegins.recv (h : ClientBegins i e)
    (hd : Handshake.ofPayload d.pkt.data = ⟨i.clientSeq, y⟩)
    (hrecv : (machine ftpApp).recv e o d = some p) : PastHandshake y ⟨i.clientSeq, y⟩ p.1 := by
  obtain ⟨c, happ, hpc, hobjects⟩ := h.app
  rcases h.ctl with hctl | ⟨udp, retryCnt, hctl, -⟩
  · rw [recv_none hctl] at hrecv
    cases hrecv
  · have hstep : (machine ftpApp).step e (.recv o d) = some p := hrecv
    rcases step_of_udpSendto hctl hstep with ⟨_, ⟨⟩, -⟩ | ⟨⟨⟩, -⟩ | ⟨_, _, ⟨⟩, rfl⟩
    have hsuccess : e.recvInHandshake ftpApp ⟨i.clientSeq, 0⟩ d =
        ({ e with lib := { e.lib with hsData := ⟨i.clientSeq, y⟩, seq := y, lastSeq := -1 } } :
          Endpoint Program).finishHandshake ftpApp 0 := by
      simp [Endpoint.recvInHandshake, hd]
    have happ' : ftpApp.resume e.app (.handshake 0 y ⟨i.clientSeq, y⟩) =
        .client (({ c with ifHandShake := false } : Client).sendRequest i) := by
      simp [ftpApp, happ, Client.resume, hpc]
    rw [hsuccess]
    refine ⟨id, ?_, rfl, ?_, ?_⟩
    · show (ftpApp.resume e.app (.handshake 0 y ⟨i.clientSeq, y⟩)).Past
      rw [happ']
      exact past_sendRequest { c with ifHandShake := false } rfl hobjects i
    · simp [Endpoint.finishHandshake, Endpoint.finish]
    · simp [Endpoint.finishHandshake, Endpoint.finish, h.log]

/-! ## Both sides -/

theorem ClientBegins.awaits (h : ClientBegins i e) (hctl : e.ctl ≠ .idle) : e.ctl.AwaitsHandshake := by
  rcases h.ctl with hidle | ⟨udp, retryCnt, heq, -⟩
  · exact absurd hidle hctl
  · rw [heq]
    trivial

theorem Exchange.act_client (h : Exchange i y n)
    (hact : (machine ftpApp).act (n.node .client) j = some p) : AgreementPhase i y (n.emit .client p) := by
  obtain ⟨hclient, hout⟩ := h.client.act hact
  have hrequests : ∀ d ∈ (n.emit .client p).wire .client, IsHandshakeRequest i.clientSeq d.pkt := by
    rw [n.emit_wire_self .client p]
    intro d hd
    exact (List.mem_append.1 hd).elim (h.requests d) (hout d)
  rcases hclient with ⟨hbegins, hctl⟩ | hfailed
  · refine .begins ⟨by rwa [Net.emit_node_self], hrequests, ?_, ?_⟩
    · rw [Net.emit_node_self]
      exact fun hidle => absurd hidle hctl
    · rw [Net.emit_node_self, Net.emit_client_node, Net.emit_client_wire]
      exact h.server.imp_right fun hs => ⟨hbegins.awaits hctl, hs.2⟩
  · refine .failed (by rwa [Net.emit_node_self]) hrequests ?_
    rw [Net.emit_client_node]
    exact h.server.imp (fun hs => hs.1) fun hs => hs.2.1

theorem Exchange.act_server (h : Exchange i y n)
    (hj : j = .error → ¬ (n.node .client).ctl.AwaitsHandshake)
    (hact : (machine ftpApp).act (n.node .server) j = some p) : Exchange i y (n.emit .server p) := by
  refine ⟨by rw [Net.emit_server_node]; exact h.client, by rw [Net.emit_server_wire]; exact h.requests,
    by rw [Net.emit_server_node, Net.emit_server_wire]; exact h.idle, ?_⟩
  rw [Net.emit_node_self, Net.emit_server_node, Net.emit_wire_self]
  rcases h.server with ⟨hwaits, hempty⟩ | ⟨hawaits, hpast, hlistens, hresponses⟩
  · obtain ⟨hwaits', hout⟩ := hwaits.act hact
    exact Or.inl ⟨hwaits', by rw [hempty, hout]; rfl⟩
  · obtain ⟨hlistens', hout⟩ := hlistens.act (fun heq => hj heq hawaits) hact
    refine Or.inr ⟨hawaits, hpast.act hact, hlistens', ?_⟩
    rw [hout, List.append_nil]
    exact hresponses

/-- A request, perhaps a late one, reaches the server. -/
theorem Exchange.recv_server (h : Exchange i y n) (hd : d ∈ n.wire .client)
    (hrecv : (machine ftpApp).recv (n.node .server) o d = some p) : Exchange i y (n.emit .server p) := by
  -- a request is on the wire, so the client has begun
  have hawaits : (n.node .client).ctl.AwaitsHandshake := by
    refine h.client.awaits fun hidle => ?_
    rw [h.idle hidle] at hd
    cases hd
  refine ⟨by rw [Net.emit_server_node]; exact h.client, by rw [Net.emit_server_wire]; exact h.requests,
    by rw [Net.emit_server_node, Net.emit_server_wire]; exact h.idle, ?_⟩
  rw [Net.emit_node_self, Net.emit_server_node, Net.emit_wire_self]
  right
  rcases h.server with ⟨hwaits, hempty⟩ | ⟨-, hpast, hlistens, hresponses⟩
  · obtain ⟨hpast, hlistens, hout⟩ := hwaits.recv (h.requests d hd) hrecv
    refine ⟨hawaits, hpast, hlistens, ?_⟩
    rw [hempty, List.nil_append]
    exact hout
  · obtain ⟨hlistens', hout⟩ := hlistens.recv hpast.hsData (h.requests d hd).1 hrecv
    refine ⟨hawaits, hpast.recv hrecv, hlistens', ?_⟩
    intro z hz
    exact (List.mem_append.1 hz).elim (hresponses z) (hout z)

/-- A response reaches the client. -/
theorem Exchange.recv_client (h : Exchange i y n) (hd : d ∈ n.wire .server)
    (hrecv : (machine ftpApp).recv (n.node .client) o d = some p) :
    AgreementPhase i y (n.emit .client p) := by
  rcases h.server with ⟨-, hempty⟩ | ⟨-, hpast, -, hresponses⟩
  · rw [hempty] at hd
    cases hd
  · refine .done ?_ (by rwa [Net.emit_client_node])
    rw [Net.emit_node_self]
    exact h.client.recv (hresponses d hd) hrecv

/-- The server goes on after the client's handshake has failed. -/
theorem AgreementPhase.failed_server (hclient : ClientFailed (n.node .client))
    (hrequests : ∀ d ∈ n.wire .client, IsHandshakeRequest i.clientSeq d.pkt)
    (hserver : ServerWaits y p.1 ∨ PastHandshake i.clientSeq ⟨i.clientSeq, y⟩ p.1) :
    AgreementPhase i y (n.emit .server p) := by
  exact .failed (by rwa [Net.emit_server_node]) (by rwa [Net.emit_server_wire])
    (by rwa [Net.emit_node_self])

/-- Once both sides are past their handshakes, they stay there. -/
theorem AgreementPhase.done_emit (t : Side)
    (hclient : PastHandshake y ⟨i.clientSeq, y⟩ (n.node .client))
    (hserver : PastHandshake i.clientSeq ⟨i.clientSeq, y⟩ (n.node .server))
    (hstep : ∀ {s : UInt32} {hs : Handshake}, PastHandshake s hs (n.node t) → PastHandshake s hs p.1) :
    AgreementPhase i y (n.emit t p) := by
  cases t with
  | client =>
      exact .done (by rw [Net.emit_node_self]; exact hstep hclient) (by rwa [Net.emit_client_node])
  | server =>
      exact .done (by rwa [Net.emit_server_node]) (by rw [Net.emit_node_self]; exact hstep hserver)

theorem AgreementPhase.step (h : AgreementPhase i y n) (hok : SocketOk n ev)
    (hstep : bagStep (machine ftpApp) n ev = some n') : AgreementPhase i y n' := by
  cases ev with
  | act t j =>
      obtain ⟨p, hact, rfl⟩ := bagStep_act.1 hstep
      have herror : t = .server → j = .error → ¬ (n.node .client).ctl.AwaitsHandshake := by
        rintro rfl rfl
        exact hok
      -- by the phase; the server reads late requests in every one of them
      cases h with
      | begins h =>
          cases t with
          | client => exact h.act_client hact
          | server => exact .begins (h.act_server (herror rfl) hact)
      | failed hclient hrequests hserver =>
          cases t with
          | client => exact (hclient.act hact).elim
          | server =>
              refine .failed_server hclient hrequests ?_
              exact hserver.imp (fun hs => (hs.act hact).1) fun hs => hs.act hact
      | done hclient hserver => exact .done_emit t hclient hserver fun hpast => hpast.act hact
  | deliver t k o =>
      obtain ⟨d, p, hwire, hrecv, rfl⟩ := bagStep_deliver.1 hstep
      have hd : d ∈ n.wire t.peer := List.mem_of_getElem? hwire
      cases h with
      | begins h =>
          cases t with
          | client => exact h.recv_client hd hrecv
          | server => exact .begins (h.recv_server hd hrecv)
      | failed hclient hrequests hserver =>
          cases t with
          | client =>
              rw [recv_none hclient.ctl] at hrecv
              cases hrecv
          | server =>
              refine .failed_server hclient hrequests (Or.inr ?_)
              rcases hserver with hwaits | hpast
              · exact (hwaits.recv (hrequests d hd) hrecv).1
              · exact hpast.recv hrecv
      | done hclient hserver => exact .done_emit t hclient hserver fun hpast => hpast.recv hrecv

theorem ServerWaits.noHandshake (h : ServerWaits y e) : NoHandshake e.log := by
  cases h with
  | before s _ _ _ hlog _ => simp [NoHandshake, hlog]
  | failed s _ _ _ hlog => exact hlog

theorem PastHandshake.agrees (h : PastHandshake seq agreed e) {seq' : UInt32} {hs : Handshake}
    (hr : Event.returned (.handshake 0 seq' hs) ∈ e.log) :
    seq' = seq ∧ hs = agreed ∧ e.lib.hsData = agreed :=
  ⟨(h.only _ _ _ hr).1, (h.only _ _ _ hr).2, h.hsData⟩

theorem AgreementPhase.agrees (h : AgreementPhase i y n) : HandshakeAgreed i.clientSeq y n := by
  cases h with
  | begins h =>
      refine ⟨?_, ?_⟩
      · intro seq hs hr
        rw [h.client.log] at hr
        cases hr
      · intro seq hs hr
        rcases h.server with ⟨hwaits, -⟩ | ⟨-, hpast, -⟩
        · exact absurd hr (hwaits.noHandshake seq hs)
        · exact hpast.agrees hr
  | failed hclient _ hserver =>
      refine ⟨fun seq hs hr => absurd hr (hclient.log seq hs), ?_⟩
      intro seq hs hr
      rcases hserver with hwaits | hpast
      · exact absurd hr (hwaits.noHandshake seq hs)
      · exact hpast.agrees hr
  | done hclient hserver =>
      refine ⟨?_, fun seq hs hr => hserver.agrees hr⟩
      intro seq hs hr
      obtain ⟨hseq, hhs, hdata⟩ := hclient.agrees hr
      exact ⟨hseq, hhs, hdata, hserver.hsData, hserver.returned⟩

/-- In every state of every run of a fresh client and a fresh server, a client whose handshake has returned
`0` and its server hold the same record, and go on holding it. -/
theorem handshake_agreement {memory : Side → SockLib} {starts : List Start} {serverSeq : UInt32}
    {handles : List Handle} {es : List (BagEvent Act Oracle)}
    (hrun : Run (bagStep (machine ftpApp)) SocketOk
      (ftpStart memory ⟨true, [], i :: starts, .main⟩ ⟨serverSeq, handles, .handshake⟩) es n) :
    HandshakeAgreed i.clientSeq serverSeq n := by
  have hstart : AgreementPhase i serverSeq
      (ftpStart memory ⟨true, [], i :: starts, .main⟩ ⟨serverSeq, handles, .handshake⟩) := by
    refine .begins ⟨⟨⟨_, rfl, rfl, rfl⟩, rfl, Or.inl rfl⟩, fun d hd => (by cases hd), fun _ => rfl, ?_⟩
    exact Or.inl ⟨.before _ rfl rfl rfl rfl (Or.inl rfl), rfl⟩
  exact (hrun.invariant (fun _ _ _ ht hok hst => ht.step hok hst) hstart).agrees

end

instance : DecidablePred Control.AwaitsHandshake
  | .udpSendto _ _ _ => inferInstanceAs (Decidable True)
  | .idle | .sendFile _ _ | .sendFileLast | .sockSendtoEx | .recvFile _ _ | .udpSendtoEx _ _
  | .sockRecvfrom _ _ _ | .serverHandshake | .srvWait4cnn _ => inferInstanceAs (Decidable False)

instance (n : Net (Endpoint Program) Datagram) : DecidablePred (SocketOk n)
  | .act .client _ => inferInstanceAs (Decidable True)
  | .act .server (.run _) => inferInstanceAs (Decidable True)
  | .act .server (.timeout _) => inferInstanceAs (Decidable True)
  | .act .server .error => inferInstanceAs (Decidable (¬ _))
  | .deliver _ _ _ => inferInstanceAs (Decidable True)

/-- The first response is late: the client sends its request again, takes the second response, and the
request arrives once more after that. -/
theorem handshake_agreement_repeated :
    ∃ n : Net (Endpoint Program) Datagram, HandshakeAgreed 5 9 n ∧
      Event.returned (.handshake 0 9 ⟨5, 9⟩) ∈ (n.node .client).log := by
  have hex : ∃ n, Run (bagStep (machine ftpApp)) SocketOk
      (ftpStart (fun _ => .zero) ⟨true, [], [sampleStart .get], .main⟩
        ⟨9, [sampleHandle (some [])], .handshake⟩)
      [bagRuns .client, bagRuns .server, bagArrives .server 0, .act .client (.timeout .reliable),
        bagRuns .server, bagArrives .server 1, bagArrives .client 1, bagArrives .server 0] n ∧
        Event.returned (.handshake 0 9 ⟨5, 9⟩) ∈ (n.node .client).log :=
    exists_run_of_exec (by decide +kernel)
  obtain ⟨n, hrun, hreturned⟩ := hex
  exact ⟨n, handshake_agreement hrun, hreturned⟩

end Sample3
end FileTransfer
