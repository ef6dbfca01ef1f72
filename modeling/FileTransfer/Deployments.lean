import FileTransfer.Assign3.PairTransfer
import FileTransfer.Router.Deployment
import FileTransfer.Sample3.ExactDelivery
import FileTransfer.Sample3.FileSafety
import FileTransfer.Sample3.HandshakeAgreement
import FileTransfer.Sample3.Wire
import FileTransfer.Udp.Wire

/-!
# The programs with their router

`sample-3` and `Assign3_zcl` come with the same router, which stands between the client and the server.  What the
two ends of each build guarantee over a network they guarantee with the router in its place, byte for byte.
-/

namespace FileTransfer

open Router (Deployment DeployEvent Parcel deployStep deployed)

/-! ## The sliding-window build -/

namespace Sample3

/-- What `lib_sendto` puts on the wire. -/
def parcelBytes (c : Parcel Padding Datagram) : List Byte := c.datagram.pkt.bytes c.pad

theorem length_parcelBytes (c : Parcel Padding Datagram) : (parcelBytes c).length = udpPacketLength :=
  UdpPacket.length_bytes _ _

theorem parcelBytes_fits (c : Parcel Padding Datagram) : (parcelBytes c).length ≤ Router.maxBufSize := by
  rw [length_parcelBytes]
  decide

/-- What arrives are the bytes of a packet that the other end has sent, and reads as this packet where its type is
one of the protocol. -/
def Carries {π : Type*} (D : Deployment (Endpoint π) Datagram Padding) (sent : Side → List Datagram) :
    Prop :=
  ∀ s, ∀ p ∈ D.down s, ∃ c : Parcel Padding Datagram, c.datagram ∈ sent s.peer ∧ parcelBytes c = p.2 ∧
    (c.datagram.pkt.ackType.Known → UdpPacket.ofBytes p.2 = c.datagram.pkt)

theorem carries_of_inBag {π : Type*} {D : Deployment (Endpoint π) Datagram Padding}
    {n : Net (Endpoint π) Datagram} (hfaithful : Router.Faithful parcelBytes D) (h : Router.InBag D n) :
    Carries D n.wire := by
  intro s p hp
  obtain ⟨c, hc, hbytes⟩ := hfaithful.carried hp
  refine ⟨c, h.taken s.peer c (List.mem_of_getElem? hc), hbytes, fun hknown => ?_⟩
  rw [← hbytes]
  exact UdpPacket.ofBytes_bytes c.pad hknown

def zeroPadding : Padding := ⟨0, (0, 0, 0), (0, 0, 0)⟩

/-! ### The handshake -/

section Handshake

variable {D : Deployment (Endpoint Program) Datagram Padding} {i : Start} {serverSeq : UInt32}

/-- While the client is in its handshake no socket call of the server fails. -/
def ServerOk (node : Side → Endpoint Program) (s : Side) (j : Act) : Prop :=
  s = .server → j = .error → ¬ (node .client).ctl.AwaitsHandshake

theorem socketOk_of_serverOk {n : Net (Endpoint Program) Datagram} {ev : BagEvent Act Oracle}
    (h : Router.BagOk ServerOk n ev) : SocketOk n ev := by
  cases ev with
  | deliver => trivial
  | act s j =>
      cases s with
      | client => trivial
      | server =>
          cases j with
          | run | timeout => trivial
          | error => exact h rfl rfl

theorem HandshakeAgreed.congr {x y : UInt32} {n m : Net (Endpoint Program) Datagram}
    (h : HandshakeAgreed x y n) (hnode : n.node = m.node) : HandshakeAgreed x y m := by
  obtain ⟨hclient, hserver⟩ := h
  rw [hnode] at hclient hserver
  exact ⟨hclient, hserver⟩

theorem agreementPhase_start (memory : Side → SockLib) (starts : List Start) (handles : List Handle) :
    AgreementPhase i serverSeq
      (ftpStart memory ⟨true, [], i :: starts, .main⟩ ⟨serverSeq, handles, .handshake⟩) := by
  refine .begins ⟨⟨⟨_, rfl, rfl, rfl⟩, rfl, .inl rfl⟩, ?_, fun _ => rfl, .inl ⟨?_, rfl⟩⟩
  · intro d hd
    cases hd
  · exact .before _ rfl rfl rfl rfl (.inl rfl)

/-- The client and the server agree on the record of the handshake, whatever the router delays and drops and
whichever of its calls fail, and what reaches them are packets that the other one has sent. -/
theorem handshake_behind_router {memory : Side → SockLib} {starts : List Start} {handles : List Handle}
    (b b' : Router.Buffer) {evs : List (DeployEvent Act Oracle Padding)}
    (hrun : Run (deployStep (machine ftpApp) parcelBytes) (Router.DeployOk ServerOk)
      (deployed (ftpStart memory ⟨true, [], i :: starts, .main⟩ ⟨serverSeq, handles, .handshake⟩).node
        b b') evs D) :
    HandshakeAgreed i.clientSeq serverSeq D.net ∧
      ∃ evs' n, Run (bagStep (machine ftpApp)) SocketOk
          (ftpStart memory ⟨true, [], i :: starts, .main⟩ ⟨serverSeq, handles, .handshake⟩) evs' n ∧
        n.node = D.node ∧ Carries D n.wire := by
  obtain ⟨evs', n, hbag, hrel⟩ := Router.exists_bag_run _ b b' hrun
  have hsocket := hbag.mono fun _ _ => socketOk_of_serverOk
  have hphase : AgreementPhase i serverSeq n :=
    hsocket.invariant (fun _ _ _ ht hok hst => ht.step hok hst)
      (agreementPhase_start memory starts handles)
  have hcarries := carries_of_inBag (Router.faithful_run hrun) hrel
  exact ⟨hphase.agrees.congr hrel.node, evs', n, hsocket, hrel.node, hcarries⟩

/-- No socket call of the server fails. -/
def NoError (_ : Deployment (Endpoint Program) Datagram Padding) : DeployEvent Act Oracle Padding → Prop
  | .act .server .error => False
  | _ => True

instance (D : Deployment (Endpoint Program) Datagram Padding) : DecidablePred (NoError D)
  | .act .server .error => inferInstanceAs (Decidable False)
  | .act .server (.run _) | .act .server (.timeout _) | .act .client _ | .cycle _ _ _ | .reach _ _
  | .deliver _ _ | .loseUp _ _ | .loseDown _ _ => inferInstanceAs (Decidable True)

/-- The first request is delayed, and the second one overtakes it.  The router drops the first response. -/
def overtakenRequest : List (DeployEvent Act Oracle Padding) :=
  [.act .client (.run .reliable), .reach .client zeroPadding, .cycle true false .succeed,
    .act .client (.timeout .reliable), .reach .client zeroPadding, .cycle false false .succeed,
    .act .server (.run .reliable), .deliver .server .reliable, .reach .server zeroPadding,
    .cycle false true .succeed, .act .server (.run .reliable), .deliver .server .reliable,
    .reach .server zeroPadding, .cycle false false .succeed, .deliver .client .reliable]

theorem handshake_behind_router_overtaken :
    ∃ D : Deployment (Endpoint Program) Datagram Padding, HandshakeAgreed 5 9 D.net ∧
      Event.returned (.handshake 0 9 ⟨5, 9⟩) ∈ (D.node .client).log := by
  have hex : ∃ D, Run (deployStep (machine ftpApp) parcelBytes) NoError
      (deployed (ftpStart (fun _ => .zero) ⟨true, [], [sampleStart .get], .main⟩
        ⟨9, [sampleHandle (some [])], .handshake⟩).node Router.zeroBuffer Router.zeroBuffer)
      overtakenRequest D ∧ Event.returned (.handshake 0 9 ⟨5, 9⟩) ∈ (D.node .client).log :=
    exists_run_of_exec (by decide +kernel)
  obtain ⟨D, hrun, hreturned⟩ := hex
  have hok : ∀ D ev, NoError D ev → Router.DeployOk ServerOk D ev := by
    intro D ev hev
    cases ev with
    | act s j =>
        rintro rfl rfl
        exact hev.elim
    | reach | cycle | deliver | loseUp | loseDown => trivial
  exact ⟨D, (handshake_behind_router _ _ (hrun.mono hok)).1, hreturned⟩

end Handshake

/-! ### A file -/

section File

variable {D : Deployment (Endpoint Unit) Datagram Padding} {sender receiver : SockLib}
  {content : List Byte} {evs : List (DeployEvent Act Oracle Padding)}

/-- A router that drops what it will but delays nothing: what `recv_file` has written is a part of the file from
its start. -/
theorem prefix_behind_router {len : Int} (b b' : Router.Buffer)
    (hsize : 1 ≤ sender.wSize ∧ sender.wSize ≤ 31) (hempty : sender.winBufPos = 0)
    (hseq : (receiver.lastSeq.toNat + 1) % 32 = sender.seq.toNat % 32)
    (hlen : len ≤ content.length)
    (hrun : Run (deployStep (machine idleApp) parcelBytes)
      (Router.FifoDeployOk (FileOk (seqField sender.seq)))
      (deployed (fileStart sender receiver content len).node b b') evs D) :
    fileWritten (D.node .server) <+: content := by
  obtain ⟨evs', hfifo, -⟩ := Router.exists_fifo_run _ b b' parcelBytes_fits hrun
  have hinv : FileInv content len sender.wSize sender.seq.toNat D.net :=
    hfifo.invariant (fun _ _ _ ht hok hst => ht.step hlen rfl hok hst)
      (fileInv_start hsize hempty (.inr hseq))
  exact hinv.receiver.prefix

/-- The router drops the first chunk, and the client sends it again. -/
def droppedChunk : List (DeployEvent Act Oracle Padding) :=
  [.act .client (.run .reliable), .reach .client zeroPadding, .cycle false true .succeed,
    .act .client (.timeout .reliable), .act .server (.run .reliable), .reach .client zeroPadding,
    .cycle false false .succeed, .deliver .server .reliable]

theorem prefix_behind_router_dropped :
    ∃ D : Deployment (Endpoint Unit) Datagram Padding,
      fileWritten (D.node .server) <+: List.replicate 1030 7 ∧
        (fileWritten (D.node .server)).length = 1024 := by
  have hex : ∃ D, Run (deployStep (machine idleApp) parcelBytes)
      (Router.Undelayed true (FileOk (seqField (SockLib.zero.udpInit 1).seq)))
      (deployed (fileStart (SockLib.zero.udpInit 1) (SockLib.zero.udpInit 1) (List.replicate 1030 7)
        1030).node Router.zeroBuffer Router.zeroBuffer) droppedChunk D ∧
      (fileWritten (D.node .server)).length = 1024 :=
    exists_run_of_exec (by decide +kernel)
  obtain ⟨D, hrun, hlen⟩ := hex
  have hok := hrun.mono (Router.fifoDeployOk_of_undelayed fun _ _ _ _ => trivial)
  exact ⟨D, prefix_behind_router _ _ (by decide) (by decide) (by decide) (by decide +kernel) hok, hlen⟩

/-- Neither end can run, nothing is on its way to the router or at its sockets, and neither end can take in what
the router has sent. -/
def Settled (D : Deployment (Endpoint Unit) Datagram Padding) : Prop :=
  ∀ t, D.up t = [] ∧ D.router.sock (Router.host t) = [] ∧
    (deployStep (machine idleApp) parcelBytes D (.act t (.run .reliable))).isNone ∧
    (deployStep (machine idleApp) parcelBytes D (.deliver t .reliable)).isNone

theorem complete_of_settled (hfaithful : Router.Faithful parcelBytes D) (h : Settled D) :
    Complete D.net := by
  intro t
  obtain ⟨-, -, hact, hdeliver⟩ := h t
  refine ⟨?_, ?_⟩
  · have hnone : ((machine idleApp).act (D.node t) (.run .reliable)).isNone := by
      simpa [deployStep] using hact
    have hsame : fifoStep (machine idleApp) D.net (runs t) =
        ((machine idleApp).act (D.node t) (.run .reliable)).map (D.net.emit t) := rfl
    rw [hsame, Option.isNone_map]
    exact hnone
  · rw [Option.isNone_iff_eq_none] at hdeliver ⊢
    refine Option.eq_none_iff_forall_not_mem.2 fun m hm => ?_
    obtain ⟨d, rest, q, hwire, hrecv, -⟩ := fifoStep_deliver.1 hm
    -- what is on the way to this end is what the router has sent to it
    obtain ⟨hup, hsock, -, -⟩ := h t.peer
    have hwaiting : D.waiting t.peer = [] := by
      have hmap := hfaithful.waiting t.peer
      rw [hsock] at hmap
      exact List.map_eq_nil_iff.1 hmap.symm
    have hqueue : D.queue t.peer = ((D.down t).filterMap (D.carried t)).map Parcel.datagram := by
      rw [Deployment.queue, Deployment.parcels, hwaiting, hup, Side.peer_peer, List.append_nil,
        List.append_nil]
    cases hdown : D.down t with
    | nil =>
        rw [hdown] at hqueue
        exact absurd (hwire.symm.trans hqueue) (List.cons_ne_nil _ _)
    | cons p ps =>
        obtain ⟨c, hc, hbytes⟩ := hfaithful.carried (hdown ▸ List.mem_cons_self : p ∈ D.down t)
        rw [hdown, List.filterMap_cons_some hc, List.map_cons] at hqueue
        obtain ⟨rfl, -⟩ := List.cons.inj (hwire.symm.trans hqueue)
        have hsome := Router.deployStep_deliver.2 ⟨p, ps, c, q, hdown, hc, hbytes, hrecv, rfl⟩
        rw [hdeliver] at hsome
        cases hsome

/-- A router that neither delays nor drops, and whose calls succeed: `recv_file` returns `0` with the file, and
where nothing is left to do it has returned. -/
theorem delivers_behind_router (b b' : Router.Buffer) (hsize : 1 ≤ sender.wSize)
    (hempty : sender.winBufPos = 0) (hagree : Agree sender receiver)
    (hrun : Run (deployStep (machine idleApp) parcelBytes) (Router.FifoDeployOk Undisturbed)
      (deployed (fileStart sender receiver content content.length).node b b') evs D) :
    (∀ r written, Event.returned (.file r written) ∈ (D.node .server).log → r = 0 ∧ written = content) ∧
      (Settled D → (D.node .server).log.getLast? = some (.returned (.file 0 content))) := by
  obtain ⟨evs', hfifo, hfaithful⟩ := Router.exists_fifo_run _ b b' parcelBytes_fits hrun
  obtain ⟨⟨_, _, hexact⟩, -⟩ := exactAt_run hsize hempty hagree hfifo
  refine ⟨hexact.receiver.returned, fun hsettled => ?_⟩
  exact (hexact.receiver.done (hexact.complete (complete_of_settled hfaithful hsettled)).1).1

/-- A file of one chunk.  The packet that `send_file` sends again at the end finds `recv_file` gone. -/
def oneChunkCalls : List (DeployEvent Act Oracle Padding) :=
  [.act .client (.run .reliable), .act .server (.run .reliable), .reach .client zeroPadding,
    .cycle false false .succeed, .deliver .server .reliable, .act .server (.run .reliable),
    .reach .server zeroPadding, .cycle false false .succeed, .deliver .client .reliable,
    .act .client (.run .reliable), .act .client (.run .reliable), .reach .client zeroPadding,
    .cycle false false .succeed]

instance (D : Deployment (Endpoint Unit) Datagram Padding) : Decidable (Settled D) :=
  inferInstanceAs (Decidable (∀ t, D.up t = [] ∧ D.router.sock (Router.host t) = [] ∧
    (deployStep (machine idleApp) parcelBytes D (.act t (.run .reliable))).isNone = true ∧
    (deployStep (machine idleApp) parcelBytes D (.deliver t .reliable)).isNone = true))

theorem delivers_behind_router_oneChunk :
    ∃ D : Deployment (Endpoint Unit) Datagram Padding,
      (D.node .server).log.getLast? = some (.returned (.file 0 [1, 2, 3])) := by
  have hex : ∃ D, Run (deployStep (machine idleApp) parcelBytes) (Router.Undelayed false Undisturbed)
      (deployed (fileStart (SockLib.zero.udpInit 1) (SockLib.zero.udpInit 1) [1, 2, 3]
        ([1, 2, 3] : List Byte).length).node Router.zeroBuffer Router.zeroBuffer) oneChunkCalls D ∧
      Settled D :=
    exists_run_of_exec (by decide +kernel)
  obtain ⟨D, hrun, hsettled⟩ := hex
  have hok := hrun.mono (Router.fifoDeployOk_of_undelayed fun h => absurd h (by decide))
  exact ⟨D, (delivers_behind_router _ _ (by decide) (by decide) (.inl rfl) hok).2 hsettled⟩

end File

end Sample3

/-! ## `Assign3_zcl` -/

namespace Assign3

open Udp

/-- What a `sendto` puts on the wire; the structure has no padding. -/
def parcelBytes (c : Parcel Unit Datagram) : List Byte := c.datagram.bytes

/-- In every state that a transfer reaches behind the router, whatever that delays and drops and whichever of its
calls fail, the results of `udprecv` are the first of the chunks that were passed to `udpsend`, the receiving loop
has got them, and `udpsend` has returned for every one of them but possibly the last, and for no other. -/
theorem chunks_behind_router (s : Side) (chunks : List Buffer) (mem : Side → Members)
    (b b' : Router.Buffer) {evs : List (DeployEvent Act Junk Unit)}
    {D : Deployment (Endpoint Transfer) Datagram Unit}
    (hrun : Run (deployStep (machine transferApp) parcelBytes) anyStep
      (deployed (transferStart s chunks mem).node b b') evs D) :
    (D.node s.peer).hist.chunksAccepted <+: (D.node s).hist.chunks ∧
      (D.node s).hist.chunks <+: chunks ∧
      (D.node s).hist.chunksSent ≤ (D.node s.peer).hist.chunksAccepted.length ∧
      (D.node s.peer).hist.chunksAccepted.length ≤ (D.node s).hist.chunksSent + 1 ∧
      (D.node s.peer).app = .receiver (D.node s.peer).hist.chunksAccepted := by
  obtain ⟨evs', n, hbag, hrel⟩ := Router.exists_bag_run _ b b' (hrun.mono Router.deployOk_of_anyStep)
  have hinv : Transfers s chunks n :=
    hbag.invariant (fun _ _ _ h _ hstep => h.step hstep) (transfers_start s chunks mem)
  have hle := hinv.receiver.accepted_le
  have hsent := hinv.sender.sent_le
  have hrec := hinv.receiver.recTempSeq
  have hpassed := hinv.sender.passed_le
  rw [← hrel.node]
  refine ⟨?_, hinv.sender.passed, by omega, hle.trans hpassed, hinv.receiver.app_eq⟩
  exact List.prefix_of_prefix_length_le hinv.receiver.accepted hinv.sender.passed hle

/-- The first half is delayed, and the second one overtakes it: `udprecv` refuses both, and `udpsend` sends them
again. -/
def overtakenHalf : List (DeployEvent Act Junk Unit) :=
  [.act .client .run, .act .server .run, .reach .client (), .reach .client (), .cycle true false .succeed,
    .cycle false false .succeed, .deliver .server ⟨[], []⟩, .deliver .server ⟨[], []⟩,
    .act .client .timeout, .act .server .run, .reach .client (), .reach .client (),
    .cycle false false .succeed, .cycle false false .succeed, .deliver .server ⟨[], []⟩,
    .deliver .server ⟨[], []⟩]

theorem chunks_behind_router_overtaken :
    ∃ D : Deployment (Endpoint Transfer) Datagram Unit,
      (D.node .server).hist.chunksAccepted <+: (D.node .client).hist.chunks ∧
        (D.node .server).hist.chunksAccepted = [.ofBytes [1]] := by
  have hex : ∃ D, Run (deployStep (machine transferApp) parcelBytes) anyStep
      (deployed (transferStart .client [.ofBytes [1]] fun _ => zeroMembers).node Router.zeroBuffer
        Router.zeroBuffer) overtakenHalf D ∧
      (D.node .server).hist.chunksAccepted = [.ofBytes [1]] :=
    exists_run_of_exec_any (by decide +kernel)
  obtain ⟨D, hrun, haccepted⟩ := hex
  exact ⟨D, (chunks_behind_router .client _ _ _ _ hrun).1, haccepted⟩

end Assign3

end FileTransfer
