import FileTransfer.Lib.Network
import FileTransfer.Router.BoundedDelay

/-!
# The two programs with the router between them

The networks of the library connect two machines directly.  Here each machine sends its datagrams as bytes to
the router, over a link that keeps their order, and the router sends what it forwards over another one.  The
bytes depend on the datagram and on what lies in the padding of the structure that is sent.
`deployment_in_bag` says that the two machines see nothing that the network `bagStep` does not show them,
whatever the router decides and whichever of its socket calls fail; `deployment_in_fifo` that without delays they
see the queue `fifoStep`, which loses something only where the router or a link does.
-/

namespace FileTransfer
namespace Router

/-! ## What one pass does, whichever calls fail -/

/-- Every packet that is delayed or was sent is one that was received. -/
structure Genuine (s : State) : Prop where
  delayed : s.fileBuf.empty = false → s.Holds s.fileBuf
  sent : ∀ dst, ∀ p ∈ s.sent dst, (s.received dst)[p.1]? = some p.2

variable {s : State}

theorem Genuine.sendto (h : Genuine s) {ev : EventList} (hev : s.Holds ev) : Genuine (s.sendto ev) :=
  ⟨h.delayed, fun dst => bytes_sendto hev (h.sent dst)⟩

theorem Genuine.sendProc (h : Genuine s) (hfull : s.fileBuf.empty = false) (ok : Bool) :
    Genuine (s.sendProc ok) := by
  refine ⟨by simp [State.sendProc], ?_⟩
  unfold State.sendProc
  cases ok with
  | true => exact (h.sendto (h.delayed hfull)).sent
  | false => exact h.sent

theorem Genuine.dispatch (h : Genuine s) (htemp : s.Holds s.temp) (delayed damaged : Bool)
    (calls : Calls) : Genuine (s.dispatch delayed damaged calls) := by
  unfold State.dispatch State.forward
  dsimp only
  split_ifs with hdelay hdamaged hcall hflush
  · exact ⟨fun _ => htemp, h.sent⟩
  · exact ⟨h.delayed, h.sent⟩
  · have hfull : s.fileBuf.empty = false := by
      simpa [State.sendto] using (Bool.and_eq_true_iff.1 hflush).1
    have hgenuine : Genuine { s.sendto s.temp with waitCount := 0 } :=
      ⟨(h.sendto htemp).delayed, (h.sendto htemp).sent⟩
    exact hgenuine.sendProc hfull calls.sendProc
  · exact h.sendto htemp
  · exact h

theorem Genuine.receive (h : Genuine s) (source : Peer) {packet : List Byte}
    (hfits : packet.length ≤ maxBufSize) :
    Genuine (s.receive source packet) ∧ (s.receive source packet).Holds (s.receive source packet).temp := by
  have hgrows : ∀ dst, s.received dst <+: (s.receive source packet).received dst := by
    intro dst
    by_cases hdst : dst = source.other
    · subst hdst
      simp [State.receive]
    · simp [State.receive, Function.update_of_ne hdst]
  refine ⟨⟨fun hfull => holds_of_getElem? (h.delayed hfull) (hgrows _), ?_⟩, ?_⟩
  · intro dst p hp
    obtain ⟨rest, hrest⟩ := hgrows dst
    have hold := h.sent dst p hp
    rw [← hrest, List.getElem?_append_left (List.getElem?_eq_some_iff.1 hold).1]
    exact hold
  · simp only [State.Holds, EventList.packet, State.receive, Function.update_self,
      Buffer.take_overlay _ hfits]
    simp

/-- A pass takes nothing from the sockets, or the oldest packet of one of them. -/
inductive Pass (delayed damaged : Bool) (calls : Calls) (s : State) : State → Prop where
  | stays : Pass delayed damaged calls s s
  | idle : Pass delayed damaged calls s (s.idle calls)
  | incoming {source : Peer} {packet : List Byte} {rest : List (List Byte)} :
      s.sock source = packet :: rest →
      Pass delayed damaged calls s (s.incoming source packet delayed damaged calls)

theorem pass_cycle (s : State) (delayed damaged : Bool) (calls : Calls) :
    Pass delayed damaged calls s (s.cycle delayed damaged calls) := by
  unfold State.cycle
  split
  · split
    · rename_i hsock
      exact .incoming hsock
    · rename_i hsock
      exact .incoming hsock
    · exact .idle
  · exact .stays

/-- The state in which `recvfrom` is called. -/
def State.called (s : State) (source : Peer) : State :=
  { s with
    waitCount := if s.fileBuf.empty then s.waitCount else s.waitCount + 1
    sock := Function.update s.sock source (s.sock source).tail }

theorem incoming_eq (s : State) (source : Peer) (packet : List Byte) (delayed damaged : Bool)
    (calls : Calls) : s.incoming source packet delayed damaged calls =
      if calls.recvfrom && packet.length ≤ maxBufSize then
        ((s.called source).receive source packet).dispatch delayed damaged calls
      else { s.called source with
        temp := { s.temp with buffer := s.temp.buffer.overlay packet } } :=
  rfl

theorem Genuine.cycle (h : Genuine s) (delayed damaged : Bool) (calls : Calls) :
    Genuine (s.cycle delayed damaged calls) := by
  have hpass := pass_cycle s delayed damaged calls
  generalize s.cycle delayed damaged calls = t at hpass ⊢
  cases hpass with
  | stays => exact h
  | idle =>
      unfold State.idle
      dsimp only
      split_ifs with hempty hlast
      · exact h
      · have hgenuine : Genuine { s with waitCount := s.waitCount + 1 } := ⟨h.delayed, h.sent⟩
        have hout := hgenuine.sendProc (by simpa using hempty) calls.sendProc
        exact ⟨hout.delayed, hout.sent⟩
      · exact ⟨h.delayed, h.sent⟩
  | @incoming source packet rest _ =>
      have hgenuine : Genuine (s.called source) := ⟨h.delayed, h.sent⟩
      rw [incoming_eq]
      split
      · rename_i hcall
        have hfits : packet.length ≤ maxBufSize := of_decide_eq_true (Bool.and_eq_true_iff.1 hcall).2
        obtain ⟨hreceive, htemp⟩ := hgenuine.receive source hfits
        exact hreceive.dispatch htemp delayed damaged calls
      · exact ⟨hgenuine.delayed, hgenuine.sent⟩

/-! ### The sockets -/

/-- What a pass does to the packets of one peer: nothing, or it takes the oldest one, and has received it or
not. -/
inductive Takes (s t : State) (source : Peer) : Prop where
  | none : t.sock source = s.sock source → t.received source.other = s.received source.other →
      Takes s t source
  | failed {packet : List Byte} : s.sock source = packet :: t.sock source →
      t.received source.other = s.received source.other → Takes s t source
  | received {packet : List Byte} : s.sock source = packet :: t.sock source →
      t.received source.other = s.received source.other ++ [packet] → Takes s t source

section Takes

variable {t : State} {source : Peer} {δ : Type*} {enc : δ → List Byte} {w l : List δ}

theorem Takes.received_grows (h : Takes s t source) :
    s.received source.other <+: t.received source.other := by
  cases h with
  | none _ h | failed _ h => exact h ▸ List.prefix_rfl
  | received _ h => exact h ▸ List.prefix_append _ _

/-- A history of the datagrams at the socket goes on with it. -/
theorem Takes.waiting (h : Takes s t source) (hw : s.sock source = w.map enc) :
    t.sock source = (w.drop ((s.sock source).length - (t.sock source).length)).map enc := by
  cases h with
  | none hsock _ => rw [hsock, Nat.sub_self, List.drop_zero, hw]
  | failed hsock _ | received hsock _ =>
      rw [List.map_drop, ← hw, hsock, List.length_cons, Nat.add_sub_cancel_left]
      rfl

theorem Takes.taken (h : Takes s t source) (hw : s.sock source = w.map enc)
    (hl : s.received source.other = l.map enc) :
    t.received source.other =
      (l ++ w.take ((t.received source.other).length - (s.received source.other).length)).map enc := by
  cases h with
  | none _ h | failed _ h => rw [h, Nat.sub_self, List.take_zero, List.append_nil, hl]
  | received hsock h =>
      rw [h, List.length_append, Nat.add_sub_cancel_left, List.map_append, List.map_take, ← hw, hsock,
        ← hl]
      rfl

end Takes

theorem takes_cycle (s : State) (delayed damaged : Bool) (calls : Calls) (source : Peer) :
    Takes s (s.cycle delayed damaged calls) source := by
  have hpass := pass_cycle s delayed damaged calls
  generalize s.cycle delayed damaged calls = t at hpass ⊢
  cases hpass with
  | stays => exact .none rfl rfl
  | idle =>
      obtain ⟨hreceived, hsock⟩ := idle_frame s calls
      exact .none (by rw [hsock]) (by rw [hreceived])
  | @incoming source' packet rest hsource =>
      rw [incoming_eq]
      split
      · -- what is decided on the packet does not touch the sockets
        obtain ⟨hreceived, hsock⟩ := dispatch_frame ((s.called source').receive source' packet) delayed
          damaged calls
        by_cases hsame : source = source'
        · subst hsame
          apply Takes.received
          · show s.sock source = packet :: _
            rw [hsock]
            simp [State.called, State.receive, hsource]
          · rw [hreceived]
            simp [State.called, State.receive]
        · have hother : source.other ≠ source'.other := fun h => hsame (Peer.other_injective h)
          refine .none ?_ ?_
          · rw [hsock]
            simp [State.called, State.receive, Function.update_of_ne hsame]
          · rw [hreceived]
            simp [State.called, State.receive, Function.update_of_ne hother]
      · by_cases hsame : source = source'
        · subst hsame
          exact .failed (show _ = packet :: _ by simp [State.called, hsource]) rfl
        · exact .none (by simp [State.called, Function.update_of_ne hsame]) rfl

/-! ## Two machines and a router -/

/-- The host that a side runs on. -/
def host : Side → Peer
  | .client => .host1
  | .server => .host2

theorem host_peer (s : Side) : host s.peer = (host s).other := by
  cases s <;> rfl

theorem exists_host (source : Peer) : ∃ s, host s = source := by
  cases source with
  | host1 => exact ⟨.client, rfl⟩
  | host2 => exact ⟨.server, rfl⟩

/-- A datagram, with what lies in the padding of the structure that it is sent in. -/
structure Parcel (κ δ : Type*) where
  pad : κ
  datagram : δ

structure Deployment (σ δ κ : Type*) where
  node : Side → σ
  /-- what this side has sent, on its way to the router -/
  up : Side → List δ
  router : State
  /-- what the router has sent to this side, on its way -/
  down : Side → List (Nat × List Byte)
  /-- history: the datagrams of this side that wait at the router's socket, each with its padding -/
  waiting : Side → List (Parcel κ δ)
  /-- history: the datagrams of this side that the router has received -/
  taken : Side → List (Parcel κ δ)

inductive DeployEvent (ι ρ κ : Type*) where
  /-- party `s` takes a step of its own -/
  | act (s : Side) (i : ι)
  /-- the oldest datagram on its way from `s` arrives at the router; `pad` is in its padding -/
  | reach (s : Side) (pad : κ)
  /-- a pass of the router's loop -/
  | cycle (delayed damaged : Bool) (calls : Calls)
  /-- the oldest packet on its way to `s` arrives there -/
  | deliver (s : Side) (r : ρ)
  /-- the `k`-th oldest packet on the link from `s`, or on the one to it, is lost -/
  | loseUp (s : Side) (k : Nat)
  | loseDown (s : Side) (k : Nat)

namespace Deployment

variable {σ δ κ : Type*} (D : Deployment σ δ κ)

/-- Party `s` moves to the state `p.1` and sends the datagrams `p.2`. -/
def emit (s : Side) (p : σ × List δ) : Deployment σ δ κ :=
  { D with
    node := Function.update D.node s p.1
    up := Function.update D.up s (D.up s ++ p.2) }

/-- Replace what is on a link. -/
def setUp (s : Side) (w : List δ) : Deployment σ δ κ := { D with up := Function.update D.up s w }

def setDown (s : Side) (w : List (Nat × List Byte)) : Deployment σ δ κ :=
  { D with down := Function.update D.down s w }

/-- A datagram of this side is at the router's socket. -/
def arrive (enc : Parcel κ δ → List Byte) (s : Side) (c : Parcel κ δ) : Deployment σ δ κ :=
  { D with
    router := { D.router with
      sock := Function.update D.router.sock (host s) (D.router.sock (host s) ++ [enc c]) }
    waiting := Function.update D.waiting s (D.waiting s ++ [c]) }

/-- The router has gone on to `t`; what it has sent on the way is on the links. -/
def goOn (t : State) : Deployment σ δ κ :=
  { D with
    router := t
    down := fun s => D.down s ++ (t.sent (host s)).drop (D.router.sent (host s)).length
    waiting := fun s =>
      (D.waiting s).drop ((D.router.sock (host s)).length - (t.sock (host s)).length)
    taken := fun s => D.taken s ++ (D.waiting s).take
      ((t.received (host s.peer)).length - (D.router.received (host s.peer)).length) }

/-- The datagram that the router has received under this number for `s`. -/
def carried (s : Side) (p : Nat × List Byte) : Option (Parcel κ δ) := (D.taken s.peer)[p.1]?

end Deployment

/-- A machine reads a datagram off the bytes that arrive; `enc` are the bytes of a datagram. -/
def deployStep {σ ι ρ δ κ : Type*} (M : Machine σ ι ρ δ) (enc : Parcel κ δ → List Byte)
    (D : Deployment σ δ κ) : DeployEvent ι ρ κ → Option (Deployment σ δ κ)
  | .act s i => (M.act (D.node s) i).map (D.emit s)
  | .reach s pad =>
      match D.up s with
      | [] => none
      | d :: rest => some ((D.setUp s rest).arrive enc s ⟨pad, d⟩)
  | .cycle delayed damaged calls => some (D.goOn (D.router.cycle delayed damaged calls))
  | .deliver s r =>
      match D.down s with
      | [] => none
      | p :: rest =>
          match D.carried s p with
          | none => none
          | some c =>
              if enc c = p.2 then (M.recv (D.node s) r c.datagram).map ((D.setDown s rest).emit s) else none
  | .loseUp s k =>
      if k < (D.up s).length then some (D.setUp s ((D.up s).eraseIdx k)) else none
  | .loseDown s k =>
      if k < (D.down s).length then some (D.setDown s ((D.down s).eraseIdx k)) else none

/-- Nothing has been sent; the router begins `Run`. -/
def deployed {σ δ κ : Type*} (node : Side → σ) (b b' : Buffer) : Deployment σ δ κ where
  node := node
  up _ := []
  router := start b b'
  down _ := []
  waiting _ := []
  taken _ := []

section Steps

variable {σ ι ρ δ κ : Type*} {M : Machine σ ι ρ δ} {enc : Parcel κ δ → List Byte} {D D' : Deployment σ δ κ}
  {s : Side}

theorem deployStep_act {i : ι} : deployStep M enc D (.act s i) = some D' ↔
    ∃ p, M.act (D.node s) i = some p ∧ D' = D.emit s p := by
  simp only [deployStep, Option.map_eq_some_iff, eq_comm (a := D')]

theorem deployStep_reach {pad : κ} : deployStep M enc D (.reach s pad) = some D' ↔
    ∃ d rest, D.up s = d :: rest ∧ D' = (D.setUp s rest).arrive enc s ⟨pad, d⟩ := by
  cases hup : D.up s with
  | nil => simp [deployStep, hup]
  | cons d rest => simp [deployStep, hup, eq_comm (a := D')]

theorem deployStep_deliver {r : ρ} : deployStep M enc D (.deliver s r) = some D' ↔
    ∃ p rest c q, D.down s = p :: rest ∧ D.carried s p = some c ∧ enc c = p.2 ∧
      M.recv (D.node s) r c.datagram = some q ∧ D' = (D.setDown s rest).emit s q := by
  cases hdown : D.down s with
  | nil => simp [deployStep, hdown]
  | cons p rest =>
      cases hc : D.carried s p with
      | none => simp [deployStep, hdown, hc]
      | some c =>
          by_cases henc : enc c = p.2
          · simp [deployStep, hdown, hc, henc, eq_comm (a := D')]
          · simp [deployStep, hdown, hc, henc]

theorem deployStep_loseUp {k : Nat} : deployStep M enc D (.loseUp s k) = some D' ↔
    k < (D.up s).length ∧ D' = D.setUp s ((D.up s).eraseIdx k) := by
  simp [deployStep, eq_comm]

theorem deployStep_loseDown {k : Nat} : deployStep M enc D (.loseDown s k) = some D' ↔
    k < (D.down s).length ∧ D' = D.setDown s ((D.down s).eraseIdx k) := by
  simp [deployStep, eq_comm]

end Steps

/-! ## The bytes -/

section Bytes

variable {σ ι ρ δ κ : Type*} {M : Machine σ ι ρ δ} {enc : Parcel κ δ → List Byte} {D D' : Deployment σ δ κ}
  {s : Side}

/-- The router's bytes are those of the datagrams that the history names. -/
structure Faithful (enc : Parcel κ δ → List Byte) (D : Deployment σ δ κ) : Prop where
  genuine : Genuine D.router
  waiting : ∀ s, D.router.sock (host s) = (D.waiting s).map enc
  taken : ∀ s, D.router.received (host s.peer) = (D.taken s).map enc
  down : ∀ s, ∀ p ∈ D.down s, (D.router.received (host s))[p.1]? = some p.2

/-- What arrives at a host are the bytes of a datagram that the other end has sent. -/
theorem Faithful.carried (h : Faithful enc D) {p : Nat × List Byte} (hp : p ∈ D.down s) :
    ∃ c, D.carried s p = some c ∧ enc c = p.2 := by
  have hdown := h.down s p hp
  have htaken := h.taken s.peer
  rw [Side.peer_peer] at htaken
  rw [htaken, List.getElem?_map] at hdown
  obtain ⟨d, hd, henc⟩ := Option.map_eq_some_iff.1 hdown
  exact ⟨d, hd, henc⟩

theorem faithful_deployed (node : Side → σ) (b b' : Buffer) :
    Faithful enc (deployed node b b' : Deployment σ δ κ) where
  genuine := ⟨fun h => absurd h Bool.noConfusion, fun _ _ hp => absurd hp List.not_mem_nil⟩
  waiting _ := rfl
  taken _ := rfl
  down _ _ hp := absurd hp List.not_mem_nil

theorem Faithful.cycle (h : Faithful enc D) (delayed damaged : Bool) (calls : Calls) :
    Faithful enc (D.goOn (D.router.cycle delayed damaged calls)) := by
  set t := D.router.cycle delayed damaged calls
  have htakes : ∀ s, Takes D.router t (host s) := fun s => takes_cycle _ _ _ _ _
  refine ⟨h.genuine.cycle _ _ _, ?_, ?_, ?_⟩
  · intro s
    exact (htakes s).waiting (h.waiting s)
  · intro s
    have htaken := h.taken s
    change t.received (host s.peer) = (D.taken s ++ (D.waiting s).take
      ((t.received (host s.peer)).length - (D.router.received (host s.peer)).length)).map enc
    rw [host_peer] at htaken ⊢
    exact (htakes s).taken (h.waiting s) htaken
  · intro s p hp
    rcases List.mem_append.1 hp with hp | hp
    · have hold := h.down s p hp
      obtain ⟨rest, hrest⟩ := (htakes s.peer).received_grows
      have hdst : (host s.peer).other = host s := by cases s <;> rfl
      rw [hdst] at hrest
      change (t.received (host s))[p.1]? = some p.2
      rw [← hrest, List.getElem?_append_left (List.getElem?_eq_some_iff.1 hold).1]
      exact hold
    · exact (h.genuine.cycle _ _ _).sent _ p (List.mem_of_mem_drop hp)

theorem Faithful.step {ev : DeployEvent ι ρ κ} (h : Faithful enc D)
    (hstep : deployStep M enc D ev = some D') : Faithful enc D' := by
  cases ev with
  | act s i =>
      obtain ⟨p, -, rfl⟩ := deployStep_act.1 hstep
      exact ⟨h.genuine, h.waiting, h.taken, h.down⟩
  | reach s pad =>
      obtain ⟨d, rest, hup, rfl⟩ := deployStep_reach.1 hstep
      refine ⟨⟨h.genuine.delayed, h.genuine.sent⟩, ?_, h.taken, h.down⟩
      intro t
      rcases Side.eq_or_eq_peer s t with rfl | rfl
      · simp [Deployment.arrive, Deployment.setUp, h.waiting t]
      · have hother : host s.peer ≠ host s := by cases s <;> decide
        simp [Deployment.arrive, Deployment.setUp, Function.update_of_ne hother, h.waiting s.peer]
  | cycle delayed damaged calls =>
      cases hstep
      exact h.cycle delayed damaged calls
  | deliver s r =>
      obtain ⟨p, rest, d, q, hdown, -, -, -, rfl⟩ := deployStep_deliver.1 hstep
      refine ⟨h.genuine, h.waiting, h.taken, fun t p hp => h.down t p ?_⟩
      rcases Side.eq_or_eq_peer s t with rfl | rfl
      · rw [hdown]
        exact List.mem_cons_of_mem _ (by simpa [Deployment.emit, Deployment.setDown] using hp)
      · simpa [Deployment.emit, Deployment.setDown] using hp
  | loseUp s k =>
      obtain ⟨-, rfl⟩ := deployStep_loseUp.1 hstep
      exact ⟨h.genuine, h.waiting, h.taken, h.down⟩
  | loseDown s k =>
      obtain ⟨-, rfl⟩ := deployStep_loseDown.1 hstep
      refine ⟨h.genuine, h.waiting, h.taken, fun t p hp => h.down t p ?_⟩
      rcases Side.eq_or_eq_peer s t with rfl | rfl
      · exact List.mem_of_mem_eraseIdx (by simpa [Deployment.setDown] using hp)
      · simpa [Deployment.setDown] using hp

theorem faithful_run {ok : Deployment σ δ κ → DeployEvent ι ρ κ → Prop} {node : Side → σ} {b b' : Buffer}
    {evs : List (DeployEvent ι ρ κ)} (hrun : Run (deployStep M enc) ok (deployed node b b') evs D) :
    Faithful enc D :=
  hrun.invariant (fun _ _ _ h _ hstep => h.step hstep) (faithful_deployed node b b')

end Bytes

/-! ## What the machines see -/

section Bag

variable {σ ι ρ δ κ : Type*} {M : Machine σ ι ρ δ} {enc : Parcel κ δ → List Byte} {D D' : Deployment σ δ κ}
  {s : Side}
  {n : Net σ δ} (ok : (Side → σ) → Side → ι → Prop)

/-- A condition on the steps that the two machines take on their own. -/
def DeployOk (D : Deployment σ δ κ) : DeployEvent ι ρ κ → Prop
  | .act s i => ok D.node s i
  | _ => True

theorem deployOk_of_anyStep (D : Deployment σ δ κ) (ev : DeployEvent ι ρ κ) (_ : anyStep D ev) :
    DeployOk (fun _ _ _ => True) D ev := by
  cases ev <;> trivial

def BagOk (n : Net σ δ) : BagEvent ι ρ → Prop
  | .act s i => ok n.node s i
  | .deliver _ _ _ => True

/-- The network has the same machines, and everything that is with the router or before it. -/
structure InBag (D : Deployment σ δ κ) (n : Net σ δ) : Prop where
  node : n.node = D.node
  up : ∀ s, D.up s ⊆ n.wire s
  waiting : ∀ s, ∀ c ∈ D.waiting s, c.datagram ∈ n.wire s
  taken : ∀ s, ∀ c ∈ D.taken s, c.datagram ∈ n.wire s

variable {ok}

theorem InBag.emit (h : InBag D n) (p : σ × List δ) : InBag (D.emit s p) (n.emit s p) := by
  have hgrows : ∀ t, n.wire t ⊆ (n.emit s p).wire t := by
    intro t
    rcases Side.eq_or_eq_peer s t with rfl | rfl
    · rw [Net.emit_wire_self]
      exact List.subset_append_left _ _
    · rw [Net.emit_wire_peer]
      exact List.Subset.refl _
  refine ⟨?_, fun t => ?_, fun t c hc => hgrows t (h.waiting t c hc),
    fun t c hc => hgrows t (h.taken t c hc)⟩
  · simp only [Net.emit, Deployment.emit, h.node]
  · rcases Side.eq_or_eq_peer s t with rfl | rfl
    · have hup : (D.emit t p).up t = D.up t ++ p.2 := by simp [Deployment.emit]
      rw [Net.emit_wire_self, hup]
      exact List.append_subset.2 ⟨List.Subset.trans (h.up t) (List.subset_append_left _ _),
        List.subset_append_right _ _⟩
    · simpa [Deployment.emit] using h.up s.peer

theorem InBag.step {ev : DeployEvent ι ρ κ} (h : InBag D n) (hok : DeployOk ok D ev)
    (hstep : deployStep M enc D ev = some D') :
    ∃ evs n', Run (bagStep M) (BagOk ok) n evs n' ∧ InBag D' n' := by
  have hstays : ∀ {D' : Deployment σ δ κ}, InBag D' n → ∃ evs n', Run (bagStep M) (BagOk ok) n evs n' ∧ InBag D' n' :=
    fun h' => ⟨[], n, .nil, h'⟩
  cases ev with
  | act s i =>
      obtain ⟨p, hact, rfl⟩ := deployStep_act.1 hstep
      have hbag : bagStep M n (.act s i) = some (n.emit s p) :=
        bagStep_act.2 ⟨p, by rwa [h.node], rfl⟩
      exact ⟨[.act s i], _, .cons (by rwa [BagOk, h.node]) hbag .nil, h.emit p⟩
  | deliver s r =>
      obtain ⟨p, rest, c, q, -, hc, -, hrecv, rfl⟩ := deployStep_deliver.1 hstep
      obtain ⟨k, hk⟩ := List.getElem?_of_mem (h.taken s.peer c (List.mem_of_getElem? hc))
      have hbag : bagStep M n (.deliver s k r) = some (n.emit s q) :=
        bagStep_deliver.2 ⟨c.datagram, q, hk, by rwa [h.node], rfl⟩
      have hdown : InBag (D.setDown s rest) n := ⟨h.node, h.up, h.waiting, h.taken⟩
      exact ⟨[.deliver s k r], _, .cons trivial hbag .nil, hdown.emit q⟩
  | reach s pad =>
      obtain ⟨d, rest, hup, rfl⟩ := deployStep_reach.1 hstep
      refine hstays ⟨h.node, fun t => ?_, fun t => ?_, h.taken⟩
      · rcases Side.eq_or_eq_peer s t with rfl | rfl
        · have hsub := h.up t
          rw [hup] at hsub
          simpa [Deployment.arrive, Deployment.setUp] using List.Subset.trans (List.subset_cons_self d rest) hsub
        · simpa [Deployment.arrive, Deployment.setUp] using h.up s.peer
      · rcases Side.eq_or_eq_peer s t with rfl | rfl
        · have hd : d ∈ n.wire t := h.up t (hup ▸ List.mem_cons_self)
          intro c hc
          have hc' : c ∈ D.waiting t ++ [⟨pad, d⟩] := by
            simpa [Deployment.arrive, Deployment.setUp] using hc
          rcases List.mem_append.1 hc' with hold | hnew
          · exact h.waiting t c hold
          · rwa [List.mem_singleton.1 hnew]
        · simpa [Deployment.arrive, Deployment.setUp] using h.waiting s.peer
  | cycle delayed damaged calls =>
      cases hstep
      refine hstays ⟨h.node, h.up, fun t c hc => h.waiting t c (List.mem_of_mem_drop hc), fun t c hc => ?_⟩
      rcases List.mem_append.1 hc with hold | hnew
      · exact h.taken t c hold
      · exact h.waiting t c (List.mem_of_mem_take hnew)
  | loseUp s k =>
      obtain ⟨-, rfl⟩ := deployStep_loseUp.1 hstep
      refine hstays ⟨h.node, fun t => ?_, h.waiting, h.taken⟩
      rcases Side.eq_or_eq_peer s t with rfl | rfl
      · simpa [Deployment.setUp] using List.Subset.trans List.eraseIdx_subset (h.up t)
      · simpa [Deployment.setUp] using h.up s.peer
  | loseDown s k =>
      obtain ⟨-, rfl⟩ := deployStep_loseDown.1 hstep
      exact hstays ⟨h.node, h.up, h.waiting, h.taken⟩

/-- The state of a network in which nothing has been sent. -/
def bagOf (node : Side → σ) : Net σ δ := ⟨node, fun _ => []⟩

/-- A run of the deployment, with a run of the network beside it. -/
theorem exists_bag_run (node : Side → σ) (b b' : Buffer) {evs : List (DeployEvent ι ρ κ)}
    (hrun : Run (deployStep M enc) (DeployOk ok) (deployed node b b') evs D) :
    ∃ evs' n, Run (bagStep M) (BagOk ok) (bagOf node) evs' n ∧ InBag D n := by
  have hstart : InBag (deployed node b b' : Deployment σ δ κ) (bagOf node) :=
    ⟨rfl, fun _ => List.nil_subset _, fun _ _ hc => absurd hc List.not_mem_nil,
      fun _ _ hc => absurd hc List.not_mem_nil⟩
  have hsim : ∀ (D : Deployment σ δ κ) (ev : DeployEvent ι ρ κ) (D' : Deployment σ δ κ) (n : Net σ δ),
      InBag D n → DeployOk ok D ev → deployStep M enc D ev = some D' →
      ∃ evs n', Run (bagStep M) (BagOk ok) n evs n' ∧ InBag D' n' :=
    fun _ _ _ _ h hok hstep => h.step hok hstep
  exact Run.simulate hsim hstart hrun

/-- Whatever the router decides and whichever of its calls fail: the two machines are where a run of the network
that duplicates, delays, reorders and loses would have brought them, and what comes out of a link are the bytes
of a datagram that the other machine has sent. -/
theorem deployment_in_bag (node : Side → σ) (b b' : Buffer) {evs : List (DeployEvent ι ρ κ)}
    (hrun : Run (deployStep M enc) (DeployOk ok) (deployed node b b') evs D) :
    ∃ evs' n, Run (bagStep M) (BagOk ok) (bagOf node) evs' n ∧ n.node = D.node ∧
      ∀ s, ∀ p ∈ D.down s, ∃ c, c.datagram ∈ n.wire s.peer ∧ D.carried s p = some c ∧ enc c = p.2 := by
  obtain ⟨evs', n, hbag, hrel⟩ := exists_bag_run node b b' hrun
  refine ⟨evs', n, hbag, hrel.node, fun s p hp => ?_⟩
  obtain ⟨c, hc, henc⟩ := (faithful_run hrun).carried hp
  exact ⟨c, hrel.taken s.peer c (List.mem_of_getElem? hc), hc, henc⟩

end Bag

/-- A machine that sends the bytes it is told to, and keeps those that it gets. -/
def chatter : Machine (List Byte) Byte Unit Byte where
  act got b := some (got, [b])
  recv got _ b := some (got ++ [b], [])

def chatterBytes (c : Parcel Unit Byte) : List Byte := [c.datagram]

/-- The first byte is delayed, and the second one overtakes it. -/
def overtakenEvents : List (DeployEvent Byte Unit Unit) :=
  [.act .client 1, .act .client 2, .reach .client (), .reach .client (), .cycle true false .succeed,
    .cycle true false .succeed, .deliver .server ()]

theorem deployment_in_bag_overtaken :
    ∃ evs' n, Run (bagStep chatter) (BagOk fun _ _ _ => True) (bagOf fun _ => []) evs' n ∧
      n.node .server = [2] := by
  have hex : ∃ D, Run (deployStep chatter chatterBytes) anyStep
      (deployed (fun _ => []) zeroBuffer zeroBuffer) overtakenEvents D ∧
        D.node .server = [2] ∧ D.down .server = [(0, [1])] :=
    exists_run_of_exec_any (by decide +kernel)
  obtain ⟨D, hrun, hnode, -⟩ := hex
  obtain ⟨evs', n, hbag, hsame, -⟩ := deployment_in_bag _ _ _ (hrun.mono deployOk_of_anyStep)
  exact ⟨evs', n, hbag, by rw [hsame, hnode]⟩

/-! ## Without delays -/

/-- What a pass without a delay does when nothing is delayed: nothing, or it takes the oldest packet of one peer,
and forwards it or loses it. -/
inductive Forwards (lossy : Prop) (s t : State) : Prop where
  | none : t.sock = s.sock → t.received = s.received → t.sent = s.sent → Forwards lossy s t
  | lost {source : Peer} {packet : List Byte} {rest : List (List Byte)} : lossy →
      s.sock source = packet :: rest → t.sock = Function.update s.sock source rest →
      (t.received = s.received ∨ t.received =
        Function.update s.received source.other (s.received source.other ++ [packet])) →
      t.sent = s.sent → Forwards lossy s t
  | forwarded {source : Peer} {packet : List Byte} {rest : List (List Byte)} :
      s.sock source = packet :: rest → t.sock = Function.update s.sock source rest →
      t.received = Function.update s.received source.other (s.received source.other ++ [packet]) →
      t.sent = Function.update s.sent source.other
        (s.sent source.other ++ [((s.received source.other).length, packet)]) → Forwards lossy s t

theorem dispatch_forwards (calls : Calls) (damaged : Bool) (hempty : s.fileBuf.empty = true) :
    (s.dispatch false damaged calls).fileBuf.empty = true ∧
      ((s.dispatch false damaged calls).sent = s.sent ∨
        (s.dispatch false damaged calls).sent = (s.sendto s.temp).sent) ∧
      (damaged = false → calls = .succeed →
        (s.dispatch false damaged calls).sent = (s.sendto s.temp).sent) := by
  unfold State.dispatch State.forward
  dsimp only
  split_ifs with hdelay hdamaged hcall hflush
  · simp at hdelay
  · exact ⟨hempty, .inl rfl, fun h => absurd hdamaged (by simp [h])⟩
  · exact absurd hflush (by simp [State.sendto, hempty])
  · exact ⟨hempty, .inr rfl, fun _ _ => rfl⟩
  · exact ⟨hempty, .inl rfl, fun _ h => absurd (h ▸ rfl) hcall⟩

theorem cycle_forwards {calls : Calls} {damaged : Bool} {lossy : Prop}
    (hempty : s.fileBuf.empty = true) (hkeeps : lossy ∨ damaged = false ∧ calls = .succeed)
    (hfits : ∀ source, ∀ packet ∈ s.sock source, packet.length ≤ maxBufSize) :
    (s.cycle false damaged calls).fileBuf.empty = true ∧
      Forwards lossy s (s.cycle false damaged calls) := by
  have hpass := pass_cycle s false damaged calls
  generalize s.cycle false damaged calls = t at hpass ⊢
  cases hpass with
  | stays => exact ⟨hempty, .none rfl rfl rfl⟩
  | idle =>
      have hidle : s.idle calls = s := if_pos hempty
      rw [hidle]
      exact ⟨hempty, .none rfl rfl rfl⟩
  | @incoming source packet rest hsource =>
      have hsock : (s.called source).sock = Function.update s.sock source rest := by
        simp [State.called, hsource]
      rw [incoming_eq]
      split
      · rename_i hcall
        have hfits : packet.length ≤ maxBufSize := of_decide_eq_true (Bool.and_eq_true_iff.1 hcall).2
        set u := (s.called source).receive source packet with hu
        have hsent : (u.sendto u.temp).sent = Function.update s.sent source.other
            (s.sent source.other ++ [((s.received source.other).length, packet)]) := by
          simp [hu, State.sendto, State.receive, State.called, EventList.packet,
            Buffer.take_overlay _ hfits]
        obtain ⟨hreceived, hsock'⟩ := dispatch_frame u false damaged calls
        have hsock'' : (u.dispatch false damaged calls).sock = Function.update s.sock source rest :=
          hsock'.trans hsock
        obtain ⟨hempty', hsent', hkept⟩ := dispatch_forwards calls damaged
          (show u.fileBuf.empty = true from hempty)
        refine ⟨hempty', ?_⟩
        rcases hsent' with hlost | hforward
        · rcases hkeeps with hlossy | ⟨hdamaged, hcalls⟩
          · exact .lost hlossy hsource hsock'' (.inr hreceived) hlost
          · exact .forwarded hsource hsock'' hreceived ((hkept hdamaged hcalls).trans hsent)
        · exact .forwarded hsource hsock'' hreceived (hforward.trans hsent)
      · rename_i hcall
        refine ⟨hempty, ?_⟩
        rcases hkeeps with hlossy | ⟨-, rfl⟩
        · exact .lost hlossy hsource hsock (.inl rfl) rfl
        · exact absurd (Bool.and_eq_true_iff.2
            ⟨rfl, decide_eq_true (hfits source packet (hsource ▸ List.mem_cons_self))⟩) hcall

theorem filterMap_eraseIdx {α β : Type*} {f : α → Option β} {l : List α} (hl : ∀ x ∈ l, ∃ y, f x = some y)
    (k : Nat) : (l.eraseIdx k).filterMap f = (l.filterMap f).eraseIdx k := by
  induction l generalizing k with
  | nil => rfl
  | cons x l ih =>
      obtain ⟨y, hy⟩ := hl x List.mem_cons_self
      cases k with
      | zero => simp [hy]
      | succ k => simp [hy, ih (fun x' hx => hl x' (List.mem_cons_of_mem _ hx)) k]

theorem length_filterMap_eq {α β : Type*} {f : α → Option β} {l : List α}
    (hl : ∀ x ∈ l, ∃ y, f x = some y) : (l.filterMap f).length = l.length := by
  induction l with
  | nil => rfl
  | cons x l ih =>
      obtain ⟨y, hy⟩ := hl x List.mem_cons_self
      simp [hy, ih fun x' hx => hl x' (List.mem_cons_of_mem _ hx)]

section Fifo

variable {σ ι ρ δ κ : Type*} {M : Machine σ ι ρ δ} {enc : Parcel κ δ → List Byte} {D D' : Deployment σ δ κ}
  {s : Side} {ok : Net σ δ → FifoEvent ι ρ → Prop}

namespace Deployment

/-- What the router has sent of the datagrams of this side, and what is at its socket. -/
def parcels (D : Deployment σ δ κ) (s : Side) : List (Parcel κ δ) :=
  (D.down s.peer).filterMap (D.carried s.peer) ++ D.waiting s

/-- All that is on the way from this side. -/
def queue (D : Deployment σ δ κ) (s : Side) : List δ := (D.parcels s).map Parcel.datagram ++ D.up s

/-- The datagram that this packet brings to `s`. -/
def brings (D : Deployment σ δ κ) (s : Side) (p : Nat × List Byte) : Option δ :=
  (D.carried s p).map Parcel.datagram

/-- The machines with all that is on the way between them. -/
def net (D : Deployment σ δ κ) : Net σ δ := ⟨D.node, D.queue⟩

end Deployment

/-- The router delays nothing.  Where the queue may not lose, it drops nothing, its calls succeed, and the links
lose nothing. -/
def FifoDeployOk (ok : Net σ δ → FifoEvent ι ρ → Prop) (D : Deployment σ δ κ) : DeployEvent ι ρ κ → Prop
  | .act s i => ok D.net (.act s i)
  | .deliver s r => ok D.net (.deliver s r)
  | .reach _ _ => True
  | .cycle delayed damaged calls =>
      delayed = false ∧ ((∀ s k, ok D.net (.lose s k)) ∨ damaged = false ∧ calls = .succeed)
  | .loseUp _ _ | .loseDown _ _ => ∀ s k, ok D.net (.lose s k)

/-- The same where the queue may always lose or never, as a test decides it. -/
def Undelayed (lossy : Bool) (ok : Net σ δ → FifoEvent ι ρ → Prop) (D : Deployment σ δ κ) :
    DeployEvent ι ρ κ → Prop
  | .act s i => ok D.net (.act s i)
  | .deliver s r => ok D.net (.deliver s r)
  | .reach _ _ => True
  | .cycle delayed damaged calls =>
      delayed = false ∧ (lossy = true ∨ damaged = false ∧ calls = .succeed)
  | .loseUp _ _ | .loseDown _ _ => lossy = true

instance (lossy : Bool) (ok : Net σ δ → FifoEvent ι ρ → Prop) [∀ n, DecidablePred (ok n)]
    (D : Deployment σ δ κ) : DecidablePred (Undelayed lossy ok D)
  | .act s i => inferInstanceAs (Decidable (ok D.net (.act s i)))
  | .deliver s r => inferInstanceAs (Decidable (ok D.net (.deliver s r)))
  | .reach _ _ => inferInstanceAs (Decidable True)
  | .cycle _ _ _ => inferInstanceAs (Decidable (_ ∧ _))
  | .loseUp _ _ | .loseDown _ _ => inferInstanceAs (Decidable (_ = _))

theorem fifoDeployOk_of_undelayed {lossy : Bool} (hlossy : lossy = true → ∀ n s k, ok n (.lose s k))
    (D : Deployment σ δ κ) (ev : DeployEvent ι ρ κ) (h : Undelayed lossy ok D ev) :
    FifoDeployOk ok D ev := by
  cases ev with
  | act | deliver | reach => exact h
  | cycle => exact ⟨h.1, h.2.imp_left fun hlose => hlossy hlose D.net⟩
  | loseUp | loseDown => exact hlossy h D.net

theorem Faithful.carries (h : Faithful enc D) (s : Side) :
    ∀ p ∈ D.down s, ∃ c, D.carried s p = some c := by
  intro p hp
  obtain ⟨c, hc, -⟩ := h.carried hp
  exact ⟨c, hc⟩

theorem net_emit (D : Deployment σ δ κ) (s : Side) (p : σ × List δ) :
    (D.emit s p).net = D.net.emit s p := by
  refine Net.ext rfl (funext fun t => ?_)
  rcases Side.eq_or_eq_peer s t with rfl | rfl
  · rw [Net.emit_wire_self]
    simp [Deployment.net, Deployment.queue, Deployment.emit]
    rfl
  · rw [Net.emit_wire_peer]
    simp [Deployment.net, Deployment.queue, Deployment.emit]
    rfl

theorem carried_goOn (h : Faithful enc D) (t : State) {p : Nat × List Byte} (hp : p ∈ D.down s) :
    (D.goOn t).carried s p = D.carried s p := by
  obtain ⟨c, hc⟩ := h.carries s p hp
  have hlt : p.1 < (D.taken s.peer).length := (List.getElem?_eq_some_iff.1 hc).1
  exact List.getElem?_append_left hlt

/-- What a pass of the router does to the packets of one side. -/
theorem parcels_goOn (h : Faithful enc D) (t : State) (s : Side) : (D.goOn t).parcels s =
    (D.down s.peer).filterMap (D.carried s.peer) ++
      (((t.sent (host s.peer)).drop (D.router.sent (host s.peer)).length).filterMap
        ((D.goOn t).carried s.peer) ++ (D.goOn t).waiting s) := by
  have hold : (D.down s.peer).filterMap ((D.goOn t).carried s.peer) =
      (D.down s.peer).filterMap (D.carried s.peer) :=
    List.filterMap_congr fun p hp => carried_goOn h t hp
  rw [← hold, ← List.append_assoc, ← List.filterMap_append]
  rfl

/-- A side whose packets the pass leaves alone. -/
theorem queue_goOn_same (h : Faithful enc D) {t : State}
    (hsock : t.sock (host s) = D.router.sock (host s))
    (hsent : t.sent (host s.peer) = D.router.sent (host s.peer)) : (D.goOn t).queue s = D.queue s := by
  have hwaiting : (D.goOn t).waiting s = D.waiting s := by
    simp only [Deployment.goOn, hsock, Nat.sub_self, List.drop_zero]
  have hparcels : (D.goOn t).parcels s = D.parcels s := by
    rw [parcels_goOn h, hsent, List.drop_length, hwaiting]
    rfl
  rw [Deployment.queue, hparcels]
  rfl

section Taking

variable {t : State} {packet : List Byte} {rest : List (List Byte)}

/-- The datagram that the pass takes. -/
theorem waiting_goOn (h : Faithful enc D) (hsource : D.router.sock (host s) = packet :: rest)
    (hsock : t.sock (host s) = rest) :
    ∃ c w, D.waiting s = c :: w ∧ (D.goOn t).waiting s = w ∧ enc c = packet := by
  have hmap := h.waiting s
  rw [hsource] at hmap
  obtain ⟨c, w, hw, henc, -⟩ := List.map_eq_cons_iff.1 hmap.symm
  refine ⟨c, w, hw, ?_, henc⟩
  simp [Deployment.goOn, hsource, hsock, hw]

/-- It is lost. -/
theorem queue_goOn_lost (h : Faithful enc D) (hsource : D.router.sock (host s) = packet :: rest)
    (hsock : t.sock (host s) = rest) (hsent : t.sent (host s.peer) = D.router.sent (host s.peer)) :
    ∃ k < (D.queue s).length, (D.goOn t).queue s = (D.queue s).eraseIdx k := by
  obtain ⟨c, w, hw, hdrop, -⟩ := waiting_goOn h hsource hsock
  have hparcels : (D.goOn t).parcels s = (D.down s.peer).filterMap (D.carried s.peer) ++ w := by
    rw [parcels_goOn h, hsent, List.drop_length, hdrop]
    rfl
  have hqueue : D.queue s = ((D.down s.peer).filterMap (D.carried s.peer)).map Parcel.datagram ++
      c.datagram :: (w.map Parcel.datagram ++ D.up s) := by
    simp [Deployment.queue, Deployment.parcels, hw]
  refine ⟨((D.down s.peer).filterMap (D.carried s.peer)).length, ?_, ?_⟩
  · rw [hqueue]
    simp
  · rw [hqueue, List.eraseIdx_append_of_length_le (by simp), List.length_map,
      Nat.sub_self, List.eraseIdx_cons_zero, Deployment.queue, hparcels, List.map_append,
      List.append_assoc]
    rfl

/-- It is forwarded. -/
theorem queue_goOn_forwarded (h : Faithful enc D) (hsource : D.router.sock (host s) = packet :: rest)
    (hsock : t.sock (host s) = rest)
    (hreceived : t.received (host s.peer) = D.router.received (host s.peer) ++ [packet])
    (hsent : t.sent (host s.peer) = D.router.sent (host s.peer) ++
      [((D.router.received (host s.peer)).length, packet)]) :
    (D.goOn t).queue s = D.queue s := by
  obtain ⟨c, w, hw, hdrop, -⟩ := waiting_goOn h hsource hsock
  have hlen : (D.router.received (host s.peer)).length = (D.taken s).length := by
    rw [h.taken s, List.length_map]
  have htaken : (D.goOn t).taken s = D.taken s ++ [c] := by
    simp [Deployment.goOn, hreceived, hw]
  have hcarried : (D.goOn t).carried s.peer ((D.router.received (host s.peer)).length, packet) =
      some c := by
    rw [Deployment.carried, Side.peer_peer, htaken, hlen]
    simp
  have hparcels : (D.goOn t).parcels s = D.parcels s := by
    rw [parcels_goOn h, hsent, List.drop_left, hdrop, Deployment.parcels, hw]
    simp [hcarried]
  rw [Deployment.queue, hparcels]
  rfl

end Taking

theorem loses_of_eraseIdx (hlossy : ∀ s k, ok D.net (.lose s k)) (s : Side) (k : Nat) (hk : k < (D.queue s).length)
    (hqueue : D'.queue s = (D.queue s).eraseIdx k) (hpeer : D'.queue s.peer = D.queue s.peer)
    (hnode : D'.node = D.node) :
    ∃ evs, Run (fifoStep M) ok D.net evs D'.net := by
  refine ⟨[.lose s k], .cons (hlossy s k) (fifoStep_lose.2 ⟨hk, rfl⟩) ?_⟩
  have hnet : D'.net = D.net.setWire s ((D.net.wire s).eraseIdx k) := by
    refine Net.ext hnode (funext fun t => ?_)
    rcases Side.eq_or_eq_peer s t with rfl | rfl
    · rw [Net.setWire_wire_self]
      exact hqueue
    · rw [Net.setWire_wire_peer]
      exact hpeer
  rw [hnet]
  exact .nil

/-- One event of the deployment is one of the queue, or none. -/
theorem fifo_of_deployStep {ev : DeployEvent ι ρ κ} (hfits : ∀ c, (enc c).length ≤ maxBufSize)
    (h : Faithful enc D) (hempty : D.router.fileBuf.empty = true) (hok : FifoDeployOk ok D ev)
    (hstep : deployStep M enc D ev = some D') :
    D'.router.fileBuf.empty = true ∧
      ∃ evs, Run (fifoStep M) ok D.net evs D'.net := by
  have hstays : ∀ {D' : Deployment σ δ κ}, D'.net = D.net →
      ∃ evs, Run (fifoStep M) ok D.net evs D'.net := fun h => ⟨[], h ▸ .nil⟩
  cases ev with
  | act s i =>
      obtain ⟨p, hact, rfl⟩ := deployStep_act.1 hstep
      refine ⟨hempty, [.act s i], .cons hok (fifoStep_act.2 ⟨p, hact, rfl⟩) ?_⟩
      rw [net_emit]
      exact .nil
  | reach s pad =>
      obtain ⟨d, rest, hup, rfl⟩ := deployStep_reach.1 hstep
      refine ⟨hempty, hstays (Net.ext rfl (funext fun t => ?_))⟩
      rcases Side.eq_or_eq_peer s t with rfl | rfl
      · simp [Deployment.net, Deployment.queue, Deployment.parcels, Deployment.arrive, Deployment.setUp,
          hup]
        rfl
      · simp [Deployment.net, Deployment.queue, Deployment.parcels, Deployment.arrive, Deployment.setUp]
        rfl
  | cycle delayed damaged calls =>
      cases hstep
      obtain ⟨rfl, hkeeps⟩ := hok
      have hpackets : ∀ source, ∀ packet ∈ D.router.sock source, packet.length ≤ maxBufSize := by
        intro source packet hpacket
        obtain ⟨s, rfl⟩ := exists_host source
        rw [h.waiting s] at hpacket
        obtain ⟨c, -, rfl⟩ := List.mem_map.1 hpacket
        exact hfits c
      obtain ⟨hempty', hforwards⟩ := cycle_forwards hempty hkeeps hpackets
      refine ⟨hempty', ?_⟩
      generalize D.router.cycle false damaged calls = t at hforwards
      have hother : ∀ s, host s.peer ≠ host s := by
        intro s
        cases s <;> decide
      cases hforwards with
      | none hsock hreceived hsent =>
          refine hstays (Net.ext rfl (funext fun s => ?_))
          exact queue_goOn_same h (by rw [hsock]) (by rw [hsent])
      | @lost source packet rest hlossy hsource hsock _ hsent =>
          obtain ⟨s, rfl⟩ := exists_host source
          have hrest : t.sock (host s) = rest := by simp [hsock]
          obtain ⟨k, hk, hqueue⟩ := queue_goOn_lost h hsource hrest (by rw [hsent])
          refine loses_of_eraseIdx hlossy s k hk hqueue (queue_goOn_same h ?_ (by rw [hsent])) rfl
          rw [hsock, Function.update_of_ne (hother s)]
      | @forwarded source packet rest hsource hsock hreceived hsent =>
          obtain ⟨s, rfl⟩ := exists_host source
          rw [← host_peer] at hreceived hsent
          have hrest : t.sock (host s) = rest := by simp [hsock]
          refine hstays (Net.ext rfl (funext fun t' => ?_))
          rcases Side.eq_or_eq_peer s t' with rfl | rfl
          · exact queue_goOn_forwarded h hsource hrest (by simp [hreceived]) (by simp [hsent])
          · refine queue_goOn_same h (by rw [hsock, Function.update_of_ne (hother s)]) ?_
            rw [Side.peer_peer, hsent, Function.update_of_ne (hother s).symm]
  | deliver s r =>
      obtain ⟨p, rest, c, q, hdown, hc, -, hrecv, rfl⟩ := deployStep_deliver.1 hstep
      have hwire : D.net.wire s.peer = c.datagram :: (D.setDown s rest).queue s.peer := by
        simp [Deployment.net, Deployment.queue, Deployment.parcels, Deployment.setDown, hdown, hc]
        rfl
      have hnet : (D.setDown s rest).net = D.net.setWire s.peer ((D.setDown s rest).queue s.peer) := by
        refine Net.ext rfl (funext fun t => ?_)
        rcases Side.eq_or_eq_peer s t with rfl | rfl
        · rw [Net.setWire_peer_wire]
          simp [Deployment.net, Deployment.queue, Deployment.parcels, Deployment.setDown]
          rfl
        · rw [Net.setWire_wire_self]
          rfl
      refine ⟨hempty, [.deliver s r], .cons hok
        (fifoStep_deliver.2 ⟨c.datagram, _, q, hwire, hrecv, rfl⟩) ?_⟩
      rw [net_emit, hnet]
      exact .nil
  | loseUp s k =>
      obtain ⟨hk, rfl⟩ := deployStep_loseUp.1 hstep
      refine ⟨hempty, loses_of_eraseIdx hok s (((D.parcels s).map Parcel.datagram).length + k)
        ?_ ?_ ?_ rfl⟩
      · rw [Deployment.queue, List.length_append]
        omega
      · have hqueue : (D.setUp s ((D.up s).eraseIdx k)).queue s =
            (D.parcels s).map Parcel.datagram ++ (D.up s).eraseIdx k := by
          simp [Deployment.queue, Deployment.setUp]
          rfl
        rw [hqueue, Deployment.queue, List.eraseIdx_append_of_length_le (Nat.le_add_right _ _),
          Nat.add_sub_cancel_left]
      · simp [Deployment.queue, Deployment.setUp]
        rfl
  | loseDown s k =>
      obtain ⟨hk, rfl⟩ := deployStep_loseDown.1 hstep
      have hbefore : D.queue s.peer = ((D.down s).filterMap (D.brings s)) ++
          ((D.waiting s.peer).map Parcel.datagram ++ D.up s.peer) := by
        rw [Deployment.queue, Deployment.parcels, Side.peer_peer, List.map_append, List.append_assoc,
          List.map_filterMap]
        rfl
      have hafter : (D.setDown s ((D.down s).eraseIdx k)).queue s.peer =
          ((D.down s).eraseIdx k).filterMap (D.brings s) ++
            ((D.waiting s.peer).map Parcel.datagram ++ D.up s.peer) := by
        rw [Deployment.queue, Deployment.parcels, Side.peer_peer, List.map_append, List.append_assoc,
          List.map_filterMap]
        simp [Deployment.setDown]
        rfl
      have hbrings : ∀ p ∈ D.down s, ∃ d, D.brings s p = some d := by
        intro p hp
        obtain ⟨c, hc⟩ := h.carries s p hp
        exact ⟨c.datagram, by rw [Deployment.brings, hc]; rfl⟩
      have hlen : ((D.down s).filterMap (D.brings s)).length = (D.down s).length :=
        length_filterMap_eq hbrings
      have herase : ((D.down s).eraseIdx k).filterMap (D.brings s) =
          ((D.down s).filterMap (D.brings s)).eraseIdx k := filterMap_eraseIdx hbrings k
      refine ⟨hempty, loses_of_eraseIdx hok s.peer k ?_ ?_ ?_ rfl⟩
      · rw [hbefore, List.length_append]
        omega
      · rw [hafter, herase, hbefore, List.eraseIdx_append_of_lt_length (hlen ▸ hk)]
      · simp [Deployment.queue, Deployment.parcels, Deployment.setDown]
        rfl

/-- Nothing is delayed, and the queue holds what is with the router, before it and after it. -/
structure Queued (enc : Parcel κ δ → List Byte) (D : Deployment σ δ κ) (n : Net σ δ) : Prop where
  faithful : Faithful enc D
  empty : D.router.fileBuf.empty = true
  net : n = D.net

/-- A run of the deployment, with a run of the queue beside it. -/
theorem exists_fifo_run (node : Side → σ) (b b' : Buffer) {evs : List (DeployEvent ι ρ κ)}
    (hfits : ∀ c, (enc c).length ≤ maxBufSize)
    (hrun : Run (deployStep M enc) (FifoDeployOk ok) (deployed node b b') evs D) :
    ∃ evs', Run (fifoStep M) ok (bagOf node) evs' D.net ∧ Faithful enc D := by
  have hstart : Queued enc (deployed node b b') (bagOf node : Net σ δ) :=
    ⟨faithful_deployed node b b', rfl, rfl⟩
  have hsim : ∀ (D : Deployment σ δ κ) (ev : DeployEvent ι ρ κ) (D' : Deployment σ δ κ) (n : Net σ δ),
      Queued enc D n → FifoDeployOk ok D ev → deployStep M enc D ev = some D' →
      ∃ evs n', Run (fifoStep M) ok n evs n' ∧ Queued enc D' n' := by
    rintro D ev D' n ⟨hfaithful, hempty, rfl⟩ hok hstep
    obtain ⟨hempty', evs, hfifo⟩ := fifo_of_deployStep hfits hfaithful hempty hok hstep
    exact ⟨evs, D'.net, hfifo, hfaithful.step hstep, hempty', rfl⟩
  obtain ⟨evs', n, hfifo, hrel⟩ := Run.simulate hsim hstart hrun
  exact ⟨evs', hrel.net ▸ hfifo, hrel.faithful⟩

/-- Without delays the two machines are where a run of a queue would have brought them; the queue holds all that
is on the way, and loses something only where the router or a link does. -/
theorem deployment_in_fifo (node : Side → σ) (b b' : Buffer) {evs : List (DeployEvent ι ρ κ)}
    (hfits : ∀ c, (enc c).length ≤ maxBufSize)
    (hrun : Run (deployStep M enc) (FifoDeployOk ok) (deployed node b b') evs D) :
    ∃ evs', Run (fifoStep M) ok (bagOf node) evs' D.net := by
  obtain ⟨evs', hfifo, -⟩ := exists_fifo_run node b b' hfits hrun
  exact ⟨evs', hfifo⟩

end Fifo

/-- The router drops the first byte and forwards the second one. -/
def droppedEvents : List (DeployEvent Byte Unit Unit) :=
  [.act .client 1, .reach .client (), .act .client 2, .cycle false true .succeed, .reach .client (),
    .cycle false false .succeed, .deliver .server ()]

instance (n : Net (List Byte) Byte) (ev : FifoEvent Byte Unit) : Decidable (anyStep n ev) := isTrue trivial

theorem deployment_in_fifo_dropped :
    ∃ evs' D, Run (fifoStep chatter) anyStep (bagOf fun _ => []) evs' (Deployment.net D) ∧
      D.node .server = [2] ∧ (D : Deployment (List Byte) Byte Unit).router.dropped .host2 = [0] := by
  have hex : ∃ D, Run (deployStep chatter chatterBytes) (Undelayed true anyStep)
      (deployed (fun _ => []) zeroBuffer zeroBuffer) droppedEvents D ∧
        D.node .server = [2] ∧ D.router.dropped .host2 = [0] :=
    exists_run_of_exec (by decide +kernel)
  obtain ⟨D, hrun, hnode⟩ := hex
  have hfits : ∀ c, (chatterBytes c).length ≤ maxBufSize := by
    intro c
    exact (by decide : 1 ≤ maxBufSize)
  have hok := hrun.mono (fifoDeployOk_of_undelayed fun _ _ _ _ => trivial)
  obtain ⟨evs', hfifo⟩ := deployment_in_fifo _ _ _ hfits hok
  exact ⟨evs', D, hfifo, hnode⟩

end Router
end FileTransfer
