import FileTransfer.Lib.Run
import Mathlib.Logic.Function.Basic

/-!
# Two parties and the wires between them

A party is a `Machine`: it can `act` on its own (run, time out) or `recv` one datagram, and in both
cases it changes its state and puts datagrams on its outgoing wire.  Two networks connect two copies
of a machine:

* `fifoStep`: each wire is a queue that keeps the order and may lose any datagram at any moment;
* `bagStep`: each wire only grows, and any datagram ever put on it may arrive, at any time, in any
  order and any number of times (loss, duplication, delay and reordering).

Each network has one inversion lemma for every kind of event.
-/

namespace FileTransfer

/-- The two ends of a connection. -/
inductive Side where
  | client
  | server
  deriving DecidableEq, Repr

namespace Side

def peer : Side → Side
  | client => server
  | server => client

@[simp] theorem peer_peer (s : Side) : s.peer.peer = s := by
  cases s <;> rfl

@[simp] theorem peer_ne (s : Side) : s.peer ≠ s := by
  cases s <;> decide

@[simp] theorem ne_peer (s : Side) : s ≠ s.peer := by
  cases s <;> decide

theorem eq_or_eq_peer (s t : Side) : t = s ∨ t = s.peer := by
  cases s <;> cases t <;> simp [peer]

instance {p : Side → Prop} [DecidablePred p] : Decidable (∀ s, p s) :=
  decidable_of_iff (p client ∧ p server)
    ⟨fun h s => by cases s; exacts [h.1, h.2], fun h => ⟨h client, h server⟩⟩

end Side

/-- A party that reacts: `act` is a step it takes without input from the network, `recv` is the step
that takes one datagram in.  Both return the new state and the datagrams sent, oldest first. -/
structure Machine (σ ι ρ δ : Type*) where
  act : σ → ι → Option (σ × List δ)
  recv : σ → ρ → δ → Option (σ × List δ)

/-- Two parties and, for each one, the datagrams it has sent that are still on the way. -/
@[ext] structure Net (σ δ : Type*) where
  node : Side → σ
  wire : Side → List δ

namespace Net

variable {σ δ : Type*}

/-- Party `s` moves to the state `p.1` and puts the datagrams `p.2` on its wire. -/
def emit (n : Net σ δ) (s : Side) (p : σ × List δ) : Net σ δ where
  node := Function.update n.node s p.1
  wire := Function.update n.wire s (n.wire s ++ p.2)

/-- Replace the content of the wire that leaves `s`. -/
def setWire (n : Net σ δ) (s : Side) (w : List δ) : Net σ δ where
  node := n.node
  wire := Function.update n.wire s w

variable (n : Net σ δ) (s : Side) (p : σ × List δ) (w : List δ)

@[simp] theorem emit_node_self : (n.emit s p).node s = p.1 := by simp [emit]
@[simp] theorem emit_wire_self : (n.emit s p).wire s = n.wire s ++ p.2 := by simp [emit]
@[simp] theorem emit_node_peer : (n.emit s p).node s.peer = n.node s.peer := by simp [emit]
@[simp] theorem emit_wire_peer : (n.emit s p).wire s.peer = n.wire s.peer := by simp [emit]
@[simp] theorem setWire_node : (n.setWire s w).node = n.node := rfl
@[simp] theorem setWire_wire_self : (n.setWire s w).wire s = w := by simp [setWire]
@[simp] theorem setWire_wire_peer : (n.setWire s w).wire s.peer = n.wire s.peer := by
  simp [setWire]
@[simp] theorem setWire_peer_wire : (n.setWire s.peer w).wire s = n.wire s := by
  simp [setWire]
@[simp] theorem peer_emit_node : (n.emit s.peer p).node s = n.node s := by simp [emit]
@[simp] theorem peer_emit_wire : (n.emit s.peer p).wire s = n.wire s := by simp [emit]

-- the same for the two sides by name, where `peer` has been computed
@[simp] theorem emit_client_node : (n.emit .client p).node .server = n.node .server :=
  n.emit_node_peer .client p
@[simp] theorem emit_client_wire : (n.emit .client p).wire .server = n.wire .server :=
  n.emit_wire_peer .client p
@[simp] theorem emit_server_node : (n.emit .server p).node .client = n.node .client :=
  n.emit_node_peer .server p
@[simp] theorem emit_server_wire : (n.emit .server p).wire .client = n.wire .client :=
  n.emit_wire_peer .server p
@[simp] theorem setWire_client_wire : (n.setWire .client w).wire .server = n.wire .server :=
  n.setWire_wire_peer .client w
@[simp] theorem setWire_server_wire : (n.setWire .server w).wire .client = n.wire .client :=
  n.setWire_wire_peer .server w

end Net

variable {σ ι ρ δ : Type*}

/-! ## Queues that lose datagrams -/

/-- Events of the network with lossy queues. -/
inductive FifoEvent (ι ρ : Type*) where
  /-- party `s` takes a step of its own -/
  | act (s : Side) (i : ι)
  /-- the oldest datagram on the way to party `s` arrives -/
  | deliver (s : Side) (r : ρ)
  /-- the `k`-th oldest datagram that `s` has sent is lost -/
  | lose (s : Side) (k : Nat)

def fifoStep (M : Machine σ ι ρ δ) (n : Net σ δ) : FifoEvent ι ρ → Option (Net σ δ)
  | .act s i => (M.act (n.node s) i).map (n.emit s)
  | .deliver s r =>
      match n.wire s.peer with
      | [] => none
      | d :: rest => (M.recv (n.node s) r d).map ((n.setWire s.peer rest).emit s)
  | .lose s k =>
      if k < (n.wire s).length then some (n.setWire s ((n.wire s).eraseIdx k)) else none

section Fifo

variable {M : Machine σ ι ρ δ} {n n' : Net σ δ} {s : Side}

theorem fifoStep_act {i : ι} :
    fifoStep M n (.act s i) = some n' ↔ ∃ p, M.act (n.node s) i = some p ∧ n' = n.emit s p := by
  simp only [fifoStep, Option.map_eq_some_iff, eq_comm (a := n')]

theorem fifoStep_deliver {r : ρ} :
    fifoStep M n (.deliver s r) = some n' ↔
      ∃ d rest p, n.wire s.peer = d :: rest ∧ M.recv (n.node s) r d = some p ∧
        n' = (n.setWire s.peer rest).emit s p := by
  cases hw : n.wire s.peer with
  | nil => simp [fifoStep, hw]
  | cons d rest =>
      simp only [fifoStep, hw, Option.map_eq_some_iff, eq_comm (a := n'), List.cons.injEq]
      constructor
      · rintro ⟨p, hp, hn⟩
        exact ⟨d, rest, p, ⟨rfl, rfl⟩, hp, hn⟩
      · rintro ⟨_, _, p, ⟨rfl, rfl⟩, hp, hn⟩
        exact ⟨p, hp, hn⟩

theorem fifoStep_lose {k : Nat} :
    fifoStep M n (.lose s k) = some n' ↔
      k < (n.wire s).length ∧ n' = n.setWire s ((n.wire s).eraseIdx k) := by
  simp [fifoStep, eq_comm]

end Fifo

/-! ## Wires that deliver anything that was ever sent -/

/-- Events of the network that duplicates, delays, reorders and loses. -/
inductive BagEvent (ι ρ : Type*) where
  /-- party `s` takes a step of its own -/
  | act (s : Side) (i : ι)
  /-- the `k`-th datagram that the peer of `s` ever sent arrives at `s` -/
  | deliver (s : Side) (k : Nat) (r : ρ)

def bagStep (M : Machine σ ι ρ δ) (n : Net σ δ) : BagEvent ι ρ → Option (Net σ δ)
  | .act s i => (M.act (n.node s) i).map (n.emit s)
  | .deliver s k r =>
      match (n.wire s.peer)[k]? with
      | none => none
      | some d => (M.recv (n.node s) r d).map (n.emit s)

section Bag

variable {M : Machine σ ι ρ δ} {n n' : Net σ δ} {s : Side}

theorem bagStep_act {i : ι} :
    bagStep M n (.act s i) = some n' ↔ ∃ p, M.act (n.node s) i = some p ∧ n' = n.emit s p := by
  simp only [bagStep, Option.map_eq_some_iff, eq_comm (a := n')]

theorem bagStep_deliver {k : Nat} {r : ρ} :
    bagStep M n (.deliver s k r) = some n' ↔
      ∃ d p, (n.wire s.peer)[k]? = some d ∧ M.recv (n.node s) r d = some p ∧
        n' = n.emit s p := by
  cases hw : (n.wire s.peer)[k]? with
  | none => simp [bagStep, hw]
  | some d =>
      simp only [bagStep, hw, Option.map_eq_some_iff, eq_comm (a := n'), Option.some.injEq]
      constructor
      · rintro ⟨p, hp, hn⟩
        exact ⟨d, p, rfl, hp, hn⟩
      · rintro ⟨_, p, rfl, hp, hn⟩
        exact ⟨p, hp, hn⟩

end Bag

end FileTransfer
