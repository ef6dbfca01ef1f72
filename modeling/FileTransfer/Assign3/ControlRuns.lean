import FileTransfer.Assign3.ControlChannel
import FileTransfer.Assign3.Programs

/-!
# The control channel in both directions

The statement about whole runs of two endpoints with any programs, and what goes wrong in a run of the
client's menu and the server's loop in which one acknowledgement is late.
-/

namespace FileTransfer
namespace Assign3

open Udp

variable {π : Type*}

/-- In every run in which `udplastsend` and `udplastrecv` take what they wait for, in both directions,
the packets that `udplastrecv` returns are the first of the messages that the peer passed to
`udplastsend`, each one read from a copy of that message, and `udplastsend` returns only for those. -/
theorem control_in_order (A : App π) (mem : Side → Members) (app : Side → π)
    (hbit : ∀ s, (mem s).sendSeq = 0 ∨ (mem s).sendSeq = 1)
    (hne : ∀ s, (mem s).sendSeq ≠ (mem s.peer).prevRecvSeq)
    {evs : List (FifoEvent Act Junk)} {n : Net (Endpoint π) Datagram}
    (hrun : Run (fifoStep (machine A)) (fun n ev => ∀ s, TakesOwn A s n ev) (sessionStart mem app)
      evs n) (s : Side) :
    InOrder (n.node s).hist.passed (n.node s.peer).hist.returned (n.node s).hist.completed := by
  have hside : Run (fifoStep (machine A)) (TakesOwn A s) (sessionStart mem app) evs n :=
    hrun.mono fun _ _ hok => hok s
  exact inOrder_of_linked ((exchanges A s).run (linked_start (hbit s) (hne s)) hside)

/-! ## Runs of the two programs -/

/-- The two programs after the handshake. -/
def menuStart (mem : Side → Members) (c : Client) (s : Server) : Net (Endpoint Program) Datagram :=
  sessionStart mem fun
    | .client => .client c
    | .server => .server s

/-- Zeros everywhere, and a `prev_Recv_Seq` that no packet has. -/
def freshMembers : Members :=
  ⟨⟨0, .ofBytes []⟩, ⟨0, .ofBytes []⟩, ⟨0, .ofBytes []⟩, ⟨0, .ofBytes []⟩, 0, 0, 3000, 0, 0, 0⟩

def sampleClient (ops : List Op) : Client := ⟨ops, .menu, [], [], []⟩
def sampleServer : Server := ⟨.loop, [], []⟩

theorem isText_sample : IsText [97] := by decide
theorem short_sample : [(97 : Byte)].length < Udp.bufferLength := by decide

def sampleName : FileName := ⟨[97], isText_sample, short_sample⟩

/-- Events with nothing behind the texts. -/
def runs (s : Side) : FifoEvent Act Junk := .act s .run
def timesOut (s : Side) : FifoEvent Act Junk := .act s .timeout
def arrives (s : Side) : FifoEvent Act Junk := .deliver s ⟨[], []⟩

/-- A message of `s` arrives and is acknowledged, and nothing else comes in the time that `udplastsend` gives
it. -/
def messageEvents (s : Side) : List (FifoEvent Act Junk) :=
  [runs s, runs s.peer, arrives s.peer, arrives s, timesOut s]

/-- A listing of an empty directory, and the command behind it: the client sends two messages and the server
two. -/
def commandEvents : List (FifoEvent Act Junk) :=
  messageEvents .client ++ messageEvents .server ++ messageEvents .server ++ messageEvents .client

theorem control_in_order_commands :
    ∃ n, Run (fifoStep (machine ftpApp)) (fun n ev => ∀ s, TakesOwn ftpApp s n ev)
        (menuStart (fun _ => freshMembers) (sampleClient [.list, .list]) sampleServer) commandEvents n ∧
      (∀ s, (n.node s).hist.completed = 2) ∧
      ∀ s, InOrder (n.node s).hist.passed (n.node s.peer).hist.returned 2 := by
  have hex : ∃ n, Run (fifoStep (machine ftpApp)) (fun n ev => ∀ s, TakesOwn ftpApp s n ev)
      (menuStart (fun _ => freshMembers) (sampleClient [.list, .list]) sampleServer) commandEvents n ∧
        ∀ s, (n.node s).hist.completed = 2 :=
    exists_run_of_exec (by decide +kernel)
  obtain ⟨n, hrun, hdone⟩ := hex
  refine ⟨n, hrun, hdone, fun s => ?_⟩
  rw [← hdone s]
  exact control_in_order ftpApp _ _ (by decide) (by decide) hrun s

/-- The client's command is late and is sent twice; the second copy ends the server's wait for the
acknowledgement of its echo. -/
def lateCommandEvents : List (FifoEvent Act Junk) :=
  [runs .client, timesOut .client, runs .server, arrives .server, runs .server, arrives .server,
    timesOut .server]

theorem echo_confirmed_by_command :
    ∃ n, Run (fifoStep (machine ftpApp)) anyStep
        (menuStart (fun _ => freshMembers) (sampleClient [.list]) sampleServer) lateCommandEvents n ∧
      ¬ ∀ s, InOrder (n.node s).hist.passed (n.node s.peer).hist.returned (n.node s).hist.completed := by
  have hex : ∃ n, Run (fifoStep (machine ftpApp)) anyStep
      (menuStart (fun _ => freshMembers) (sampleClient [.list]) sampleServer) lateCommandEvents n ∧
        (n.node .client).hist.returned.length < (n.node .server).hist.completed :=
    exists_run_of_exec_any (by decide +kernel)
  obtain ⟨n, hrun, hlt⟩ := hex
  exact ⟨n, hrun, fun h => Nat.not_le_of_lt hlt (h .server).completed_le⟩

end Assign3
end FileTransfer
