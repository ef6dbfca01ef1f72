import FileTransfer.Assign3.Turns
import FileTransfer.Build2.Alternation

/-!
# No command is taken for a repetition

In both builds the receiver drops a packet that has the number of the packet before it.  The client's
number changes with every packet, but `PutFileToServer` sets it to `0`.
-/

namespace FileTransfer

open Udp

/-! ## Both builds -/

/-- Whatever the programs call, in `Assign3_zcl` (`A`, run `evs`) and in `build 2` (`B`, run `evs'`):
while the endpoints take what they wait for, and `PutFileToServer` sets `Send_Seq` to `0` only when it
is `0` or the server's `prev_Recv_Seq` is not, every packet that the client sends has a number that the
server does not take for a repetition. -/
theorem commands_new {π π' : Type*} (A : Assign3.App π) (B : Build2.App π')
    (mem : Side → Assign3.Members) (mem' : Side → Build2.Members) (app : Side → π) (app' : Side → π')
    (hbit : (mem .client).sendSeq = 0 ∨ (mem .client).sendSeq = 1)
    (hbit' : (mem' .client).sendSeq = 0 ∨ (mem' .client).sendSeq = 1)
    (hprev : (mem .server).prevRecvSeq ≠ 0 ∧ (mem .server).prevRecvSeq ≠ 1)
    (hprev' : (mem' .server).prevRecvSeq ≠ 0 ∧ (mem' .server).prevRecvSeq ≠ 1)
    {evs : List (FifoEvent Assign3.Act Assign3.Junk)} {n : Net (Assign3.Endpoint π) Datagram}
    {evs' : List (FifoEvent Build2.Act (List Byte))} {n' : Net (Build2.Endpoint π') Datagram}
    (hrun : Run (fifoStep (Assign3.machine A)) (Assign3.TakesOwn A .client)
      (Assign3.sessionStart mem app) evs n)
    (hrun' : Run (fifoStep (Build2.machine B)) (Build2.TakesOwn B .client)
      (Build2.sessionStart mem' app') evs' n') :
    Assign3.SendsNew A n ∧ Build2.SendsNew B n' :=
  ⟨Assign3.sendsNew hbit hprev hrun, Build2.sendsNew hbit' hprev' hrun'⟩

namespace Assign3

/-- The client lists the server's files: the command, its echo, and the end mark of an empty listing.
The echo comes so soon that the client reads it away before it waits for it. -/
def listEvents : List (FifoEvent Act Junk) :=
  [runs .client, runs .server, arrives .server, runs .server, arrives .client, arrives .client,
    runs .client, timesOut .server, arrives .client, runs .client, arrives .server, timesOut .server,
    runs .server, arrives .client, arrives .server, timesOut .server]

/-- After the listing the client begins to put a file. -/
def listThenPutEvents : List (FifoEvent Act Junk) := listEvents ++ [runs .client]

/-- A client with one empty file. -/
def uploader : Client :=
  ⟨[.list, .put sampleName sampleName], .menu, [⟨[97], [], true, true⟩], [], []⟩

/-- Two messages of `build 2`. -/
def sampleExchange : Side → Build2.Exchange
  | .client => .sender Build2.twoMessages
  | .server => .receiver

/-- The next packet of a client that runs the menu. -/
def nextPacket (e : Endpoint Program) : Option Message :=
  match e.nextCall ftpApp with
  | some (.udplastsend m) => some m
  | _ => none

theorem nextCall_of_nextPacket {e : Endpoint Program} {m : Message} (h : nextPacket e = some m) :
    e.nextCall ftpApp = some (.udplastsend m) := by
  unfold nextPacket at h
  split at h
  · rename_i m' hcall
    rw [hcall, Option.some.inj h]
  · cases h

/-- The next message of a `build 2` client. -/
def nextMessage (e : Build2.Endpoint Build2.Exchange) : Option Message :=
  match e.nextCall Build2.exchangeApp with
  | some (.udpsend m) => some m
  | _ => none

/-- Each client has one packet behind it and the next one before it. -/
theorem commands_new_list :
    ∃ n n', Run (fifoStep (machine ftpApp)) (TakesOwn ftpApp .client)
        (menuStart (fun _ => freshMembers) (sampleClient [.list, .del sampleName]) sampleServer)
        listEvents n ∧
      Run (fifoStep (Build2.machine Build2.exchangeApp)) (Build2.TakesOwn Build2.exchangeApp .client)
        (Build2.sessionStart (fun _ => Build2.freshMembers) sampleExchange)
        Build2.oneMessageEvents n' ∧
      ((n.node .client).hist.completed = 1 ∧ (nextPacket (n.node .client)).isSome = true) ∧
      ((n'.node .client).hist.completed = 1 ∧ (nextMessage (n'.node .client)).isSome = true) ∧
      SendsNew ftpApp n ∧ Build2.SendsNew Build2.exchangeApp n' := by
  have hex : ∃ n, Run (fifoStep (machine ftpApp)) (TakesOwn ftpApp .client)
      (menuStart (fun _ => freshMembers) (sampleClient [.list, .del sampleName]) sampleServer)
        listEvents n ∧ ((n.node .client).hist.completed = 1 ∧
          (nextPacket (n.node .client)).isSome = true) :=
    exists_run_of_exec (by decide +kernel)
  have hex' : ∃ n', Run (fifoStep (Build2.machine Build2.exchangeApp))
      (Build2.TakesOwn Build2.exchangeApp .client)
      (Build2.sessionStart (fun _ => Build2.freshMembers) sampleExchange)
        Build2.oneMessageEvents n' ∧ ((n'.node .client).hist.completed = 1 ∧
          (nextMessage (n'.node .client)).isSome = true) :=
    exists_run_of_exec (by decide +kernel)
  obtain ⟨n, hrun, hdone⟩ := hex
  obtain ⟨n', hrun', hdone'⟩ := hex'
  exact ⟨n, n', hrun, hrun', hdone, hdone', commands_new ftpApp Build2.exchangeApp _ _ _ _ (by decide)
    (by decide) (by decide) (by decide) hrun hrun'⟩

/-- The number of the listing's command is `0`, and so is the number of the next one. -/
theorem command_repeated :
    ∃ n, Run (fifoStep (machine ftpApp)) Calm
        (menuStart (fun _ => freshMembers) uploader sampleServer) listThenPutEvents n ∧
      ¬ SendsNew ftpApp n := by
  have hex : ∃ n, Run (fifoStep (machine ftpApp)) Calm
      (menuStart (fun _ => freshMembers) uploader sampleServer) listThenPutEvents n ∧
        ((nextPacket (n.node .client)).isSome = true ∧
          (n.node .client).mem.sendSeq = (n.node .server).mem.prevRecvSeq) :=
    exists_run_of_exec (by decide +kernel)
  obtain ⟨n, hrun, hnext, hsame⟩ := hex
  obtain ⟨m, hm⟩ := Option.isSome_iff_exists.1 hnext
  exact ⟨n, hrun, fun h => h m (nextCall_of_nextPacket hm) hsame⟩

end Assign3
end FileTransfer
