import FileTransfer.Assign3.FailedOperations
import FileTransfer.Assign3.PairExchange
import FileTransfer.Assign3.RemoteStore

/-!
# Between two operations

The client is at its menu and the server in its loop.  The server may still wait behind its answer to the
operation before; when the client's next command comes in this wait, it is read away and sent once more.
`Between.leads_echo` says that every run of a calm network comes from there to the echo of the command,
`leads_menu` and `leads_loop` that it comes back when the last message of an operation has arrived.
-/

namespace FileTransfer
namespace Assign3

open Udp

/-! ## The command -/

/-- The numbers that are set before the command is sent. -/
def opReset : Op → Option Reset
  | .get _ _ => some .getFile
  | .put _ _ => some .putFileToServer
  | .list | .del _ => none

/-- The frame of the client when it sends the command. -/
def Frame.opened (φ : Frame) (op : Op) : Frame := (opReset op).elim φ φ.reset

theorem Frame.side_opened (φ : Frame) (op : Op) : (φ.opened op).side = φ.side := by
  cases op <;> rfl

/-- The client that has chosen an operation. -/
def Client.chosen (c : Client) (ops : List Op) : Client := { c with ops := ops }

/-- The client when it sends the command. -/
def opener (c : Client) (op : Op) (ops : List Op) : Program :=
  match opReset op with
  | none => .client c
  | some _ => .client ((c.chosen ops).goto (.command op))

section Opener

variable {c : Client} {op : Op} {ops : List Op}

theorem opener_of_none (hr : opReset op = none) : opener c op ops = .client c := by
  simp only [opener, hr]

variable (hmenu : c.at = .menu) (hops : c.ops = op :: ops)

include hmenu hops

theorem call_opener : ftpApp.call (opener c op ops) =
    some (.udplastsend (c.text (Client.commandText op))) := by
  cases op <;> simp only [opener, opReset, ftpApp, Client.call, hmenu, hops] <;> rfl

theorem resume_opener (p : Udppacket) : ftpApp.resume (opener c op ops) (.udplastsend p) =
    .client ((c.chosen ops).goto (.echo op)) := by
  cases op <;> simp only [opener, opReset, ftpApp, Client.resume, hmenu, hops] <;> rfl

theorem call_reset {r : Reset} (hr : opReset op = some r) :
    ftpApp.call (.client c) = some (.reset r) := by
  cases op <;> cases hr <;> simp only [ftpApp, Client.call, hmenu, hops]

theorem resume_reset {r : Reset} (hr : opReset op = some r) :
    ftpApp.resume (.client c) .done = opener c op ops := by
  cases op <;> cases hr <;> simp only [opener, opReset, ftpApp, Client.resume, hmenu, hops] <;> rfl

end Opener

/-- The exchange of the command. -/
def commandExchange (c : Client) (s : Server) (op : Op) (ops : List Op) (a b : Int) (φ ψ : Frame)
    (ha : a = 0 ∨ a = 1) : Exchange Program :=
  .say (opener c op ops) (.server s) (c.text (Client.commandText op)) a b (φ.opened op) ψ ha

/-- The exchange of its echo. -/
def echoExchange (c : Client) (s : Server) (op : Op) (b a : Int) (ψ φ : Frame) (hb : b = 0 ∨ b = 1) :
    Exchange Program :=
  .say (.server (s.goto (.echo (commandBuffer c op)))) (.client (c.goto (.echo op)))
    (.whole (commandBuffer c op)) b a ψ φ hb

/-! ## Between two operations -/

/-- The client has not begun, or has set its numbers, or its command was read away. -/
inductive Starts (c : Client) (a b : Int) (φ : Frame) (e : Endpoint Program) : Prop where
  | menu : Placed e (.client c) .idle a b φ → Starts c a b φ e
  | opened {op : Op} {ops : List Op} {r : Reset} : c.ops = op :: ops → opReset op = some r →
      Placed e (opener c op ops) .idle a b (φ.opened op) → Starts c a b φ e
  | sent {op : Op} {ops : List Op} : c.ops = op :: ops →
      Speaking e (opener c op ops) (c.text (Client.commandText op))
        (.udplastsendWait (c.text (Client.commandText op)) 0) a b (φ.opened op) → Starts c a b φ e

/-- `PutFileToServer` begins with the number `0`, and this is the client's next one. -/
def Ready (c : Client) (a : Int) : Prop :=
  ∀ op ops, c.ops = op :: ops → opReset op = some .putFileToServer → a = 0

structure Between (c : Client) (s : Server) (a b : Int) (φ ψ : Frame) (J : Joint Program) : Prop where
  menu : c.at = .menu
  loop : s.at = .loop
  ready : Ready c a
  starts : Starts c a b φ J.e
  rests : Resting ftpApp J.f (.server s) b a ψ
  sent : J.w = []
  answered : J.v = []

variable {P : Joint Program → Prop} {J : Joint Program} {c : Client} {s : Server} {a b : Int}
  {φ ψ : Frame} {op : Op} {ops : List Op}

/-- What a client at its menu may do while the server finishes its last call. -/
theorem exists_quiet_menu (hmenu : c.at = .menu) (hready : Ready c a) :
    ∃ F G, Quiet ftpApp F G ∧ (∀ f, Placed f (.client c) .idle a b φ → ∃ k, F k f) ∧
      ∀ f, ((∃ k, F k f) ∨ G f) → Starts c a b φ f := by
  cases hops : c.ops with
  | nil =>
      have hnone : ftpApp.call (.client c) = none := by
        simp only [ftpApp, Client.call, hmenu, hops]
      have hcall : ∀ d, ftpApp.call (.client c) = some d → d = .udplastrecv ∨ d = .udprecv := by
        intro d hd
        cases hnone.symm.trans hd
      refine ⟨_, _, quiet_listening hcall, fun f hf => ⟨1, .inl ⟨rfl, hf⟩⟩, ?_⟩
      rintro f (⟨k, ⟨-, hf⟩ | ⟨-, ⟨hd, -⟩ | ⟨hd, -⟩⟩⟩ | hf)
      · exact .menu hf
      · cases hnone.symm.trans hd
      · cases hnone.symm.trans hd
      · exact hf.elim
  | cons op ops =>
      have hcall := call_opener hmenu hops
      cases hr : opReset op with
      | none =>
          have hopened : φ.opened op = φ := by rw [Frame.opened, hr]; rfl
          have hopener : opener c op ops = .client c := opener_of_none hr
          rw [hopener] at hcall
          refine ⟨_, _, quiet_answering hcall, fun f hf => ⟨0, rfl, hf⟩, ?_⟩
          rintro f (⟨k, -, hf⟩ | hf)
          · exact .menu hf
          · exact .sent hops (by rwa [hopener, hopened])
      | some r =>
          have hopened : φ.opened op = φ.reset r := by rw [Frame.opened, hr]; rfl
          have hbit : r = .putFileToServer → a = 0 := fun h => hready op ops hops (h ▸ hr)
          refine ⟨_, _, quiet_restarting (call_reset hmenu hops hr) (resume_reset hmenu hops hr) hbit hcall,
            fun f hf => ⟨1, .inl ⟨rfl, hf⟩⟩, ?_⟩
          rintro f (⟨k, ⟨-, hf⟩ | ⟨-, hf⟩⟩ | hf)
          · exact .menu hf
          · exact .opened hops hr (by rwa [hopened])
          · exact .sent hops (by rw [hopened]; exact hf)

/-- The client's last message of an operation has arrived. -/
theorem leads_loop {T : Exchange Program} (h : T.Open ftpApp J) (hcalls : T.Calls ftpApp)
    (hx : T.x' ftpApp = .client c) (hy : T.y' ftpApp = .server s) (hmenu : c.at = .menu)
    (hloop : s.at = .loop) (hready : Ready c (1 - T.a)) :
    Leads ftpApp (Between c s (1 - T.a) T.b T.φ T.ψ') J := by
  have hnext : ∀ d, ftpApp.call (.server s) = some d → d = .udplastrecv ∨ d = .udprecv := by
    intro d hd
    simp only [ftpApp, Server.call, hloop, Option.some.injEq] at hd
    exact .inl hd.symm
  refine Exchange.leads_listening h hcalls hx hy hnext fun e f he hf => ?_
  exact .now ⟨hmenu, hloop, hready, .menu he, hf, rfl, rfl⟩

/-- The server's last message of an operation has arrived. -/
theorem leads_menu {T : Exchange Program} (h : T.Open ftpApp J) (hcalls : T.Calls ftpApp)
    (hx : T.x' ftpApp = .server s) (hy : T.y' ftpApp = .client c) (hmenu : c.at = .menu)
    (hloop : s.at = .loop) (hready : Ready c T.b) :
    Leads ftpApp (fun J => Between c s T.b (1 - T.a) T.ψ' T.φ J.swap) J := by
  obtain ⟨F, G, hq, hF, hstarts⟩ := exists_quiet_menu (b := 1 - T.a) (φ := T.ψ') hmenu hready
  refine Exchange.leads hcalls hq (fun f hf => hF f (hy ▸ hf)) ?_ h
  intro e f he hf
  exact .now ⟨hmenu, hloop, hready, hstarts f hf, .idle (hx ▸ he), rfl, rfl⟩

theorem commandExchange_calls (ha : a = 0 ∨ a = 1) (hmenu : c.at = .menu) (hloop : s.at = .loop)
    (hops : c.ops = op :: ops) : (commandExchange c s op ops a b φ ψ ha).Calls ftpApp := by
  refine Exchange.calls_plain (call_opener hmenu hops) ?_ rfl rfl
  change some s.call = some .udplastrecv
  rw [Server.call, hloop]

/-- The command is sent, whatever was done of it. -/
theorem Between.leads_command (ha : a = 0 ∨ a = 1) (h : Between c s a b φ ψ J) (hops : c.ops = op :: ops)
    (hthen : ∀ J, (commandExchange c s op ops a b φ ψ ha).Open ftpApp J → Leads ftpApp P J) :
    Leads ftpApp P J := by
  obtain ⟨e, f, w, v⟩ := J
  obtain ⟨hmenu, hloop, hready, hstarts, hrests, hw, hv⟩ := h
  cases hw
  cases hv
  cases hstarts with
  | opened hops' _ he =>
      cases hops.symm.trans hops'
      exact hthen _ ⟨.due he, hrests, rfl⟩
  | sent hops' he =>
      cases hops.symm.trans hops'
      exact hthen _ ⟨.lost rfl he, hrests, rfl⟩
  | menu he =>
      cases hr : opReset op with
      | none =>
          refine hthen _ ⟨.due ?_, hrests, rfl⟩
          have hopened : φ.opened op = φ := by rw [Frame.opened, hr]; rfl
          change Placed e (opener c op ops) .idle a b (φ.opened op)
          rwa [opener_of_none hr, hopened]
      | some r =>
          have hopened : φ.reset r = φ.opened op := by rw [Frame.opened, hr]; rfl
          exact Exchange.leads_early (commandExchange_calls ha hmenu hloop hops)
            (call_reset hmenu hops hr) (resume_reset hmenu hops hr)
            (fun h => hready op ops hops (h ▸ hr)) hopened hthen he hrests

/-- Every run comes to the echo of the command. -/
theorem Between.leads_echo (ha : a = 0 ∨ a = 1) (hb : b = 0 ∨ b = 1) (h : Between c s a b φ ψ J)
    (hops : c.ops = op :: ops)
    (hthen : ∀ J, (echoExchange (c.chosen ops) s op b (1 - a)
        (ψ.heard ⟨a, (c.text (Client.commandText op)).data⟩ (.message (c.text (Client.commandText op))))
        (φ.opened op) hb).Open ftpApp J → Leads ftpApp (fun J => P J.swap) J) :
    Leads ftpApp P J := by
  refine h.leads_command ha hops fun J hJ => ?_
  have hx : (commandExchange c s op ops a b φ ψ ha).y' ftpApp =
      .server (s.goto (.echo (commandBuffer c op))) :=
    congrArg Program.server (resume_command c s op h.loop a)
  exact Exchange.leads_say hJ (commandExchange_calls ha h.menu h.loop hops) hx
    (resume_opener h.menu hops _) rfl rfl hb hthen

end Assign3
end FileTransfer
