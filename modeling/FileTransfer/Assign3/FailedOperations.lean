import FileTransfer.Assign3.PairTransfer
import FileTransfer.Assign3.Turns

/-!
# Operations that fail

What becomes of the two programs when a file is missing or cannot be deleted, over a calm network.  Only
`DEL` of a file that the server does not have brings both back to where they were.  The other cases
end in a trap: a set of states that no step leaves, and in which the two are not at rest.
-/

namespace FileTransfer
namespace Assign3

open Relation Udp

/-! ## What is asked of a failed operation -/

/-- The reports of a failure. -/
def Report.isFailure : Report → Bool
  | .noFileOnServer | .noFileHere | .notExist => true
  | .fileName _ | .listed | .downloaded | .uploaded | .deleted => false

/-- The operation must fail: the file is missing, or the server cannot delete it. -/
def Fails (c : Client) (s : Server) : Op → Prop
  | .list => False
  | .get name _ => s.dir.find? name.chars = none
  | .put name _ => c.dir.find? name.chars = none
  | .del name => ∀ f, s.dir.find? name.chars = some f → f.deletable = false

/-- The names and contents of the files. -/
def contents (d : Dir) : List (List Byte × List Byte) := d.map fun f => (f.name, f.content)

/-- Between two operations: the client is at its menu, the server in its loop, nothing is on its way,
and neither end takes the other one's next packet for a repetition. -/
structure AtRest (c : Client) (s : Server) (J : Joint Program) : Prop where
  menu : c.at = .menu
  loop : s.at = .loop
  numbers : ∃ a b : Int, (a = 0 ∨ a = 1) ∧ (b = 0 ∨ b = 1) ∧ Stands J.e (.client c) .idle a b ∧
    (Stands J.f (.server s) .idle b a ∨ Stands J.f (.server s) .udplastrecv b a)
  sent : J.w = []
  answered : J.v = []

def ClientKeeps (c : Client) (p : Program) : Prop :=
  ∃ c', p = .client c' ∧ contents c'.dir = contents c.dir

def ServerKeeps (s : Server) (p : Program) : Prop :=
  ∃ s', p = .server s' ∧ contents s'.dir = contents s.dir

/-- No file has been created, changed or removed. -/
def Untouched (c : Client) (s : Server) (J : Joint Program) : Prop :=
  ClientKeeps c J.e.app ∧ ServerKeeps s J.f.app

/-- The client has reported a failure, and both are at rest again with the files they had. -/
def KeptInStep (c : Client) (s : Server) (J : Joint Program) : Prop :=
  ∃ c' s' r, AtRest c' s' J ∧ c'.ops = [] ∧ c'.reports = c.reports ++ [r] ∧ r.isFailure = true ∧
    contents c'.dir = contents c.dir ∧ contents s'.dir = contents s.dir

variable {c : Client} {s : Server} {J J' : Joint Program}

/-- At rest, without another choice from the menu, nothing happens any more. -/
theorem KeptInStep.step (h : KeptInStep c s J) (hstep : JStep ftpApp J J') : KeptInStep c s J' := by
  obtain ⟨c', s', r, hrest, hops, hreport, hfailure, hdir, hdir'⟩ := h
  obtain ⟨e, f, w, v⟩ := J
  obtain ⟨hmenu, hloop, ⟨a, b, ha, hb, he, hf⟩, hw, hv⟩ := hrest
  cases hw
  cases hv
  refine ⟨c', s', r, ?_, hops, hreport, hfailure, hdir, hdir'⟩
  rcases hstep with h | h
  · obtain ⟨c, hcall, -⟩ := (own_idle he.ctl).1 h
    rw [show (⟨e, f, [], []⟩ : Joint Program).e.app = .client c' from he.app] at hcall
    simp only [ftpApp, Client.call, hmenu, hops] at hcall
    cases hcall
  · rcases hf with hf | hf
    · obtain ⟨c, hcall, hJ⟩ := (own_idle hf.ctl).1 h
      have hJ' : J' = ⟨e, (f.begin ftpApp c).1, [], [] ++ (f.begin ftpApp c).2⟩ :=
        congrArg Joint.swap hJ
      rw [show (Joint.swap ⟨e, f, [], []⟩ : Joint Program).e.app = .server s' from hf.app] at hcall
      simp only [ftpApp, Server.call, hloop, Option.some.injEq] at hcall
      cases hcall
      cases hJ'
      exact ⟨hmenu, hloop, ⟨a, b, ha, hb, he, .inr (hf.listen (A := ftpApp)).1⟩, rfl, rfl⟩
    · obtain ⟨j, d, v, hv, -⟩ := (own_recv hf.ctl).1 h
      cases hv

/-! ## The turns of an operation -/

/-- The buffer that brings the command to the server. -/
def commandBuffer (c : Client) (op : Op) : Buffer := textBuffer (Client.commandText op) c.stack

theorem cstr_commandBuffer (c : Client) (op : Op) :
    cstr (commandBuffer c op).bytes = Client.commandText op := by
  have htext : IsText (Client.commandText op) ∧ (Client.commandText op).length < bufferLength := by
    cases op with
    | list => exact (by decide : IsText listText ∧ listText.length < bufferLength)
    | get => exact (by decide : IsText getText ∧ getText.length < bufferLength)
    | put => exact (by decide : IsText putText ∧ putText.length < bufferLength)
    | del => exact (by decide : IsText delText ∧ delText.length < bufferLength)
  exact cstr_textBuffer c.stack htext.1 htext.2

section Turns

variable (c : Client) (s : Server) (op : Op)

theorem resume_command (hloop : s.at = .loop) (n : Int) :
    s.resume (.udplastrecv ⟨n, (c.text (Client.commandText op)).data⟩) =
      s.goto (.echo (commandBuffer c op)) := by
  have hdata : (c.text (Client.commandText op)).data = commandBuffer c op := Message.data_whole _
  have hdispatch : s.dispatch (commandBuffer c op) = s.goto (.echo (commandBuffer c op)) := by
    apply if_pos
    rw [cstr_commandBuffer]
    cases op <;> simp [Client.commandText]
  simp only [Server.resume, hloop, hdata, hdispatch]

theorem handler_command :
    s.handler (commandBuffer c op) =
      match op with
      | .list => s.goto (.listing s.dir.listed)
      | .get _ _ => s.goto .putReset
      | .put _ _ => s.goto .getReset
      | .del _ => s.goto .delName := by
  unfold Server.handler
  rw [cstr_commandBuffer]
  cases op <;> rfl

/-- The command. -/
def commandTurn (x : Program) (a b : Int) (ha : a = 0 ∨ a = 1) (hb : b = 0 ∨ b = 1) : Turn Program where
  x := x
  y := .server s
  m := c.text (Client.commandText op)
  a := a
  b := b
  plain := rfl
  bit_a := ha
  bit_b := hb

/-- Its echo. -/
def echoTurn (a b : Int) (ha : a = 0 ∨ a = 1) (hb : b = 0 ∨ b = 1) : Turn Program where
  x := .server (s.goto (.echo (commandBuffer c op)))
  y := .client (c.goto (.echo op))
  m := .whole (commandBuffer c op)
  a := a
  b := b
  plain := rfl
  bit_a := ha
  bit_b := hb

/-- The name. -/
def nameTurn (s' : ServerAt) (name : FileName) (a b : Int) (ha : a = 0 ∨ a = 1)
    (hb : b = 0 ∨ b = 1) : Turn Program where
  x := .client (c.goto (.name op))
  y := .server (s.goto s')
  m := c.text name.chars
  a := a
  b := b
  plain := rfl
  bit_a := ha
  bit_b := hb

/-- The server has no such file to delete. -/
def missingTurn (a b : Int) (ha : a = 0 ∨ a = 1) (hb : b = 0 ∨ b = 1) : Turn Program where
  x := .server (s.goto (.delAnswer missingText))
  y := .client (c.goto (.answer op))
  m := s.text missingText
  a := a
  b := b
  plain := rfl
  bit_a := ha
  bit_b := hb

variable {c s op} {x : Program} {name : FileName} {a b : Int} {ha : a = 0 ∨ a = 1} {hb : b = 0 ∨ b = 1}
  {ha' : 1 - a = 0 ∨ 1 - a = 1} {hb' : 1 - b = 0 ∨ 1 - b = 1}

theorem commandTurn_calls (hx : ftpApp.call x = some (.udplastsend (c.text (Client.commandText op))))
    (hloop : s.at = .loop) : (commandTurn c s op x a b ha hb).Calls ftpApp where
  speaks := hx
  listens := by
    change some s.call = some .udplastrecv
    rw [Server.call, hloop]

theorem commandTurn_follows (hx : ∀ p, ftpApp.resume x (.udplastsend p) = .client (c.goto (.echo op)))
    (hloop : s.at = .loop) :
    (commandTurn c s op x a b ha hb).Follows ftpApp (echoTurn c s op b (1 - a) hb ha') where
  x := congrArg Program.server (resume_command c s op hloop a)
  y := hx _
  a := rfl
  b := rfl

theorem echoTurn_calls : (echoTurn c s op a b ha hb).Calls ftpApp := ⟨rfl, rfl⟩

theorem nameTurn_calls {s' : ServerAt} (hop : (c.goto (.name op)).call =
      some (.udplastsend (c.text name.chars))) (hs' : (s.goto s').call = .udplastrecv) :
    (nameTurn c s op s' name a b ha hb).Calls ftpApp where
  speaks := hop
  listens := congrArg some hs'

end Turns

/-! ## `DEL` of a missing file -/

/-- A turn between these two programs changes no file. -/
structure TurnKeeps (client server : Program → Prop) (T : Turn Program) : Prop where
  x : client T.x
  x' : client (T.x' ftpApp)
  y : server T.y
  y' : server (T.y' ftpApp)

theorem TurnKeeps.untouched {T : Turn Program} (h : TurnKeeps (ClientKeeps c) (ServerKeeps s) T)
    (J : Joint Program) (he : J.e.app = T.x ∨ J.e.app = T.x' ftpApp)
    (hf : J.f.app = T.y ∨ J.f.app = T.y' ftpApp) : Untouched c s J :=
  ⟨he.elim (fun he => he ▸ h.x) fun he => he ▸ h.x', hf.elim (fun hf => hf ▸ h.y) fun hf => hf ▸ h.y'⟩

theorem TurnKeeps.untouched_swap {T : Turn Program} (h : TurnKeeps (ServerKeeps s) (ClientKeeps c) T)
    (J : Joint Program) (he : J.e.app = T.x ∨ J.e.app = T.x' ftpApp)
    (hf : J.f.app = T.y ∨ J.f.app = T.y' ftpApp) : Untouched c s J.swap :=
  ⟨hf.elim (fun hf => hf ▸ h.y) fun hf => hf ▸ h.y', he.elim (fun he => he ▸ h.x) fun he => he ▸ h.x'⟩

section Del

variable {name : FileName}

theorem call_del (hmenu : c.at = .menu) (hops : c.ops = [.del name]) :
    ftpApp.call (.client c) = some (.udplastsend (c.text delText)) := by
  simp only [ftpApp, Client.call, hmenu, hops, Client.commandText]

theorem resume_del (hmenu : c.at = .menu) (hops : c.ops = [.del name]) (p : Udppacket) :
    ftpApp.resume (.client c) (.udplastsend p) =
      .client (({ c with ops := [] } : Client).goto (.echo (.del name))) := by
  simp only [ftpApp, Client.resume, hmenu, hops]

theorem cstr_name (c : Client) (name : FileName) : cstr (c.text name.chars).data.bytes = name.chars := by
  rw [Client.text, Message.data_whole]
  exact cstr_textBuffer c.stack name.isText name.short

section Names

variable {p : Udppacket}

theorem afterDelName_missing (hmiss : s.dir.find? (cstr p.data.bytes) = none) :
    s.afterDelName p = s.goto (.delAnswer missingText) := by
  simp only [Server.afterDelName, hmiss]

theorem afterDelName_locked {f : File} (hfind : s.dir.find? (cstr p.data.bytes) = some f)
    (hlocked : f.deletable = false) : s.afterDelName p =
      ({ s with dir := s.dir.clearAttributes (cstr p.data.bytes) } : Server).goto .loop := by
  simp only [Server.afterDelName, hfind, hlocked, Bool.false_eq_true, if_false]

theorem afterPutName_missing (hmiss : s.dir.find? (cstr p.data.bytes) = none) :
    s.afterPutName p = s.goto (.noSuchFile (cstr p.data.bytes)) := by
  simp only [Server.afterPutName, hmiss]

theorem afterEcho_put_missing {name newName : FileName} (hmiss : c.dir.find? name.chars = none) :
    c.afterEcho (.put name newName) = c.report .noFileHere := by
  simp only [Client.afterEcho, hmiss]

end Names

theorem echo_follows_del {a b : Int} {ha : a = 0 ∨ a = 1} {hb : b = 0 ∨ b = 1}
    {ha' : 1 - a = 0 ∨ 1 - a = 1} :
    (echoTurn c s (.del name) a b ha hb).Follows ftpApp
      (nameTurn c s (.del name) .delName name b (1 - a) hb ha') where
  x := rfl
  y := congrArg Program.server (handler_command c (s.goto _) (.del name))
  a := rfl
  b := rfl

theorem AtRest.open {x : Program} {a b : Int} {op : Op} {ha : a = 0 ∨ a = 1} {hb : b = 0 ∨ b = 1}
    (he : Stands J.e x .idle a b)
    (hf : Stands J.f (.server s) .idle b a ∨ Stands J.f (.server s) .udplastrecv b a) (hw : J.w = [])
    (hv : J.v = []) : (commandTurn c s op x a b ha hb).Open J := by
  refine ⟨?_, ?_, hv⟩
  · rw [hw]
    exact .due he
  · exact hf.elim (fun hf => Turn.Listens.idle hf) fun hf => Turn.Listens.waits hf

theorem del_missing_in_step {name : FileName} (hrest : AtRest c s J) (hops : c.ops = [.del name])
    (hmiss : s.dir.find? name.chars = none) :
    Until (JStep ftpApp) (Untouched c s) (KeptInStep c s) J := by
  obtain ⟨hmenu, hloop, ⟨a, b, ha, hb, he, hf⟩, hw, hv⟩ := hrest
  have ha' : 1 - a = 0 ∨ 1 - a = 1 := by omega
  have hb' : 1 - b = 0 ∨ 1 - b = 1 := by omega
  have ha'' : 1 - (1 - a) = 0 ∨ 1 - (1 - a) = 1 := by omega
  have hmissing : (s.goto .delName).afterDelName ⟨1 - a, (c.text name.chars).data⟩ =
      s.goto (.delAnswer missingText) :=
    afterDelName_missing (by rwa [cstr_name])
  -- the four turns
  let c₀ : Client := { c with ops := [] }
  let T₁ := commandTurn c₀ s (.del name) (.client c) a b ha hb
  let T₂ := echoTurn c₀ s (.del name) b (1 - a) hb ha'
  let T₃ := nameTurn c₀ s (.del name) .delName name (1 - a) (1 - b) ha' hb'
  let T₄ := missingTurn c₀ s (.del name) (1 - b) (1 - (1 - a)) hb' ha''
  have h₁₂ : T₁.Follows ftpApp T₂ := commandTurn_follows (resume_del hmenu hops) hloop
  have h₂₃ : T₂.Follows ftpApp T₃ := echo_follows_del
  have h₃₄ : T₃.Follows ftpApp T₄ := ⟨congrArg Program.server hmissing, rfl, rfl, rfl⟩
  have hcalls₁ : T₁.Calls ftpApp := commandTurn_calls (call_del hmenu hops) hloop
  have hcalls₂ : T₂.Calls ftpApp := echoTurn_calls
  have hcalls₃ : T₃.Calls ftpApp := nameTurn_calls rfl rfl
  have hcalls₄ : T₄.Calls ftpApp := ⟨rfl, rfl⟩
  have hclient : ∀ p, ClientKeeps c (.client (c₀.goto p)) := fun p => ⟨_, rfl, rfl⟩
  have hserver : ∀ p, ServerKeeps s (.server (s.goto p)) := fun p => ⟨_, rfl, rfl⟩
  have hreport : T₄.y' ftpApp = .client ((c₀.goto (.answer (.del name))).report .notExist) := by
    have hmark : (s.text missingText).data.bytes.take 1 = ascii "#" := by
      rw [Server.text, Message.data_whole]
      rfl
    change Program.client ((c₀.goto (.answer (.del name))).report
      (if (s.text missingText).data.bytes.take 1 = ascii "#" then .notExist else .deleted)) = _
    rw [if_pos hmark]
  have k₁ : TurnKeeps (ClientKeeps c) (ServerKeeps s) T₁ :=
    ⟨⟨c, rfl, rfl⟩, h₁₂.y ▸ hclient (.echo (.del name)), ⟨s, rfl, rfl⟩, h₁₂.x ▸ hserver (.echo _)⟩
  have k₂ : TurnKeeps (ServerKeeps s) (ClientKeeps c) T₂ :=
    ⟨hserver (.echo _), h₂₃.y ▸ hserver .delName, hclient (.echo (.del name)),
      hclient (.name (.del name))⟩
  have k₃ : TurnKeeps (ClientKeeps c) (ServerKeeps s) T₃ :=
    ⟨hclient (.name (.del name)), hclient (.answer (.del name)), hserver .delName,
      h₃₄.x ▸ hserver (.delAnswer missingText)⟩
  have k₄ : TurnKeeps (ServerKeeps s) (ClientKeeps c) T₄ :=
    ⟨hserver (.delAnswer missingText), hserver .loop, hclient (.answer (.del name)),
      hreport ▸ ⟨_, rfl, rfl⟩⟩
  -- from the last turn backward
  have h₄ : ∀ J, T₄.Open J → Until (JStep ftpApp) (fun J => Untouched c s J.swap)
      (fun J => KeptInStep c s J.swap) J := by
    intro J hJ
    have hanswers : ftpApp.call (T₄.y' ftpApp) = none := hreport ▸ rfl
    refine (Turn.until_rest k₄.untouched_swap hcalls₄ hanswers hJ).trans ?_
    intro J hJ
    have hlistener := hJ.listener
    rw [hreport] at hlistener
    exact .now ⟨(c₀.goto (.answer (.del name))).report .notExist, s.goto .loop, .notExist,
      ⟨rfl, rfl, ⟨1 - (1 - a), 1 - (1 - b), ha'', by omega, hlistener, .inl hJ.speaker⟩, hJ.answered,
        hJ.sent⟩, rfl, rfl, rfl, rfl, rfl⟩
  have h₃ : ∀ J, T₃.Open J → Until (JStep ftpApp) (Untouched c s) (KeptInStep c s) J := fun J hJ =>
    Turn.until_follows k₃.untouched hcalls₃ hcalls₄ h₃₄ h₄ hJ
  have h₂ : ∀ J, T₂.Open J → Until (JStep ftpApp) (fun J => Untouched c s J.swap)
      (fun J => KeptInStep c s J.swap) J := fun J hJ =>
    Turn.until_follows k₂.untouched_swap hcalls₂ hcalls₃ h₂₃ h₃ hJ
  have hopen : T₁.Open J := AtRest.open he hf hw hv
  exact Turn.until_follows k₁.untouched hcalls₁ hcalls₂ h₁₂ h₂ hopen

end Del

/-! ## Ends without rest -/

/-- A closed set in which the two are not at rest can be reached. -/
theorem not_until_of_closed {Q I : Joint Program → Prop}
    (hstep : ∀ J J', I J → JStep ftpApp J J' → I J') (hend : ∀ J, I J → ¬ KeptInStep c s J)
    (hreach : ReflTransGen (JStep ftpApp) J J') (hJ' : I J') :
    ¬ Until (JStep ftpApp) Q (KeptInStep c s) J := by
  intro h
  exact Until.not_of_closed hstep hend hJ' (h.of_reach (fun _ _ hkept hs => hkept.step hs) hreach)

theorem not_until_of_mute {Q : Joint Program → Prop} {c' : Client} {s' : Server}
    (hc' : Silent ftpApp (.client c')) (hs' : Silent ftpApp (.server s'))
    (hne : c'.at ≠ .menu ∨ s'.at ≠ .loop) (hreach : ReflTransGen (JStep ftpApp) J J')
    (hJ' : Mute ftpApp (.client c') (.server s') J') :
    ¬ Until (JStep ftpApp) Q (KeptInStep c s) J := by
  refine not_until_of_closed (fun _ _ h => h.step hc' hs') ?_ hreach hJ'
  rintro J hmute ⟨c'', s'', r, hrest, -⟩
  obtain ⟨a, b, -, -, he, hf⟩ := hrest.numbers
  have hc : c'' = c' := Program.client.inj (he.app.symm.trans hmute.one.1)
  have hs : s'' = s' := by
    rcases hf with hf | hf <;> exact Program.server.inj (hf.app.symm.trans hmute.other.1)
  subst hc hs
  exact hne.elim (fun h => h hrest.menu) fun h => h hrest.loop

section Reach

variable {op : Op} {x : Program} {a b : Int} {ha : a = 0 ∨ a = 1} {hb : b = 0 ∨ b = 1}

/-- The command and its echo. -/
theorem reach_echo (ha' : 1 - a = 0 ∨ 1 - a = 1)
    (hx : ftpApp.call x = some (.udplastsend (c.text (Client.commandText op))))
    (hx' : ∀ p, ftpApp.resume x (.udplastsend p) = .client (c.goto (.echo op)))
    (hloop : s.at = .loop) (hopen : (commandTurn c s op x a b ha hb).Open J) :
    ∃ J', ReflTransGen (JStep ftpApp) J J' ∧ (echoTurn c s op b (1 - a) hb ha').Rest ftpApp J'.swap := by
  obtain ⟨J₁, h₁, hrest₁⟩ := Turn.reach_rest (commandTurn_calls hx hloop) hopen
  have hopen₂ := hrest₁.follows
    (commandTurn_follows hx' hloop : Turn.Follows _ _ (echoTurn c s op b (1 - a) hb ha'))
  obtain ⟨J₂, h₂, hrest₂⟩ := Turn.reach_rest echoTurn_calls hopen₂
  exact ⟨J₂.swap, h₁.trans (reach_swap h₂), hrest₂⟩

end Reach

/-! ## `DEL` of a file that cannot be deleted -/

/-- `delFiles` sends no answer when `DeleteFile` fails: the client waits for it, and the server waits
for a command. -/
theorem del_undeletable_not {Q : Joint Program → Prop} {name : FileName} {f : File}
    (hrest : AtRest c s J) (hops : c.ops = [.del name]) (hfind : s.dir.find? name.chars = some f)
    (hlocked : f.deletable = false) : ¬ Until (JStep ftpApp) Q (KeptInStep c s) J := by
  obtain ⟨hmenu, hloop, ⟨a, b, ha, hb, he, hf⟩, hw, hv⟩ := hrest
  have ha' : 1 - a = 0 ∨ 1 - a = 1 := by omega
  have hb' : 1 - b = 0 ∨ 1 - b = 1 := by omega
  let c₀ : Client := { c with ops := [] }
  let s₁ : Server := { s with dir := s.dir.clearAttributes name.chars }
  let T₁ := commandTurn c₀ s (.del name) (.client c) a b ha hb
  let T₃ := nameTurn c₀ s (.del name) .delName name (1 - a) (1 - b) ha' hb'
  have hopen : T₁.Open J := AtRest.open he hf hw hv
  -- command, echo and name go through
  obtain ⟨J₂, h₂, hrest₂⟩ :=
    reach_echo (c := c₀) ha' (call_del hmenu hops) (resume_del hmenu hops) hloop hopen
  have hopen₃ : T₃.Open J₂ := hrest₂.follows echo_follows_del
  obtain ⟨J₃, h₃, hrest₃⟩ := Turn.reach_rest (nameTurn_calls rfl rfl) hopen₃
  have hsilence : (s.goto .delName).afterDelName ⟨1 - a, (c.text name.chars).data⟩ = s₁.goto .loop := by
    rw [afterDelName_locked (by rwa [cstr_name]) hlocked, cstr_name]
    rfl
  -- nobody speaks any more
  have hmute : Mute ftpApp (.client (c₀.goto (.answer (.del name)))) (.server (s₁.goto .loop)) J₃ := by
    refine ⟨⟨hrest₃.speaker.app, .inl hrest₃.speaker.ctl⟩, ⟨?_, .inl hrest₃.listener.ctl⟩, hrest₃.sent,
      hrest₃.answered⟩
    rw [hrest₃.listener.app, ← hsilence]
    rfl
  have haway : (c₀.goto (.answer (.del name))).at ≠ .menu := by rintro ⟨⟩
  exact not_until_of_mute (.inr rfl) (.inr rfl) (.inl haway) (h₂.trans h₃) hmute

/-! ## `PUT` of a file that the client does not have -/

section Begin

variable {r : Reset} {op : Op} {a b a' : Int}

/-- `GET` and `PUT` reset numbers first. -/
theorem reach_reset (he : Stands J.e (.client c) .idle a b)
    (hcall : ftpApp.call (.client c) = some (.reset r)) (hmenu : c.at = .menu) (hops : c.ops = [op])
    (ha' : (J.e.mem.reset r).sendSeq = a') (hw : J.w = []) :
    ∃ J', JStep ftpApp J J' ∧
      Stands J'.e (.client (({ c with ops := [] } : Client).goto (.command op))) .idle a' b ∧
      J'.f = J.f ∧ J'.w = [] ∧ J'.v = J.v := by
  refine ⟨_, .inl ((own_idle he.ctl).2 ⟨_, he.app.symm ▸ hcall, rfl⟩), ?_, rfl, ?_, rfl⟩
  · have hreset := he.reset (A := ftpApp) r ha'
    have happ : ftpApp.resume (.client c) .done =
        .client (({ c with ops := [] } : Client).goto (.command op)) := by
      simp only [ftpApp, Client.resume, hmenu, hops]
    rwa [happ] at hreset
  · rw [hw]
    rfl

/-- So does the server, which keeps `Send_Seq`. -/
theorem reach_server_reset {s₁ s₂ : Server} (hf : Stands J.f (.server s₁) .idle a b)
    (hcall : s₁.call = .reset r) (hresume : s₁.resume .done = s₂) (hr : r ≠ .putFileToServer)
    (hv : J.v = []) :
    ∃ J', JStep ftpApp J J' ∧ J'.e = J.e ∧ Stands J'.f (.server s₂) .idle a b ∧ J'.w = J.w ∧
      J'.v = [] := by
  have hcall' : ftpApp.call J.f.app = some (.reset r) := by
    rw [hf.app]
    exact congrArg some hcall
  have hkept : (J.f.mem.reset r).sendSeq = a := by
    cases r with
    | putFileToServer => exact absurd rfl hr
    | putFileToClient | getFile => exact hf.sendSeq
  have hreset := hf.reset (A := ftpApp) r hkept
  refine ⟨⟨J.e, (J.f.begin ftpApp (.reset r)).1, J.w, J.v ++ (J.f.begin ftpApp (.reset r)).2⟩,
    .inr ((own_idle hf.ctl).2 ⟨_, hcall', rfl⟩), rfl, ?_, rfl, ?_⟩
  · rw [← hresume]
    exact hreset
  · change J.v ++ [] = []
    rw [hv]
    rfl

end Begin

theorem put_missing_not {Q : Joint Program → Prop} {name newName : FileName} (hrest : AtRest c s J)
    (hops : c.ops = [.put name newName]) (hmiss : c.dir.find? name.chars = none) :
    ¬ Until (JStep ftpApp) Q (KeptInStep c s) J := by
  obtain ⟨hmenu, hloop, ⟨a, b, ha, hb, he, hf⟩, hw, hv⟩ := hrest
  have hcall : ftpApp.call (.client c) = some (.reset .putFileToServer) := by
    simp only [ftpApp, Client.call, hmenu, hops]
  have hzero : (J.e.mem.reset .putFileToServer).sendSeq = 0 := rfl
  obtain ⟨J₁, h₁, he₁, hf₁, hw₁, hv₁⟩ := reach_reset he hcall hmenu hops hzero hw
  let op : Op := .put name newName
  let c₀ : Client := { c with ops := [] }
  let T₁ := commandTurn c₀ s op (.client (c₀.goto (.command op))) 0 b (.inl rfl) hb
  have hloops : ∀ k, Stands J.f (.server s) k b a → J.f.mem.prevRecvSeq ≠ 0 →
      Stands J₁.f (.server s) k b 0 := by
    intro k hk hprev
    rw [hf₁]
    exact ⟨hk.app, hk.ctl, hk.sendSeq, hprev⟩
  by_cases hprev : J.f.mem.prevRecvSeq = 0
  · -- the command has the number of the packet before it, and is dropped
    have happ : J₁.f.app = .server s := by
      rw [hf₁]
      exact hf.elim (·.app) (·.app)
    have hctl : J₁.f.ctl = .idle ∨ J₁.f.ctl = .udplastrecv := by
      rw [hf₁]
      exact hf.imp (·.ctl) (·.ctl)
    obtain ⟨J₂, h₂, he₂, happ₂, hctl₂, hw₂, hv₂⟩ :=
      Turn.reach_dropped (T := T₁) (commandTurn_calls rfl hloop) he₁ happ hctl (hf₁ ▸ hprev) hw₁
        (hv₁.trans hv)
    have hmute : Mute ftpApp (.client (c₀.goto (.echo op))) (.server s) J₂ :=
      ⟨⟨he₂.app, .inl he₂.ctl⟩, ⟨happ₂, .inr hctl₂⟩, hw₂, hv₂⟩
    have hs : Silent ftpApp (.server s) := by
      right
      simp only [ftpApp, Server.call, hloop]
    have haway : (c₀.goto (.echo op)).at ≠ .menu := by rintro ⟨⟩
    exact not_until_of_mute (.inr rfl) hs (.inl haway) (.head h₁ h₂) hmute
  · -- the client is back at its menu, and the server waits for an announcement
    have hopen : T₁.Open J₁ :=
      AtRest.open he₁ (hf.imp (hloops _ · hprev) (hloops _ · hprev)) hw₁ (hv₁.trans hv)
    obtain ⟨J₂, h₂, hrest₂⟩ := reach_echo (c := c₀) (.inr rfl) rfl (fun _ => rfl) hloop hopen
    have hreport : (c₀.goto (.echo op)).afterEcho op = (c₀.goto (.echo op)).report .noFileHere :=
      afterEcho_put_missing hmiss
    have hhandler :
        (s.goto (.echo (commandBuffer c₀ op))).handler (commandBuffer c₀ op) = s.goto .getReset :=
      handler_command c₀ (s.goto _) op
    have hserver := hrest₂.speaker
    change Stands J₂.f (.server ((s.goto (.echo (commandBuffer c₀ op))).handler _)) _ _ _ at hserver
    rw [hhandler] at hserver
    have hclient : J₂.e.app = .client ((c₀.goto (.echo op)).report .noFileHere) :=
      hrest₂.listener.app.trans (congrArg Program.client hreport)
    obtain ⟨J₃, h₃, he₃, hf₃, hw₃, hv₃⟩ := reach_server_reset hserver rfl rfl (by decide) hrest₂.sent
    have hmute : Mute ftpApp (.client ((c₀.goto (.echo op)).report .noFileHere))
        (.server (s.goto .getName)) J₃ :=
      ⟨he₃ ▸ ⟨hclient, .inl hrest₂.listener.ctl⟩, ⟨hf₃.app, .inl hf₃.ctl⟩,
        hw₃.trans hrest₂.answered, hv₃⟩
    have haway : (s.goto .getName).at ≠ .loop := by rintro ⟨⟩
    exact not_until_of_mute (.inl rfl) (.inr rfl) (.inr haway) (.head h₁ (h₂.tail h₃)) hmute

/-! ## `GET` of a file that the server does not have

`PutFileToClient` sends the name in halves with `udpsend`, and `GetFileFromServer` reads it with
`udplastrecv`, whose answers are no acknowledgements of halves. -/

/-- The datagram arrives whole and acknowledges no half. -/
def NoPairAck (d : Datagram) : Prop := d.len = sizeofUdppacket ∧ d.pkt.data.bytes.take 1 ≠ ascii "A"

/-- The server sends the name, and no half of it is acknowledged. -/
def Stuck (f : Endpoint Program) : Prop :=
  (∃ s' filename, f.app = .server s' ∧ s'.at = .noSuchFile filename) ∧
    (f.ctl = .idle ∨ ∃ r, f.ctl = .udpsendFirst r false false ∨ f.ctl = .udpsendSecond r false false)

/-- The client waits for the announcement, or has told the user that there is none. -/
def Asks (e : Endpoint Program) : Prop :=
  ∃ c', e.app = .client c' ∧ c'.ops = [] ∧
    ((∃ name newName, c'.at = .answer (.get name newName) ∧ (e.ctl = .idle ∨ e.ctl = .udplastrecv)) ∨
      (c'.at = .menu ∧ e.ctl = .idle))

/-- The client takes the name for an announcement. -/
def Fetches (e : Endpoint Program) : Prop :=
  ∃ c', e.app = .client c' ∧ c'.ops = [] ∧
    ((∃ x, c'.at = .receiving x) ∨
      (c'.at = .menu ∧ e.ctl = .idle ∧ c'.reports.getLast? = some .downloaded))

inductive Missed (J : Joint Program) : Prop where
  | asks : Asks J.e → Stuck J.f → (∀ d ∈ J.w, NoPairAck d) → Missed J
  | fetches : Fetches J.e → Missed J

theorem not_acknowledges {d : Datagram} (h : NoPairAck d) {x : Members} {cap : Nat} (hcap : 5 ≤ cap)
    (n : Int) : acknowledges (x.readFirst cap d).recvmsg n = false := by
  by_contra hne
  exact h.2 (acknowledges_readFirst h.1 hcap (Bool.eq_true_of_not_eq_false hne)).1

theorem not_acknowledges_second {d : Datagram} (h : NoPairAck d) {x : Members} (n : Int) :
    acknowledges (x.readSecond d).recvmsg2 n = false := by
  have hread : (x.readSecond d).recvmsg2 = d.pkt := by
    rw [Members.readSecond, recvfrom_full _ h.1]
  rw [hread]
  by_contra hne
  exact h.2 (acknowledges_iff.1 (Bool.eq_true_of_not_eq_false hne)).1

theorem udpsendLoop_stuck {f : Endpoint Program} (arrived : Bool) (r : Nat) (slideid1 slideid2 : Bool)
    (h : ¬ (slideid1 = true ∧ slideid2 = true)) :
    f.udpsendLoop arrived r slideid1 slideid2 =
      { f with ctl := .udpsendFirst r slideid1 slideid2 } :=
  if_pos (.inr h)

/-- Without an acknowledgement of a half the server never leaves `udpsend`. -/
theorem Stuck.own (h : Stuck J.e) (hv : ∀ d ∈ J.v, NoPairAck d) (hown : Own ftpApp J J') :
    Stuck J'.e ∧ ∀ d ∈ J'.v, NoPairAck d := by
  obtain ⟨⟨s', l, happ, hat⟩, hctl⟩ := h
  have hno : ¬ ((false : Bool) = true ∧ (false : Bool) = true) := by decide
  cases hown with
  | @run c hcall =>
      -- the server begins to send the name
      have hidle := nextCall_idle hcall
      rw [Endpoint.nextCall, hidle, happ] at hcall
      simp only [ftpApp, Server.call, hat, Option.some.injEq] at hcall
      subst hcall
      exact ⟨⟨⟨s', l, happ, hat⟩, .inr ⟨0, .inl rfl⟩⟩, hv⟩
  | timeout _ _ htime =>
      -- a timeout: the halves are sent again
      refine ⟨?_, fun _ hd => absurd hd List.not_mem_nil⟩
      unfold Endpoint.timeout at htime
      rcases hctl with hctl | ⟨r, hctl | hctl⟩ <;> rw [hctl] at htime <;>
        simp only [Option.some.injEq, reduceCtorEq] at htime <;> subst htime
      · rw [udpsendLoop_stuck _ _ _ _ hno]
        exact ⟨⟨s', l, happ, hat⟩, .inr ⟨_, .inl rfl⟩⟩
      · rw [udpsendLoop_stuck _ _ _ _ hno]
        exact ⟨⟨s', l, happ, hat⟩, .inr ⟨_, .inl rfl⟩⟩
  | @deliver d v j p hd hpacket =>
      -- what arrives acknowledges no half
      have hwire : ∀ d' ∈ d :: v, NoPairAck d' := hd ▸ hv
      obtain ⟨hfirst, hrest⟩ := List.forall_mem_cons.1 hwire
      refine ⟨?_, hrest⟩
      have hcap : 5 ≤ J.e.firstCap := by
        unfold Endpoint.firstCap
        split <;> decide
      unfold Endpoint.packet at hpacket
      rcases hctl with hctl | ⟨r, hctl | hctl⟩ <;> rw [hctl] at hpacket <;>
        simp only [Option.some.injEq, reduceCtorEq] at hpacket <;> subst hpacket
      · refine ⟨⟨s', l, happ, hat⟩, .inr ⟨r, .inr ?_⟩⟩
        simp only [Endpoint.recvInFirst, not_acknowledges hfirst hcap, Bool.or_false]
      · have hloop := not_acknowledges_second hfirst (x := J.e.mem) (J.e.mem.readSecond d).sendmsg2.seqNo
        simp only [Endpoint.recvInSecond, hloop, Bool.or_false, udpsendLoop_stuck _ _ _ _ hno]
        exact ⟨⟨s', l, happ, hat⟩, .inr ⟨_, .inl rfl⟩⟩

/-- `udplastrecv` goes on, or returns to the program. -/
theorem recvInLast_cases {π : Type*} {A : App π} {e : Endpoint π} (j : Junk) (d : Datagram) :
    ((e.recvInLast A j d).1.app = e.app ∧ (e.recvInLast A j d).1.ctl = e.ctl) ∨
      ∃ p, (e.recvInLast A j d).1.app = A.resume e.app (.udplastrecv p) ∧
        (e.recvInLast A j d).1.ctl = .idle := by
  have hloop : ∀ x : Members, ∀ o,
      ((({ e with mem := x } : Endpoint π).udplastrecvLoop A o).app = e.app ∧
        (({ e with mem := x } : Endpoint π).udplastrecvLoop A o).ctl = e.ctl) ∨
      ∃ p, (({ e with mem := x } : Endpoint π).udplastrecvLoop A o).app =
          A.resume e.app (.udplastrecv p) ∧
        (({ e with mem := x } : Endpoint π).udplastrecvLoop A o).ctl = .idle := by
    intro x o
    unfold Endpoint.udplastrecvLoop
    dsimp only
    split
    · exact .inl ⟨rfl, rfl⟩
    · exact .inr ⟨_, rfl, rfl⟩
  unfold Endpoint.recvInLast
  dsimp only
  split <;> exact hloop _ _

/-- The answers of `udplastrecv` acknowledge no half. -/
theorem noPairAck_recvInLast {π : Type*} {A : App π} {e : Endpoint π} (j : Junk) (d : Datagram) :
    ∀ d' ∈ (e.recvInLast A j d).2, NoPairAck d' := by
  have htext : ∀ (p : Udppacket) (n : Int) (junk : List Byte),
      (p.data.overlay ((ackData (ackPrefix e.side) n junk).take bufferLength)).bytes.take 1 ≠
        ascii "A" := by
    intro p n junk
    rw [Buffer.take_overlay _ _ (by decide), List.take_take]
    · cases e.side <;> simp [ackData, ackPrefix, ascii, bufferLength]
    · cases e.side <;> simp [ackData, ackPrefix, ascii, bufferLength]
  unfold Endpoint.recvInLast
  dsimp only
  split
  · intro d' hd'
    rw [List.mem_singleton.1 hd']
    exact ⟨rfl, htext _ _ _⟩
  · intro d' hd'
    exact absurd hd' List.not_mem_nil

theorem fetches_of_recvLoop {e : Endpoint Program} {c' : Client} {x : FileReceiving}
    (happ : e.app = .client (c'.recvLoop x)) (hctl : e.ctl = .idle) (hops : c'.ops = []) : Fetches e := by
  unfold Client.recvLoop at happ
  split at happ
  · exact ⟨_, happ, hops, .inl ⟨x, rfl⟩⟩
  · refine ⟨_, happ, hops, .inr ⟨rfl, hctl, ?_⟩⟩
    simp only [Client.report, List.getLast?_append, List.getLast?_singleton, Option.some_or]

/-- A client that receives goes on to receive, and reports that it has. -/
theorem Fetches.own (h : Fetches J.e) (hown : Own ftpApp J J') : Fetches J'.e := by
  obtain ⟨c', happ, hops, hat⟩ := h
  rcases hat with ⟨x, hat⟩ | ⟨hmenu, hctl, -⟩
  · rcases own_returns hown with hsame | ⟨ret, hret, hctl⟩
    · exact ⟨c', hsame.trans happ, hops, .inl ⟨x, hat⟩⟩
    · have hresume : ftpApp.resume J.e.app ret = .client
          (({ c' with dir := c'.dir.append x.name (x.next ret).1 } : Client).recvLoop (x.next ret).2) := by
        simp only [happ, ftpApp, Client.resume, hat]
      exact fetches_of_recvLoop (hret.trans hresume) hctl hops
  · obtain ⟨c, hcall, -⟩ := (own_idle hctl).1 hown
    rw [happ] at hcall
    simp only [ftpApp, Client.call, hmenu, hops] at hcall
    cases hcall

/-- What the client makes of the first packet. -/
theorem asks_or_fetches {e : Endpoint Program} {c' : Client} {name newName : FileName} {p : Udppacket}
    (happ : e.app = .client (c'.afterAnnouncement name newName p)) (hctl : e.ctl = .idle)
    (hops : c'.ops = []) : Asks e ∨ Fetches e := by
  unfold Client.afterAnnouncement at happ
  dsimp only at happ
  split at happ
  · exact .inr (fetches_of_recvLoop happ hctl hops)
  · exact .inl ⟨_, happ, hops, .inr ⟨rfl, hctl⟩⟩

theorem Asks.own (h : Asks J.e) (hw : ∀ d ∈ J.w, NoPairAck d) (hown : Own ftpApp J J') :
    (Asks J'.e ∧ ∀ d ∈ J'.w, NoPairAck d) ∨ Fetches J'.e := by
  obtain ⟨c', happ, hops, hat⟩ := h
  rcases hat with ⟨name, newName, hat, hctl | hctl⟩ | ⟨hmenu, hctl⟩
  · -- the client begins to wait
    obtain ⟨c, hcall, rfl⟩ := (own_idle hctl).1 hown
    rw [happ] at hcall
    simp only [ftpApp, Client.call, hat, Option.some.injEq] at hcall
    subst hcall
    refine .inl ⟨⟨c', happ, hops, .inl ⟨name, newName, hat, .inr rfl⟩⟩, ?_⟩
    change ∀ d ∈ J.w ++ [], NoPairAck d
    rwa [List.append_nil]
  · -- something arrives
    obtain ⟨j, d, v, -, rfl⟩ := (own_recv hctl).1 hown
    have hwire : ∀ d' ∈ J.w ++ (J.e.recvInLast ftpApp j d).2, NoPairAck d' := fun d' hd' =>
      (List.mem_append.1 hd').elim (hw d') (noPairAck_recvInLast j d d')
    rcases recvInLast_cases (A := ftpApp) (e := J.e) j d with ⟨hsame, hctl'⟩ | ⟨p, hret, hctl'⟩
    · exact .inl
        ⟨⟨c', hsame.trans happ, hops, .inl ⟨name, newName, hat, .inr (hctl'.trans hctl)⟩⟩, hwire⟩
    · have hresume : ftpApp.resume J.e.app (.udplastrecv p) =
          .client (c'.afterAnnouncement name newName p) := by
        simp only [happ, ftpApp, Client.resume, hat]
      exact (asks_or_fetches (hret.trans hresume) hctl' hops).imp_left (⟨·, hwire⟩)
  · obtain ⟨c, hcall, -⟩ := (own_idle hctl).1 hown
    rw [happ] at hcall
    simp only [ftpApp, Client.call, hmenu, hops] at hcall
    cases hcall

theorem Missed.step (h : Missed J) (hstep : JStep ftpApp J J') : Missed J' := by
  rcases hstep with hown | hown
  · cases h with
    | asks hasks hstuck hw =>
        have hf : J'.f = J.f := own_peer hown
        rcases hasks.own hw hown with ⟨hasks', hw'⟩ | hfetches
        · exact .asks hasks' (hf ▸ hstuck) hw'
        · exact .fetches hfetches
    | fetches h => exact .fetches (h.own hown)
  · have he : J'.e = J.e := own_peer hown
    cases h with
    | asks hasks hstuck hw =>
        obtain ⟨hstuck', hw'⟩ := Stuck.own (J := J.swap) hstuck hw hown
        exact .asks (he ▸ hasks) hstuck' hw'
    | fetches h => exact .fetches (he ▸ h)

theorem Missed.not_kept (h : Missed J) : ¬ KeptInStep c s J := by
  rintro ⟨c', s', r, hrest, -, hreports, hfailure, -⟩
  obtain ⟨a, b, -, -, he, hf⟩ := hrest.numbers
  cases h with
  | asks _ hstuck _ =>
      obtain ⟨⟨s'', l, happ, hat⟩, -⟩ := hstuck
      have hs : s' = s'' := by
        rcases hf with hf | hf <;> exact Program.server.inj (hf.app.symm.trans happ)
      rw [← hs, hrest.loop] at hat
      cases hat
  | fetches h =>
      obtain ⟨c'', happ, -, hat⟩ := h
      have hc : c' = c'' := Program.client.inj (he.app.symm.trans happ)
      subst hc
      rcases hat with ⟨x, hat⟩ | ⟨-, -, hlast⟩
      · cases hrest.menu.symm.trans hat
      · rw [hreports, List.getLast?_concat] at hlast
        cases hlast
        cases hfailure

theorem get_missing_not {Q : Joint Program → Prop} {name newName : FileName} (hrest : AtRest c s J)
    (hops : c.ops = [.get name newName]) (hmiss : s.dir.find? name.chars = none) :
    ¬ Until (JStep ftpApp) Q (KeptInStep c s) J := by
  obtain ⟨hmenu, hloop, ⟨a, b, ha, hb, he, hf⟩, hw, hv⟩ := hrest
  have ha' : 1 - a = 0 ∨ 1 - a = 1 := by omega
  have hb' : 1 - b = 0 ∨ 1 - b = 1 := by omega
  have hcall : ftpApp.call (.client c) = some (.reset .getFile) := by
    simp only [ftpApp, Client.call, hmenu, hops]
  have hkept : (J.e.mem.reset .getFile).sendSeq = a := he.sendSeq
  -- the client resets its numbers, sends the command and takes the echo
  obtain ⟨J₁, h₁, he₁, hf₁, hw₁, hv₁⟩ := reach_reset he hcall hmenu hops hkept hw
  let op : Op := .get name newName
  let c₀ : Client := { c with ops := [] }
  let T₁ := commandTurn c₀ s op (.client (c₀.goto (.command op))) a b ha hb
  let T₃ := nameTurn c₀ s op .putName name (1 - a) (1 - b) ha' hb'
  have hopen : T₁.Open J₁ := AtRest.open he₁ (hf₁ ▸ hf) hw₁ (hv₁.trans hv)
  obtain ⟨J₂, h₂, hrest₂⟩ := reach_echo (c := c₀) ha' rfl (fun _ => rfl) hloop hopen
  -- the server resets its numbers as well and takes the name
  have hhandler :
      (s.goto (.echo (commandBuffer c₀ op))).handler (commandBuffer c₀ op) = s.goto .putReset :=
    handler_command c₀ (s.goto _) op
  have hserver := hrest₂.speaker
  change Stands J₂.f (.server ((s.goto (.echo (commandBuffer c₀ op))).handler _)) _ _ _ at hserver
  rw [hhandler] at hserver
  obtain ⟨J₃, h₃, he₃, hf₃, hw₃, hv₃⟩ := reach_server_reset hserver rfl rfl (by decide) hrest₂.sent
  have hopen₃ : T₃.Open J₃ := by
    refine ⟨?_, .idle hf₃, hv₃⟩
    rw [he₃, hw₃, show J₂.w = [] from hrest₂.answered]
    exact .due hrest₂.listener
  obtain ⟨J₄, h₄, hrest₄⟩ := Turn.reach_rest (nameTurn_calls rfl rfl) hopen₃
  have hname : (s.goto .putName).afterPutName ⟨1 - a, (c₀.text name.chars).data⟩ =
      s.goto (.noSuchFile name.chars) := by
    rw [afterPutName_missing (by rwa [cstr_name]), cstr_name]
    rfl
  -- now it sends the name in halves, and the client waits for an announcement
  have hmissed : Missed J₄ := by
    refine .asks ⟨c₀.goto (.answer op), hrest₄.speaker.app, rfl,
      .inl ⟨name, newName, rfl, .inl hrest₄.speaker.ctl⟩⟩
      ⟨⟨s.goto (.noSuchFile name.chars), name.chars, ?_, rfl⟩, .inl hrest₄.listener.ctl⟩ ?_
    · exact hrest₄.listener.app.trans (congrArg Program.server hname)
    · rw [hrest₄.sent]
      exact fun _ hd => absurd hd List.not_mem_nil
  exact not_until_of_closed (fun _ _ h hs => h.step hs) (fun _ h => h.not_kept)
    (.head h₁ ((h₂.tail h₃).trans h₄)) hmissed

/-! ## Every failing operation -/

/-- A failing operation brings both back to where they were exactly when it is `DEL` of a file that the
server does not have. -/
theorem failed_in_step (c : Client) (s : Server) (n : Net (Endpoint Program) Datagram) (op : Op)
    (hrest : AtRest c s (joint .client n)) (hops : c.ops = [op]) (hfails : Fails c s op) :
    Until (CalmStep ftpApp) (fun n => Untouched c s (joint .client n))
        (fun n => KeptInStep c s (joint .client n)) n ↔
      ∃ name, op = .del name ∧ s.dir.find? name.chars = none := by
  rw [until_joint]
  constructor
  · intro h
    cases op with
    | list => exact hfails.elim
    | get name newName => exact absurd h (get_missing_not hrest hops hfails)
    | put name newName => exact absurd h (put_missing_not hrest hops hfails)
    | del name =>
        cases hfind : s.dir.find? name.chars with
        | none => exact ⟨name, rfl, hfind⟩
        | some f => exact absurd h (del_undeletable_not hrest hops hfind (hfails f hfind))
  · rintro ⟨name, rfl, hmiss⟩
    exact del_missing_in_step hrest hops hmiss

/-- The two programs after the handshake are at rest. -/
theorem atRest_menuStart (ops : List Op) : AtRest (sampleClient ops) sampleServer
    (joint .client (menuStart (fun _ => freshMembers) (sampleClient ops) sampleServer)) where
  menu := rfl
  loop := rfl
  numbers := by
    have hfresh : freshMembers.prevRecvSeq ≠ 0 := by decide
    exact ⟨0, 0, .inl rfl, .inl rfl, ⟨rfl, rfl, rfl, hfresh⟩, .inl ⟨rfl, rfl, rfl, hfresh⟩⟩
  sent := rfl
  answered := rfl

theorem failed_in_step_del :
    Until (CalmStep ftpApp)
      (fun n => Untouched (sampleClient [.del sampleName]) sampleServer (joint .client n))
      (fun n => KeptInStep (sampleClient [.del sampleName]) sampleServer (joint .client n))
      (menuStart (fun _ => freshMembers) (sampleClient [.del sampleName]) sampleServer) :=
  (failed_in_step (sampleClient [.del sampleName]) sampleServer _ (.del sampleName) (atRest_menuStart _) rfl
    (fun _ h => nomatch h)).2 ⟨sampleName, rfl, rfl⟩

/-- `GET` of the same file. -/
theorem get_out_of_step :
    ¬ Until (CalmStep ftpApp)
      (fun n => Untouched (sampleClient [.get sampleName sampleName]) sampleServer (joint .client n))
      (fun n => KeptInStep (sampleClient [.get sampleName sampleName]) sampleServer (joint .client n))
      (menuStart (fun _ => freshMembers) (sampleClient [.get sampleName sampleName]) sampleServer) := by
  rw [until_joint]
  exact get_missing_not (atRest_menuStart _) rfl rfl

end Assign3
end FileTransfer
