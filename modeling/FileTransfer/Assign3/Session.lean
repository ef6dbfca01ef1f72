import FileTransfer.Assign3.Contents

/-!
# A session over a calm network

`PUT` and `GET` from one rest to the next, and from the four operations a whole session: every run of a calm
network does to the two directories what the operations are for, one after the other, and tells it to the user.
-/

namespace FileTransfer
namespace Assign3

open Udp

variable {J : Joint Program} {c : Client} {s : Server} {a b : Int} {φ ψ : Frame} {ops : List Op}
  {name newName : FileName}

/-! ## `PUT` -/

/-- `GetFileFromClient` has created the file. -/
def Server.opened (s : Server) (name newName : FileName) : Server :=
  { s with dir := s.dir.create (target s.dir name newName) }

/-- What is announced the second time. -/
def secondName (s : Server) (name newName : FileName) (content : List Byte) : List Byte :=
  if (s.dir.find? name.chars).isSome then newName.chars else announcement name.chars content.length

def answerText (s : Server) (name : FileName) : List Byte :=
  if (s.dir.find? name.chars).isSome then sameText else createText

theorem afterTaken_answerText (c : Client) (s : Server) (name newName : FileName) (content : List Byte)
    {p : Udppacket} (hp : p.data = .ofBytes (answerText s name)) :
    c.afterTaken name newName content p = c.goto (.again (secondName s name newName content) content) := by
  rw [Client.afterTaken, hp, answerText, secondName]
  cases (s.dir.find? name.chars).isSome <;> rfl

/-- The second announcement is read. -/
theorem announces_second (c : Client) (s : Server) {content : List Byte}
    (h : Uploadable name newName content) :
    Announces (some (.udplastsend (c.text (announcement (secondName s name newName content)
      content.length)))) (target s.dir name newName) content.length := by
  rw [secondName, target]
  cases (s.dir.find? name.chars).isSome with
  | false =>
      exact announces_text rfl (isText_announcement (isText_announcement name.isText _) _)
        h.announceable.again_fits (parse_announcement_twice h.name _)
  | true =>
      exact announces_text rfl (isText_announcement newName.isText _) h.announceable.new_fits
        (parse_announcement h.newName _)

theorem announces_first (c : Client) {content : List Byte} (h : Uploadable name newName content) :
    Announces (some (.udplastsend (c.text (announcement name.chars content.length)))) name.chars
      content.length :=
  announces_text rfl (isText_announcement name.isText _) h.announceable.first_fits
    (parse_announcement h.name _)

/-- An upload. -/
theorem leads_put {f : File} (hb : b = 0 ∨ b = 1) (hφ : φ.side = .client) (h : Between c s 0 b φ ψ J)
    (hops : c.ops = .put name newName :: ops) (hfind : c.dir.find? name.chars = some f)
    (hup : Uploadable name newName f.content)
    (hready : Ready (c.chosen ops) (if f.content = [] then 1 else 0)) :
    Leads ftpApp (fun J => ∃ φ', φ'.side = φ.side ∧ ∃ ψ', ψ'.side = ψ.side ∧
      Between ((c.chosen ops).report .uploaded)
        (((s.opened name newName).wrote (target s.dir name newName) f.content).goto .loop)
        (if f.content = [] then 1 else 0) b φ' ψ' J) J := by
  refine h.leads_echo (.inl rfl) hb hops fun J hJ => ?_
  let op := Op.put name newName
  let c₀ := c.chosen ops
  let file := target s.dir name newName
  have hecho : c₀.afterEcho op = c₀.goto (.announce name newName f.content) := by
    have hfind' : c₀.dir.find? name.chars = some f := hfind
    simp only [op, Client.afterEcho, hfind']
  -- the announcement, while the server sets its numbers
  refine Exchange.leads_say_late (x := .client (c₀.goto (.announce name newName f.content)))
    (y := .server (s.goto .getName)) (m := c₀.text (announcement name.chars f.content.length)) hJ
    (echoExchange_calls _ _ _ _ _ hb) (congrArg Program.client hecho) (echoExchange_x' _ _ _ _ _ hb)
    (r := .getFile) rfl rfl (by decide) rfl rfl rfl (bit_flip (.inl rfl)) fun J hJ => ?_
  -- the answer
  have hname : (s.goto .getName).afterGetName
      ⟨1 - 0, (c₀.text (announcement name.chars f.content.length)).data⟩ =
        s.goto (.answer (answerText s name)) :=
    afterGetName_of_announces _ _ (announces_first c₀ hup)
  refine Exchange.leads_say (x := .server (s.goto (.answer (answerText s name))))
    (y := .client (c₀.goto (.taken name newName f.content))) (m := .whole (.ofBytes (answerText s name)))
    hJ (Exchange.calls_plain rfl rfl rfl rfl) (congrArg Program.server hname) rfl rfl rfl (bit_flip hb)
    fun J hJ => ?_
  -- the second announcement
  let filename := secondName s name newName f.content
  let m := c₀.text (announcement filename f.content.length)
  have htaken : (c₀.goto (.taken name newName f.content)).afterTaken name newName f.content
      ⟨1 - b, (Message.whole (.ofBytes (answerText s name))).data⟩ =
        c₀.goto (.again filename f.content) :=
    afterTaken_answerText _ s name newName f.content (Message.data_whole _)
  refine Exchange.leads_say (x := .client (c₀.goto (.again filename f.content)))
    (y := .server (s.goto .getAgain)) (m := m) hJ (Exchange.calls_plain rfl rfl rfl rfl)
    (congrArg Program.client htaken) rfl rfl rfl (.inl rfl) fun J hJ => ?_
  -- the content
  have hagain : (s.goto .getAgain).afterGetAgain ⟨0, m.data⟩ =
      (s.opened name newName).recvLoop ⟨file, f.content.length⟩ := by
    rw [afterGetAgain_of_announces _ _ (announces_second c₀ s hup)]
    exact Server.recvLoop_goto (s.opened name newName) .getAgain _
  have hy : ftpApp.resume (.server (s.goto .getAgain)) (.udplastrecv ⟨0, m.data⟩) =
      .server ((s.opened name newName).recvLoop ⟨file, f.content.length⟩) :=
    congrArg Program.server hagain
  have hx : ftpApp.resume (.client (c₀.goto (.again filename f.content))) (.udplastsend ⟨0, m.data⟩) =
      .client (c₀.sendLoop (.of f.content (.ofBytes c₀.stack))) :=
    congrArg Program.client (Client.sendLoop_goto _ _ _)
  refine Exchange.leads_listening hJ (Exchange.calls_plain rfl rfl rfl rfl) hx hy
    (fun d hd => Server.recvLoop_listens hd) fun e f' he hf => ?_
  have he' : Placed e _ .idle 1 (1 - (1 - b)) _ := he
  have hf' : Resting ftpApp f' _ (1 - (1 - b)) 1 _ := hf
  rw [sub_sub_cancel] at he' hf'
  refine (leads_upload (.inr rfl) ?_ rfl hready he' hf').trans ?_
  · exact (φ.side_opened op).trans hφ
  · rintro J ⟨φ', hφ', ψ', hψ', hJ⟩
    exact .now ⟨φ', hφ'.trans (φ.side_opened op), ψ', hψ', hJ⟩

/-! ## `GET` -/

/-- The announcement of `PutFileToClient` is read. -/
theorem announces_get (s : Server) {content : List Byte} (h : Downloadable name content) :
    Announces (some (.udplastsend (s.text (announcement name.chars content.length)))) name.chars
      content.length :=
  announces_text rfl (isText_announcement name.isText _) h.fits (parse_announcement h.name _)

/-- `GetFileFromServer` has created the file. -/
def Client.opened (c : Client) (name newName : FileName) : Client :=
  { c with dir := c.dir.create (target c.dir name newName) }

/-- A download. -/
theorem leads_get {f : File} (ha : a = 0 ∨ a = 1) (hb : b = 0 ∨ b = 1) (hψ : ψ.side = .server)
    (h : Between c s a b φ ψ J) (hops : c.ops = .get name newName :: ops)
    (hfind : s.dir.find? name.chars = some f) (hdown : Downloadable name f.content)
    (hready : Ready (c.chosen ops) a) :
    Leads ftpApp (fun J => ∃ φ', φ'.side = φ.side ∧ ∃ ψ', ψ'.side = ψ.side ∧
      Between ((((c.chosen ops).opened name newName).wrote (target c.dir name newName)
          (received f.content)).report .downloaded) (s.goto .loop) a (1 - b) φ' ψ' J) J := by
  refine h.leads_echo ha hb hops fun J hJ => ?_
  let op := Op.get name newName
  let c₀ := c.chosen ops
  let file := target c.dir name newName
  have hname : f.name = name.chars := s.dir.name_of_find? _ hfind
  -- the name, while the server sets its number
  refine Exchange.leads_say_late (x := .client (c₀.goto (.name op))) (y := .server (s.goto .putName))
    (m := c₀.text name.chars) hJ (echoExchange_calls _ _ _ _ _ hb) rfl (echoExchange_x' _ _ _ _ _ hb)
    (r := .putFileToClient) rfl rfl (by decide) rfl rfl rfl (bit_flip ha) fun J hJ => ?_
  -- the announcement
  have hput : (s.goto .putName).afterPutName ⟨1 - a, (c₀.text name.chars).data⟩ =
      s.goto (.announce f) := by
    have hfind' : (s.goto .putName).dir.find? name.chars = some f := hfind
    simp only [Server.afterPutName, cstr_name, hfind']
    rfl
  let m := s.text (announcement name.chars f.content.length)
  have hm : ftpApp.call (.server (s.goto (.announce f))) = some (.udplastsend m) := by
    simp only [m, ← hname]
    rfl
  refine Exchange.leads_say (x := .server (s.goto (.announce f))) (y := .client (c₀.goto (.answer op)))
    (m := m) hJ (Exchange.calls_plain rfl rfl rfl rfl) (congrArg Program.server hput) rfl rfl hm
    (bit_flip hb) fun J hJ => ?_
  -- the content
  have hy : ftpApp.resume (.client (c₀.goto (.answer op))) (.udplastrecv ⟨1 - b, m.data⟩) =
      .client ((c₀.opened name newName).recvLoop ⟨file, f.content.length⟩) := by
    refine congrArg Program.client ?_
    change (c₀.goto _).afterAnnouncement name newName _ = _
    rw [afterAnnouncement_of_announces _ _ _ _ (announces_get s hdown)]
    exact Client.recvLoop_goto (c₀.opened name newName) (.answer op) _
  have hx : ftpApp.resume (.server (s.goto (.announce f))) (.udplastsend ⟨1 - b, m.data⟩) =
      .server (s.sendLoop (.of f.content (.ofBytes s.stack))) :=
    congrArg Program.server (Server.sendLoop_goto _ _ _)
  have hpos : 0 < f.content.length := by
    have hfour := hdown.number
    have hle := Nat.mod_le f.content.length bufferLength
    omega
  have hnext : ∀ d, ftpApp.call (.client ((c₀.opened name newName).recvLoop ⟨file, f.content.length⟩)) =
      some d → d = .udplastrecv ∨ d = .udprecv := by
    intro d hd
    have hloop : (c₀.opened name newName).recvLoop ⟨file, f.content.length⟩ =
        (c₀.opened name newName).goto (.receiving ⟨file, f.content.length⟩) :=
      if_pos (Int.ofNat_lt.2 hpos)
    rw [hloop] at hd
    exact FileReceiving.call_listens (x := ⟨file, f.content.length⟩) (Option.some.inj hd)
  refine Exchange.leads_listening hJ (Exchange.calls_plain hm rfl rfl rfl) hx hy hnext
    fun e f' he hf => ?_
  have he' : Placed e _ .idle (1 - (1 - b)) (1 - (1 - a)) _ := he
  have hf' : Resting ftpApp f' _ (1 - (1 - a)) (1 - (1 - b)) _ := hf
  rw [sub_sub_cancel, sub_sub_cancel] at he' hf'
  refine (leads_download (c := c₀.opened name newName) hb ?_ rfl hdown.number hready he' hf').trans ?_
  · exact hψ
  · rintro J ⟨φ', hφ', ψ', hψ', hJ⟩
    exact .now ⟨φ', hφ'.trans (φ.side_opened op), ψ', hψ', hJ⟩

/-! ## A whole session -/

/-- The two programs as the user sees them. -/
def viewOf (c : Client) (s : Server) : View := ⟨c.dir, s.dir, c.reports⟩

/-- Both are between two operations, where the session has come to `x`, with `ops` to go. -/
def At (x : View × Int) (ops : List Op) (J : Joint Program) : Prop :=
  ∃ c s b φ ψ, c.ops = ops ∧ viewOf c s = x.1 ∧ (x.2 = 0 ∨ x.2 = 1) ∧ (b = 0 ∨ b = 1) ∧
    φ.side = .client ∧ ψ.side = .server ∧ Between c s x.2 b φ ψ J

theorem bit_after (v : View) (ha : a = 0 ∨ a = 1) (op : Op) : bitAfter v a op = 0 ∨ bitAfter v a op = 1 := by
  cases op with
  | list => exact bit_flip ha
  | get | del => exact ha
  | put name _ =>
      by_cases h : (v.here.contentOf name.chars).getD [] = []
      · exact .inr (if_pos h)
      · exact .inl (if_neg h)

/-- The client can begin with the next operation that works. -/
theorem ready_of_admissible {x : View × Int} (hops : c.ops = ops)
    (h : Admissible (fun x op => Works x.1 x.2 op) advance x ops) : Ready c x.2 := by
  intro op ops' hops' hreset
  rw [hops.symm.trans hops'] at h
  cases op with
  | put => exact h.1.1
  | list | get | del => cases hreset

/-- Every run comes from one operation to the next. -/
theorem At.leads_perform {x : View × Int} {op : Op} (h : At x (op :: ops) J)
    (hwork : Works x.1 x.2 op)
    (hnext : Admissible (fun x op => Works x.1 x.2 op) advance (advance x op) ops) :
    Leads ftpApp (At (advance x op) ops) J := by
  obtain ⟨v, a⟩ := x
  obtain ⟨c, s, b, φ, ψ, hops, rfl, ha, hb, hφ, hψ, h⟩ := h
  have hready : Ready (c.chosen ops) (bitAfter (viewOf c s) a op) :=
    ready_of_admissible (x := advance (viewOf c s, a) op) rfl hnext
  have ha' := bit_after (viewOf c s) ha op
  cases op with
  | list =>
      refine (leads_list ha hb h hops hwork hready).trans ?_
      rintro J ⟨b', hb', hJ⟩
      refine .now ⟨_, _, b', _, ψ.commanded c .list a, rfl, rfl, ha', hb', ?_, hψ, hJ⟩
      rw [Frame.side_listed]
      exact hφ
  | get name newName =>
      obtain ⟨f, hfind, hdown⟩ := hwork
      have hperform : (viewOf c s).perform (.get name newName) = viewOf
          ((((c.chosen ops).opened name newName).wrote (target c.dir name newName)
            (received f.content)).report .downloaded) (s.goto .loop) := by
        have hfind' : (viewOf c s).there.find? name.chars = some f := hfind
        simp only [View.perform, hfind']
        rfl
      refine (leads_get ha hb hψ h hops hfind hdown hready).trans ?_
      rintro J ⟨φ', hφ', ψ', hψ', hJ⟩
      exact .now ⟨_, _, 1 - b, φ', ψ', rfl, hperform.symm, ha', bit_flip hb, hφ'.trans hφ, hψ'.trans hψ, hJ⟩
  | put name newName =>
      obtain ⟨hzero, f, hfind, hup⟩ := hwork
      change a = 0 at hzero
      subst hzero
      have hbit : bitAfter (viewOf c s) 0 (.put name newName) = if f.content = [] then 1 else 0 := by
        have hcontent : (viewOf c s).here.contentOf name.chars = some f.content :=
          congrArg (Option.map File.content) hfind
        simp only [bitAfter, hcontent, Option.getD_some]
      have hperform : (viewOf c s).perform (.put name newName) = viewOf
          ((c.chosen ops).report .uploaded)
          (((s.opened name newName).wrote (target s.dir name newName) f.content).goto .loop) := by
        have hfind' : (viewOf c s).here.find? name.chars = some f := hfind
        simp only [View.perform, hfind']
        rfl
      rw [hbit] at hready
      refine (leads_put hb hφ h hops hfind hup hready).trans ?_
      rintro J ⟨φ', hφ', ψ', hψ', hJ⟩
      rw [← hbit] at hJ
      exact .now ⟨_, _, b, φ', ψ', rfl, hperform.symm, ha', hb, hφ'.trans hφ, hψ'.trans hψ, hJ⟩
  | del name =>
      have hperform : (viewOf c s).perform (.del name) = viewOf
          ((c.chosen ops).report (delAnswered s name).2.2) ((delAnswered s name).1.goto .loop) := by
        have hthere : (viewOf c s).there.find? name.chars = s.dir.find? name.chars := rfl
        simp only [View.perform, delAnswered, hthere]
        cases s.dir.find? name.chars <;> rfl
      refine (leads_del ha hb h hops hwork hready).trans ?_
      rintro J ⟨φ', hφ', ψ', hψ', hJ⟩
      exact .now ⟨_, _, b, φ', ψ', rfl, hperform.symm, ha', hb, hφ'.trans hφ, hψ'.trans hψ, hJ⟩

/-- What the user has been told is told in the end. -/
def ToldOf (reports : List Report) (J : Joint Program) : Prop :=
  ∀ c, J.e.app = .client c → c.reports <+: reports

theorem reports_prefix_report (c : Client) (r : Report) : c.reports <+: (c.report r).reports :=
  List.prefix_append _ _

theorem reports_prefix_prints (c : Client) (szbuffer : List Byte) :
    c.reports <+: (c.prints szbuffer).reports :=
  List.prefix_append _ _

theorem reports_prefix_sendLoop (c : Client) (x : FileSending) :
    c.reports <+: (c.sendLoop x).reports := by
  unfold Client.sendLoop
  split
  · exact List.prefix_rfl
  · exact reports_prefix_report c .uploaded

theorem reports_prefix_recvLoop {d : Client} (h : d.reports = c.reports) (x : FileReceiving) :
    c.reports <+: (d.recvLoop x).reports := by
  rw [← h]
  unfold Client.recvLoop
  split
  · exact List.prefix_rfl
  · exact reports_prefix_report d .downloaded

theorem reports_prefix_afterEcho (c : Client) (op : Op) : c.reports <+: (c.afterEcho op).reports := by
  cases op with
  | list | get | del => exact List.prefix_rfl
  | put name newName =>
      unfold Client.afterEcho
      dsimp only
      split
      · exact reports_prefix_report c .noFileHere
      · exact List.prefix_rfl

/-- No report is taken back. -/
theorem reports_prefix_resume (c : Client) (r : Ret) : c.reports <+: (c.resume r).reports := by
  unfold Client.resume
  split
  case h_4 => exact reports_prefix_afterEcho c _
  case h_5 =>
    split
    · exact reports_prefix_report c .listed
    · exact reports_prefix_prints c _
  case h_8 =>
    unfold Client.afterAnnouncement
    dsimp only
    split
    · exact reports_prefix_recvLoop (by rfl) _
    · exact reports_prefix_report c .noFileOnServer
  case h_9 => exact reports_prefix_report c _
  case h_10 =>
    unfold Client.afterTaken
    split <;> exact List.prefix_rfl
  case h_11 => exact reports_prefix_sendLoop c _
  case h_12 => exact reports_prefix_sendLoop c _
  case h_13 => exact reports_prefix_recvLoop (by rfl) _
  all_goals first
    | exact List.prefix_rfl
    | (split <;> exact List.prefix_rfl)

theorem ToldOf.of_step {reports : List Report} {J J' : Joint Program} (hstep : JStep ftpApp J J')
    (h : ToldOf reports J') : ToldOf reports J := by
  intro c hc
  rcases hstep with hown | hown
  · rcases own_returns hown with happ | ⟨r, happ, -⟩
    · exact h c (happ.trans hc)
    · have happ' : J'.e.app = .client (c.resume r) := by
        rw [happ, hc]
        rfl
      exact (reports_prefix_resume c r).trans (h _ happ')
  · have hpeer : J'.e = J.e := own_peer hown
    exact h c (hpeer ▸ hc)

theorem AtRest.between (hrest : AtRest c s J) (hready : Ready c J.e.mem.sendSeq) :
    (J.e.mem.sendSeq = 0 ∨ J.e.mem.sendSeq = 1) ∧ ∃ b, (b = 0 ∨ b = 1) ∧
      Between c s J.e.mem.sendSeq b J.e.frame J.f.frame J := by
  obtain ⟨hmenu, hloop, ⟨a, b, ha, hb, he, hf⟩, hw, hv⟩ := hrest
  cases he.sendSeq
  refine ⟨ha, b, hb, hmenu, hloop, hready, .menu ⟨he, rfl⟩, ?_, hw, hv⟩
  rcases hf with hf | hf
  · exact .idle ⟨hf, rfl⟩
  · have hcall : ftpApp.call (.server s) = some .udplastrecv := by
      simp only [ftpApp, Server.call, hloop]
    exact .listens hcall ⟨hf, rfl⟩

/-- With nothing left to do both are at rest. -/
theorem Between.atRest (h : Between c s a b φ ψ J) (ha : a = 0 ∨ a = 1) (hb : b = 0 ∨ b = 1)
    (hops : c.ops = []) : AtRest c s J := by
  obtain ⟨hmenu, hloop, -, hstarts, hrests, hw, hv⟩ := h
  have he : Placed J.e (.client c) .idle a b φ := by
    cases hstarts with
    | menu he => exact he
    | opened hops' _ _ => cases hops.symm.trans hops'
    | sent hops' _ => cases hops.symm.trans hops'
  refine ⟨hmenu, hloop, ⟨a, b, ha, hb, he.toStands, ?_⟩, hw, hv⟩
  cases hrests with
  | idle hf => exact .inl hf.toStands
  | listens _ hf => exact .inr hf.toStands
  | takesPairs hcall _ =>
      simp only [ftpApp, Server.call, hloop] at hcall
      cases hcall

/-- At rest the user has been told what the client has reported. -/
theorem AtRest.toldOf {reports : List Report} (h : AtRest c s J) (hreports : c.reports = reports) :
    ToldOf reports J := by
  intro c' hc'
  obtain ⟨_, _, -, -, he, -⟩ := h.numbers
  cases he.app.symm.trans hc'
  exact hreports ▸ List.prefix_rfl

/-- A session does to the files what its operations are for, but for the last four bytes of its downloads, and
tells it to the user. -/
theorem session_performs (c : Client) (s : Server) (n : Net (Endpoint Program) Datagram)
    (hrest : AtRest c s (joint .client n)) (hsides : ∀ t, (n.node t).side = t)
    (hwork : AllWork (viewOf c s) (n.node .client).mem.sendSeq c.ops) :
    Until (CalmStep ftpApp)
      (fun n => ToldOf (c.ops.foldl View.perform (viewOf c s)).reports (joint .client n))
      (fun n => ∃ c' s', AtRest c' s' (joint .client n) ∧ c'.ops = [] ∧
        c'.reports = (c.ops.foldl View.perform (viewOf c s)).reports ∧
        (viewOf c' s').files = c.ops.foldl (Files.perform received) (viewOf c s).files ∧
        (viewOf c' s').files.AllNear (c.ops.foldl (Files.perform id) (viewOf c s).files)) n := by
  let v := viewOf c s
  let a := (n.node .client).mem.sendSeq
  obtain ⟨ha, b, hb, hbetween⟩ := hrest.between (ready_of_admissible (x := (v, a)) rfl hwork)
  have hat : At (v, a) c.ops (joint .client n) :=
    ⟨c, s, b, _, _, rfl, rfl, ha, hb, hsides .client, hsides .server, hbetween⟩
  have hleads : Leads ftpApp (At (c.ops.foldl advance (v, a)) []) (joint .client n) :=
    Until.requests (fun _ _ _ _ h hwork hnext => h.leads_perform hwork hnext) hat hwork
  refine (until_joint .client (Q := ToldOf _) (P := fun J => ∃ c' s', AtRest c' s' J ∧ c'.ops = [] ∧
    c'.reports = (c.ops.foldl View.perform v).reports ∧
    (viewOf c' s').files = c.ops.foldl (Files.perform received) v.files ∧
    (viewOf c' s').files.AllNear (c.ops.foldl (Files.perform id) v.files))).2 ?_
  refine Until.of_backward (fun _ _ hstep h => h.of_step hstep) ?_ (hleads.trans fun J hJ => .now ?_)
  · rintro J ⟨c', s', hrest', -, hreports, -⟩
    exact hrest'.toldOf hreports
  · obtain ⟨c', s', b', φ, ψ, hops, hview, ha', hb', -, -, hJ⟩ := hJ
    rw [fst_foldl_advance] at hview
    have hfiles : (viewOf c' s').files = c.ops.foldl (Files.perform received) v.files := by
      rw [hview, View.files_foldl]
    refine ⟨c', s', hJ.atRest ha' hb' hops, hops, congrArg View.reports hview, hfiles, ?_⟩
    rw [hfiles]
    exact (Files.AllNear.refl _).foldl c.ops

/-! ### A file goes there and back -/

/-- Five bytes under the name `a`, and a second name. -/
def sampleFile : File := ⟨[97], [1, 2, 3, 4, 5], true, true⟩

theorem isText_second : IsText [98] := by decide
theorem short_second : [(98 : Byte)].length < bufferLength := by decide

def secondSample : FileName := ⟨[98], isText_second, short_second⟩

def thereAndBack : List Op :=
  [.put sampleName secondSample, .get sampleName secondSample, .list, .del sampleName]

def fileClient : Client := ⟨thereAndBack, .menu, [sampleFile], [], []⟩

theorem uploadable_sample : Uploadable sampleName secondSample sampleFile.content where
  announceable := ⟨by decide, by decide, by decide⟩
  name := by decide
  newName := by decide
  room := by decide

theorem downloadable_sample : Downloadable sampleName sampleFile.content where
  size_lt := by decide
  fits := by decide
  name := by decide
  number := by decide

theorem allWork_thereAndBack : AllWork (viewOf fileClient sampleServer) 0 thereAndBack := by
  refine ⟨⟨rfl, sampleFile, rfl, uploadable_sample⟩, ⟨⟨_, rfl, downloadable_sample⟩, ⟨?_, ?_, trivial⟩⟩⟩
  · intro name hname
    cases List.mem_singleton.1 hname
    exact ⟨by decide, by decide, by decide, by decide⟩
  · intro f hf
    cases hf
    rfl

theorem session_performs_thereAndBack :
    Until (CalmStep ftpApp)
      (fun n => ToldOf [.uploaded, .downloaded, .fileName [97], .listed, .deleted] (joint .client n))
      (fun n => ∃ c' s', AtRest c' s' (joint .client n) ∧ c'.ops = [] ∧
        c'.reports = [.uploaded, .downloaded, .fileName [97], .listed, .deleted] ∧
        (viewOf c' s').files =
          thereAndBack.foldl (Files.perform received) (viewOf fileClient sampleServer).files ∧
        (viewOf c' s').files.AllNear
          (thereAndBack.foldl (Files.perform id) (viewOf fileClient sampleServer).files))
      (menuStart (fun _ => freshMembers) fileClient sampleServer) := by
  have hfresh : freshMembers.prevRecvSeq ≠ 0 := by decide
  have hrest : AtRest fileClient sampleServer
      (joint .client (menuStart (fun _ => freshMembers) fileClient sampleServer)) :=
    ⟨rfl, rfl, ⟨0, 0, .inl rfl, .inl rfl, ⟨rfl, rfl, rfl, hfresh⟩, .inl ⟨rfl, rfl, rfl, hfresh⟩⟩, rfl, rfl⟩
  exact session_performs fileClient sampleServer _ hrest (fun t => by cases t <;> rfl) allWork_thereAndBack

/-! ## What a listing prints -/

/-- `LIST` prints the names of all files that can be seen, in their order, and nothing else, and changes no
file. -/
theorem list_shows (c : Client) (s : Server) (n : Net (Endpoint Program) Datagram)
    (hrest : AtRest c s (joint .client n)) (hops : c.ops = [.list])
    (hnames : ∀ name ∈ s.dir.listed, Listable name) :
    Until (CalmStep ftpApp)
      (fun n' => ToldOf (c.reports ++ s.dir.listed.map .fileName ++ [.listed]) (joint .client n'))
      (fun n' => ∃ c', AtRest c' s (joint .client n') ∧ c'.ops = [] ∧ c'.dir = c.dir ∧
        c'.reports = c.reports ++ s.dir.listed.map .fileName ++ [.listed]) n := by
  have hready : ∀ a, Ready c a := by
    intro a op ops' hops' hreset
    cases hops.symm.trans hops'
    cases hreset
  obtain ⟨ha, b, hb, hbetween⟩ := hrest.between (hready _)
  have hnone : Ready (c.chosen []) (1 - (joint .client n).e.mem.sendSeq) := by
    intro op ops' hops'
    cases hops'
  have hstay : s.goto .loop = s := by
    rw [← hrest.loop]
    rfl
  refine (until_joint .client (Q := ToldOf _) (P := fun J => ∃ c', AtRest c' s J ∧ c'.ops = [] ∧
    c'.dir = c.dir ∧ c'.reports = c.reports ++ s.dir.listed.map .fileName ++ [.listed])).2 ?_
  refine Until.of_backward (fun _ _ hstep h => h.of_step hstep) ?_
    ((leads_list ha hb hbetween hops hnames hnone).trans fun J ⟨b', hb', hJ⟩ => .now ?_)
  · rintro J ⟨c', hrest', -, -, hreports⟩
    exact hrest'.toldOf hreports
  · rw [hstay] at hJ
    exact ⟨_, hJ.atRest (bit_flip ha) hb' rfl, rfl, rfl, rfl⟩

/-- A listing of three files, of which one is hidden. -/
theorem list_shows_two :
    Until (CalmStep ftpApp)
      (fun n => ToldOf [.fileName [97], .fileName [99], .listed] (joint .client n))
      (fun n => ∃ c', AtRest c' ⟨.loop, [sampleFile, ⟨[98], [], false, true⟩, ⟨[99], [7], true, true⟩], []⟩
          (joint .client n) ∧
        c'.ops = [] ∧ c'.dir = [] ∧ c'.reports = [.fileName [97], .fileName [99], .listed])
      (menuStart (fun _ => freshMembers) (sampleClient [.list])
        ⟨.loop, [sampleFile, ⟨[98], [], false, true⟩, ⟨[99], [7], true, true⟩], []⟩) := by
  have hfresh : freshMembers.prevRecvSeq ≠ 0 := by decide
  have hrest : AtRest (sampleClient [.list])
      ⟨.loop, [sampleFile, ⟨[98], [], false, true⟩, ⟨[99], [7], true, true⟩], []⟩
      (joint .client (menuStart (fun _ => freshMembers) (sampleClient [.list])
        ⟨.loop, [sampleFile, ⟨[98], [], false, true⟩, ⟨[99], [7], true, true⟩], []⟩)) :=
    ⟨rfl, rfl, ⟨0, 0, .inl rfl, .inl rfl, ⟨rfl, rfl, rfl, hfresh⟩, .inl ⟨rfl, rfl, rfl, hfresh⟩⟩, rfl, rfl⟩
  refine list_shows _ _ _ hrest rfl ?_
  intro name hname
  rcases List.mem_cons.1 hname with rfl | hname
  · exact ⟨by decide, by decide, by decide, by decide⟩
  · cases List.mem_singleton.1 hname
    exact ⟨by decide, by decide, by decide, by decide⟩

end Assign3
end FileTransfer
