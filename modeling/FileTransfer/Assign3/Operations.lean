import FileTransfer.Assign3.Menu

/-!
# Listings and deletions

What `LIST` and `DEL` come to over a calm network, from one rest to the next.  A listing ends with the first
packet that begins with `@`.
-/

namespace FileTransfer
namespace Assign3

open Udp

variable {P : Joint Program → Prop} {J : Joint Program} {c : Client} {s : Server} {a b : Int}
  {φ ψ : Frame} {ops : List Op}

theorem bit_flip (ha : a = 0 ∨ a = 1) : 1 - a = 0 ∨ 1 - a = 1 := by omega

/-- After the command and its echo. -/
def Frame.commanded (ψ : Frame) (c : Client) (op : Op) (a : Int) : Frame :=
  ψ.heard ⟨a, (c.text (Client.commandText op)).data⟩ (.message (c.text (Client.commandText op)))

def Frame.echoed (φ : Frame) (c : Client) (op : Op) (b : Int) : Frame :=
  (φ.opened op).heard ⟨b, (Message.whole (commandBuffer c op)).data⟩
    (.message (.whole (commandBuffer c op)))

theorem echoExchange_calls (c : Client) (s : Server) (op : Op) (ψ φ : Frame) (hb : b = 0 ∨ b = 1) :
    (echoExchange c s op b a ψ φ hb).Calls ftpApp :=
  Exchange.calls_plain rfl rfl rfl rfl

/-- The server after the echo. -/
theorem echoExchange_x' (c : Client) (s : Server) (op : Op) (ψ φ : Frame) (hb : b = 0 ∨ b = 1) :
    (echoExchange c s op b a ψ φ hb).x' ftpApp = .server
      (match op with
      | .list => s.goto (.listing s.dir.listed)
      | .get _ _ => s.goto .putReset
      | .put _ _ => s.goto .getReset
      | .del _ => s.goto .delName) :=
  congrArg Program.server (handler_command c (s.goto _) op)

/-! ## `LIST` -/

/-- What `listFiles` sends next. -/
def listingMessage (s : Server) : List (List Byte) → Message
  | [] => s.text doneText
  | name :: _ => s.text name

/-- A name on its way, or the end mark. -/
def listingExchange (c : Client) (s : Server) (names : List (List Byte)) (b a : Int) (ψ φ : Frame)
    (hb : b = 0 ∨ b = 1) : Exchange Program :=
  .say (.server (s.goto (.listing names))) (.client (c.goto .names)) (listingMessage s names) b a ψ φ hb

theorem listingExchange_calls (names : List (List Byte)) (hb : b = 0 ∨ b = 1) :
    (listingExchange c s names b a ψ φ hb).Calls ftpApp := by
  refine Exchange.calls_plain ?_ rfl ?_ rfl
  · cases names <;> rfl
  · cases names <;> rfl

/-- The first character of a text. -/
theorem take_one_textBuffer (text stack : List Byte) :
    (textBuffer text stack).bytes.take 1 = (text ++ [0]).take 1 := by
  rw [textBuffer, Buffer.ofBytes, List.take_take]
  cases text <;> rfl

theorem cstr_listed {name : List Byte} (h : IsText name) (hlen : name.length < bufferLength) :
    cstr (s.text name).data.bytes = name := by
  rw [Server.text, Message.data_whole]
  exact cstr_textBuffer s.stack h hlen

theorem Client.printed_nil (c : Client) : c.printed [] = c := by
  rw [printed, List.map_nil, List.append_nil]

/-- The end mark ends the listing. -/
theorem resume_done {p : Udppacket} (h : p.data.bytes.take 1 = ascii "@") :
    (c.goto .names).resume (.udplastrecv p) = c.report .listed :=
  if_pos h

/-- A name is printed. -/
theorem resume_name {name : List Byte} {n : Int} (h : Listable name) :
    (c.goto .names).resume (.udplastrecv ⟨n, (s.text name).data⟩) = (c.printed [name]).goto .names := by
  have hfirst : (s.text name).data.bytes.take 1 = name.take 1 := by
    rw [Server.text, Message.data_whole, take_one_textBuffer]
    cases name with
    | nil => exact absurd rfl h.nonempty
    | cons x l => rfl
  have hother : ¬ (s.text name).data.bytes.take 1 = ascii "@" := by
    rw [hfirst]
    exact h.mark
  have hshown : ¬ (s.text name).data.bytes.take 1 = [0] := by
    rw [hfirst]
    intro hzero
    have hmem : (0 : Byte) ∈ name := List.mem_of_mem_take (hzero ▸ List.mem_singleton.2 rfl)
    exact h.isText 0 hmem rfl
  refine (if_neg hother).trans ?_
  change (c.goto .names).prints (s.text name).data.bytes = _
  rw [Client.prints, if_neg hshown, cstr_listed h.isText h.short]
  rfl

/-- The packets of a listing as the client's `udplastrecv` returns them. -/
def Frame.listed (φ : Frame) (s : Server) : List (List Byte) → Int → Frame
  | [], b => φ.heard ⟨b, (s.text doneText).data⟩ (.message (s.text doneText))
  | name :: names, b => (φ.heard ⟨b, (s.text name).data⟩ (.message (s.text name))).listed s names (1 - b)

theorem Frame.side_listed (φ : Frame) (s : Server) (names : List (List Byte)) (b : Int) :
    (φ.listed s names b).side = φ.side := by
  induction names generalizing φ b with
  | nil => rfl
  | cons name names ih => exact ih _ _

/-- The names go over one by one and are printed, and the end mark behind them. -/
theorem leads_listing {names : List (List Byte)} (hnames : ∀ name ∈ names, Listable name)
    (hb : b = 0 ∨ b = 1) (hready : Ready c a)
    (h : (listingExchange c s names b a ψ φ hb).Open ftpApp J) :
    Leads ftpApp (fun J => ∃ b', (b' = 0 ∨ b' = 1) ∧
      Between ((c.printed names).report .listed) (s.goto .loop) a b' (φ.listed s names b) ψ J.swap) J := by
  induction names generalizing b c φ J with
  | nil =>
      have hmark : (s.text doneText).data.bytes.take 1 = ascii "@" := by
        rw [Server.text, Message.data_whole, take_one_textBuffer]
        rfl
      have hy : (listingExchange c s [] b a ψ φ hb).y' ftpApp = .client (c.report .listed) :=
        congrArg Program.client (resume_done hmark)
      rw [c.printed_nil]
      refine (leads_menu h (listingExchange_calls [] hb) rfl hy rfl rfl hready).trans fun J hJ => ?_
      exact .now ⟨_, bit_flip hb, hJ⟩
  | cons name names ih =>
      have hy : (listingExchange c s (name :: names) b a ψ φ hb).y' ftpApp =
          .client ((c.printed [name]).goto .names) :=
        congrArg Program.client (resume_name (hnames name List.mem_cons_self))
      refine Exchange.leads_again (m := listingMessage s names) h (listingExchange_calls _ hb)
        (x := .server (s.goto (.listing names))) rfl hy rfl (bit_flip hb) ?_
      intro J hJ
      have hprinted : c.printed (name :: names) = (c.printed [name]).printed names :=
        (c.printed_printed [name] names).symm
      rw [hprinted]
      exact ih (c := c.printed [name]) (fun name' h' => hnames name' (List.mem_cons_of_mem _ h'))
        (bit_flip hb) hready hJ

/-- A listing. -/
theorem leads_list (ha : a = 0 ∨ a = 1) (hb : b = 0 ∨ b = 1) (h : Between c s a b φ ψ J)
    (hops : c.ops = .list :: ops)
    (hnames : ∀ name ∈ s.dir.listed, Listable name)
    (hready : Ready (c.chosen ops) (1 - a)) :
    Leads ftpApp (fun J => ∃ b', (b' = 0 ∨ b' = 1) ∧
      Between (((c.chosen ops).printed s.dir.listed).report .listed) (s.goto .loop) (1 - a) b'
        ((φ.echoed c .list b).listed s s.dir.listed (1 - b))
        (ψ.commanded c .list a) J) J := by
  refine h.leads_echo ha hb hops fun J hJ => ?_
  let names := s.dir.listed
  refine Exchange.leads_again (m := listingMessage s names) hJ (echoExchange_calls _ _ _ _ _ hb)
    (echoExchange_x' _ _ _ _ _ hb) (y := .client ((c.chosen ops).goto .names)) rfl rfl (bit_flip hb)
    fun J hJ => ?_
  exact leads_listing hnames (bit_flip hb) hready hJ

/-! ## `DEL` -/

/-- What `delFiles` answers, and the directory then. -/
def delAnswered (s : Server) (name : FileName) : Server × List Byte × Report :=
  match s.dir.find? name.chars with
  | none => (s, missingText, .notExist)
  | some _ => ({ s with dir := s.dir.delete name.chars }, doneText, .deleted)

theorem afterDelName_answered {name : FileName}
    (hdel : ∀ f, s.dir.find? name.chars = some f → f.deletable = true) {p : Udppacket}
    (hp : cstr p.data.bytes = name.chars) :
    s.afterDelName p = (delAnswered s name).1.goto (.delAnswer (delAnswered s name).2.1) := by
  rw [Server.afterDelName, hp, delAnswered]
  cases hfind : s.dir.find? name.chars with
  | none => rfl
  | some f =>
      dsimp only
      rw [if_pos (hdel f hfind)]

/-- What the client makes of the answer. -/
theorem report_delAnswered (name : FileName) (x : Server) :
    (if (x.text (delAnswered s name).2.1).data.bytes.take 1 = ascii "#" then Report.notExist
      else .deleted) = (delAnswered s name).2.2 := by
  rw [Server.text, Message.data_whole, take_one_textBuffer, delAnswered]
  cases s.dir.find? name.chars <;> rfl

/-- A deletion. -/
theorem leads_del {name : FileName} (ha : a = 0 ∨ a = 1) (hb : b = 0 ∨ b = 1)
    (h : Between c s a b φ ψ J) (hops : c.ops = .del name :: ops)
    (hdel : ∀ f, s.dir.find? name.chars = some f → f.deletable = true)
    (hready : Ready (c.chosen ops) a) :
    Leads ftpApp (fun J => ∃ φ', φ'.side = φ.side ∧ ∃ ψ', ψ'.side = ψ.side ∧
      Between ((c.chosen ops).report (delAnswered s name).2.2) ((delAnswered s name).1.goto .loop) a b
        φ' ψ' J) J := by
  refine h.leads_echo ha hb hops fun J hJ => ?_
  let c₀ := c.chosen ops
  let s₀ := (delAnswered s name).1
  let answer := (delAnswered s name).2.1
  have hname : (s.goto .delName).afterDelName ⟨1 - a, (c₀.text name.chars).data⟩ =
      s₀.goto (.delAnswer answer) :=
    afterDelName_answered hdel (cstr_name _ _)
  have hreport : (c₀.goto (.answer (.del name))).resume
      (.udplastrecv ⟨1 - b, (s₀.text answer).data⟩) = c₀.report (delAnswered s name).2.2 :=
    congrArg c₀.report (report_delAnswered name s₀)
  -- the name
  refine Exchange.leads_say (x := .client (c₀.goto (.name (.del name)))) (y := .server (s.goto .delName))
    (m := c₀.text name.chars) hJ (echoExchange_calls _ _ _ _ _ hb) rfl (echoExchange_x' _ _ _ _ _ hb) rfl
    rfl (bit_flip ha) fun J hJ => ?_
  -- the answer
  refine Exchange.leads_say (x := .server (s₀.goto (.delAnswer answer)))
    (y := .client (c₀.goto (.answer (.del name)))) (m := s₀.text answer) hJ
    (Exchange.calls_plain rfl rfl rfl rfl) (congrArg Program.server hname) rfl rfl rfl (bit_flip hb)
    fun J hJ => ?_
  have hready' : Ready (c₀.report (delAnswered s name).2.2) (1 - (1 - a)) := by
    rw [sub_sub_cancel]
    exact hready
  refine (leads_menu (s := s₀.goto .loop) hJ (Exchange.calls_plain rfl rfl rfl rfl) rfl
    (congrArg Program.client hreport) rfl rfl hready').trans fun J hJ => .now ?_
  have hrest : Between _ (s₀.goto .loop) (1 - (1 - a)) (1 - (1 - b)) _ _ J.swap := hJ
  rw [sub_sub_cancel, sub_sub_cancel] at hrest
  refine ⟨_, ?_, _, ?_, hrest⟩
  · exact φ.side_opened (.del name)
  · rfl

end Assign3
end FileTransfer
