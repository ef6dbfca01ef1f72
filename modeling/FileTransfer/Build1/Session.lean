import FileTransfer.Build1.Connection

/-!
# What the functions of the client come to

The four functions that use a connection, each with the thread that serves it, and then the choices of the menu of
`StartClient.cpp`, one after the other.
-/

namespace FileTransfer
namespace Build1

open Conversation Listing

/-! ## The functions -/

section Functions

variable (mem : Fileinfo) (removeFails : Bool) (c : Client) {s₀ : Server} (dir : Directory) (name : FileName)

/-- How the client is left by `GetFileFromServer`. -/
def Client.got : Client :=
  match dir.content name.chars with
  | some content => c.ended (c.dir.write name.chars content) [.downloaded]
  | none => c.ended c.dir [.noFileOnServer]

/-- A download brings the file of the server, or the user is told that there is none. -/
theorem get_delivers (hrests : s₀.Rests)
    (hsent : ∀ content, s₀.dir.content name.chars = some content → SentOnce content)
    (hname : name.chars ≠ Serving.noSuchFile) :
    Until (Connection.Step mem removeFails) (fun _ => True)
      (fun x => Ended mem removeFails x (c.got s₀.dir name) .returned s₀.dir) (.start c (.get name) s₀) := by
  cases hfind : s₀.dir.content name.chars with
  | some content =>
      have hgot : c.got s₀.dir name = c.ended (c.dir.write name.chars content) [.downloaded] := by
        rw [Client.got, hfind]
      have hlen := hsent content hfind
      have hcstr : cstr (Serving.serverfile name content).filename = name.chars :=
        cstr_charArray name.isText name.short
      rw [hgot]
      exact until_of_programs mem removeFails c hrests (.inl rfl) (c.plays_get hcstr (longOfWord_size hlen.1))
        ((Serving.accepted mem removeFails s₀).plays_get c hfind hlen)
  | none =>
      have hgot : c.got s₀.dir name = c.ended c.dir [.noFileOnServer] := by
        rw [Client.got, hfind]
      have hother : cstr (charArray filenameLength Serving.noSuchFile) ≠ name.chars := by
        rw [cstr_charArray (by decide) (by decide)]
        exact hname.symm
      rw [hgot]
      exact until_of_programs mem removeFails c hrests (.inl rfl)
        (c.plays_get_missing (length_charArray _ _) hother)
        ((Serving.accepted mem removeFails s₀).plays_get_missing c hfind)

/-- A client that holds these files and nothing on its stack. -/
def sampleClient (dir : Directory) : Client := ⟨.returned, dir, [], []⟩

/-- A file of three buffers, the last of them not full. -/
def threeBuffers : List Byte := List.replicate 300 7

theorem get_delivers_threeBuffers :
    Until (Connection.Step ones false) (fun _ => True)
      (fun x => Ended ones false x ((sampleClient []).got [⟨[97], threeBuffers, true⟩] smallName) .returned
        [⟨[97], threeBuffers, true⟩])
      (.start (sampleClient []) (.get smallName) (.start [⟨[97], threeBuffers, true⟩])) :=
  get_delivers ones false (sampleClient []) smallName (Server.rests_start [⟨[97], threeBuffers, true⟩])
    (fun content h => by cases h; decide +kernel) (by decide)

/-- How the client, the thread and the directory are left by `PutFileToServer`. -/
def Client.putDone : Client × Pc × Directory :=
  match c.dir.content name.chars with
  | some content => (c.ended c.dir [.uploaded], .returned, dir.write name.chars content)
  -- the thread waits for the record of a file
  | none => (c.ended c.dir [.noFileHere], .handler .put 0 (.getFile (.record mem)), dir)

/-- An upload leaves the file of the client in the directory of the server. -/
theorem put_stores (hrests : s₀.Rests)
    (hsent : ∀ content, c.dir.content name.chars = some content → SentOnce content) :
    Until (Connection.Step mem removeFails) (fun _ => True)
      (fun x => Ended mem removeFails x (c.putDone mem s₀.dir name).1 (c.putDone mem s₀.dir name).2.1
        (c.putDone mem s₀.dir name).2.2) (.start c (.put name) s₀) := by
  cases hfind : c.dir.content name.chars with
  | some content =>
      have hdone : c.putDone mem s₀.dir name =
          (c.ended c.dir [.uploaded], .returned, s₀.dir.write name.chars content) := by
        rw [Client.putDone, hfind]
      have hlen := hsent content hfind
      have hcstr : cstr (clientFile c.record name content.length).filename = name.chars :=
        cstr_strcpy name.isText
      rw [hdone]
      exact until_of_programs mem removeFails c hrests (.inl rfl) (c.plays_put hfind hlen)
        ((Serving.accepted mem removeFails s₀).plays_put c hcstr (longOfWord_size hlen.1))
  | none =>
      have hdone : c.putDone mem s₀.dir name =
          (c.ended c.dir [.noFileHere], .handler .put 0 (.getFile (.record mem)), s₀.dir) := by
        rw [Client.putDone, hfind]
      rw [hdone]
      exact until_of_programs mem removeFails c hrests (.inr ⟨mem, rfl⟩) (c.plays_put_missing hfind)
        ((Serving.accepted mem removeFails s₀).plays_put_missing c)

/-- The file that is overwritten keeps its place. -/
theorem put_stores_overwritten :
    Until (Connection.Step ones false) (fun _ => True)
      (fun x => Ended ones false x ((sampleClient [⟨[97], threeBuffers, true⟩]).ended
        [⟨[97], threeBuffers, true⟩] [.uploaded]) .returned [⟨[97], threeBuffers, true⟩, ⟨[98], [8], true⟩])
      (.start (sampleClient [⟨[97], threeBuffers, true⟩]) (.put smallName)
        (.start [⟨[97], [1], true⟩, ⟨[98], [8], true⟩])) :=
  put_stores ones false (sampleClient [⟨[97], threeBuffers, true⟩]) smallName
    (Server.rests_start [⟨[97], [1], true⟩, ⟨[98], [8], true⟩]) fun content h => by cases h; decide +kernel

/-- How the client and the directory are left by `deleteServerFiles`. -/
def Client.deleteDone : Client × Directory :=
  match dir.content name.chars with
  | some _ =>
      -- without an answer the client waits for one
      if removeFails then (c.goto (.deleteAnswer name), dir)
      else (c.ended c.dir [.deleted], dir.remove name.chars)
  | none => (c.ended c.dir [.notExist], dir)

/-- A deletion removes the file, and the user is told of it. -/
theorem delete_reports (hrests : s₀.Rests) (hname : name.chars ≠ []) :
    Until (Connection.Step mem removeFails) (fun _ => True)
      (fun x => Ended mem removeFails x (c.deleteDone removeFails s₀.dir name).1 .returned
        (c.deleteDone removeFails s₀.dir name).2) (.start c (.delete name) s₀) := by
  cases hfind : s₀.dir.content name.chars with
  | some content =>
      cases removeFails with
      | false =>
          have hdone : c.deleteDone false s₀.dir name =
              (c.ended c.dir [.deleted], s₀.dir.remove name.chars) := by
            rw [Client.deleteDone, hfind]
            rfl
          rw [hdone]
          exact until_of_programs mem false c hrests (.inl rfl) c.plays_delete
            ((Serving.accepted mem false s₀).plays_delete c hfind rfl)
      | true =>
          have hdone : c.deleteDone true s₀.dir name = (c.goto (.deleteAnswer name), s₀.dir) := by
            rw [Client.deleteDone, hfind]
            rfl
          rw [hdone]
          exact until_of_programs mem true c hrests (.inl rfl) c.plays_delete_failed
            ((Serving.accepted mem true s₀).plays_delete_failed c hfind rfl)
  | none =>
      have hdone : c.deleteDone removeFails s₀.dir name = (c.ended c.dir [.notExist], s₀.dir) := by
        rw [Client.deleteDone, hfind]
      rw [hdone]
      exact until_of_programs mem removeFails c hrests (.inl rfl) (c.plays_delete_missing hname)
        ((Serving.accepted mem removeFails s₀).plays_delete_missing c hfind)

theorem delete_reports_twoFiles :
    Until (Connection.Step ones false) (fun _ => True)
      (fun x => Ended ones false x ((sampleClient []).ended [] [.deleted]) .returned [⟨[98], [8], true⟩])
      (.start (sampleClient []) (.delete smallName) (.start [⟨[97], [7], true⟩, ⟨[98], [8], true⟩])) :=
  delete_reports ones false (sampleClient []) smallName
    (Server.rests_start [⟨[97], [7], true⟩, ⟨[98], [8], true⟩]) (by decide)

/-- The user is shown the names of the files in the directory of the server that have the archive attribute. -/
theorem list_prints (hrests : s₀.Rests) (hnames : ∀ n ∈ s₀.dir.listed, IsName n ∧ goesOn n) :
    Until (Connection.Step mem removeFails) (fun _ => True)
      (fun x => Ended mem removeFails x (c.ended c.dir (s₀.dir.listed.map .fileName)) .returned s₀.dir)
      (.start c .list s₀) :=
  until_of_programs mem removeFails c hrests (.inl rfl) (c.plays_list hnames)
    ((Serving.accepted mem removeFails s₀).plays_list c)

/-- The second file does not have the attribute. -/
theorem list_prints_threeFiles :
    Until (Connection.Step ones false) (fun _ => True)
      (fun x => Ended ones false x ((sampleClient []).ended [] [.fileName [97], .fileName [98]]) .returned
        [⟨[97], [7], true⟩, ⟨[99], [9], false⟩, ⟨[98], [8], true⟩])
      (.start (sampleClient []) .list (.start [⟨[97], [7], true⟩, ⟨[99], [9], false⟩, ⟨[98], [8], true⟩])) :=
  list_prints ones false (sampleClient [])
    (Server.rests_start [⟨[97], [7], true⟩, ⟨[99], [9], false⟩, ⟨[98], [8], true⟩])
    (List.forall_mem_cons.2 ⟨⟨⟨by decide, by decide, by decide⟩, by decide⟩,
      List.forall_mem_singleton.2 ⟨⟨by decide, by decide, by decide⟩, by decide⟩⟩)

end Functions

/-! ## A session -/

/-- The choices of the menu that use a connection. -/
inductive Choice where
  | list
  | get (name : FileName)
  | put (name : FileName)
  | delete (name : FileName)

/-- What a choice calls, each function behind a `connectServer` of its own. -/
inductive Task where
  | call (op : Op)
  | closeconnect

def Choice.tasks : Choice → List Task
  | .list => [.call .list]
  | .get name => [.call .list, .closeconnect, .call (.get name)]
  | .put name => [.call (.put name)]
  | .delete name => [.call .list, .closeconnect, .call (.delete name)]

/-- The client with what it still calls, and the server. -/
structure Session where
  tasks : List Task
  connection : Connection

/-- A step on the connection, or the next task of the client.  That one waits until nothing else can happen: two
threads that are not at rest share `szbuffer`. -/
inductive Session.Step (mem : Fileinfo) (removeFails : Bool) (x : Session) : Session → Prop where
  | runs {y : Connection} : Connection.Step mem removeFails x.connection y →
      Step mem removeFails x { x with connection := y }
  | connects {op : Op} {tasks : List Task} : x.tasks = .call op :: tasks →
      x.connection.client.state.at = .returned → (∀ y, ¬ Connection.Step mem removeFails x.connection y) →
      Step mem removeFails x ⟨tasks, .start x.connection.client.state op x.connection.server⟩
  | closes {tasks : List Task} {s : Server} : x.tasks = .closeconnect :: tasks →
      x.connection.client.state.at = .returned → (∀ y, ¬ Connection.Step mem removeFails x.connection y) →
      x.connection.server.step (.clientCloses x.connection.sock) = some s →
      Step mem removeFails x ⟨tasks, { x.connection with server := s }⟩

/-- The client when it has shown the names in the directory of the server. -/
def Client.listed (c : Client) (dir : Directory) : Client :=
  c.ended c.dir (dir.listed.map .fileName)

/-- What a choice makes of the client and of the directory of the server. -/
def perform (mem : Fileinfo) (v : Client × Directory) : Choice → Client × Directory
  | .list => (v.1.listed v.2, v.2)
  | .get name => ((v.1.listed v.2).got v.2 name, v.2)
  | .put name => ((v.1.putDone mem v.2 name).1, (v.1.putDone mem v.2 name).2.2)
  | .delete name => (v.1.listed v.2).deleteDone false v.2 name

/-- The names in a directory can be listed. -/
def Lists (dir : Directory) : Prop := ∀ n ∈ dir.listed, IsName n ∧ goesOn n

/-- The names and the files are within the limits of the functions. -/
def Works (v : Client × Directory) : Choice → Prop
  | .list => Lists v.2
  | .get name => Lists v.2 ∧ (∀ content, v.2.content name.chars = some content → SentOnce content) ∧
      name.chars ≠ Serving.noSuchFile
  | .put name => ∀ content, v.1.dir.content name.chars = some content → SentOnce content
  | .delete name => Lists v.2 ∧ name.chars ≠ []

/-- Between two tasks. -/
structure Session.At (v : Client × Directory) (tasks : List Task) (x : Session) : Prop where
  tasks : x.tasks = tasks
  client : x.connection.client.state = v.1
  returned : v.1.at = .returned
  dir : x.connection.server.dir = v.2
  rests : x.connection.server.Rests

/-- Between two choices. -/
def Session.Before (v : Client × Directory) (choices : List Choice) (x : Session) : Prop :=
  x.At v (choices.flatMap Choice.tasks)

/-- Before the first choice. -/
def Session.start (c : Client) (dir : Directory) (choices : List Choice) : Session :=
  ⟨choices.flatMap Choice.tasks, ⟨c, [], false⟩, 0, Server.start dir⟩

section Session

variable {mem : Fileinfo} {v : Client × Directory} {op : Op} {tasks : List Task} {x : Session}

/-- A client that has returned does nothing on its connection, and a thread at rest neither. -/
theorem Session.At.settled (h : At v tasks x) : ∀ y, ¬ Connection.Step mem false x.connection y := by
  intro y hstep
  have hstop : x.connection.client.state.move = .stop := by
    rw [Client.move, h.client, h.returned]
  cases hstep with
  | goes hmove | sends hmove _ | receives _ hmove | ends _ hmove _ _ => cases hstop.symm.trans hmove
  | thread t n hthread _ =>
      cases hth : x.connection.server.threads[t]? with
      | none =>
          rw [Server.step, hth] at hthread
          cases hthread
      | some th => cases ((h.rests.threads t th hth).step_eq hth rfl n mem false).symm.trans hthread

/-- While something can happen on a connection, the client has no other task. -/
theorem Session.until_runs {P : Connection → Prop} {x : Connection}
    (h : Until (Connection.Step mem false) (fun _ => True) P x) :
    Until (Session.Step mem false) (fun _ => True) (fun z => z.tasks = tasks ∧ P z.connection) ⟨tasks, x⟩ := by
  induction h with
  | now hP => exact .now ⟨rfl, hP⟩
  | later _ hgo _ ih =>
      obtain ⟨y, hy⟩ := hgo
      refine .later trivial ⟨_, .runs hy⟩ fun z hz => ?_
      cases hz with
      | runs hstep => exact ih _ hstep
      | connects _ _ hsettled | closes _ _ hsettled _ => exact absurd hy (hsettled y)

/-- The next function, from what it comes to on its connection. -/
theorem Session.At.call {c' : Client} {pc : Pc} {dir' : Directory} (h : At v (.call op :: tasks) x)
    (hreturned : c'.at = .returned)
    (hop : Until (Connection.Step mem false) (fun _ => True) (fun y => Ended mem false y c' pc dir')
      (.start v.1 op x.connection.server)) :
    Until (Session.Step mem false) (fun _ => True)
      (fun z => At (c', dir') tasks z ∧ Ended mem false z.connection c' pc dir') x := by
  have hback : x.connection.client.state.at = .returned := by rw [h.client, h.returned]
  refine .later trivial ⟨_, .connects h.tasks hback h.settled⟩ fun z hz => ?_
  cases hz with
  | runs hstep => exact absurd hstep (h.settled _)
  | connects htasks _ _ =>
      cases h.tasks.symm.trans htasks
      rw [h.client]
      refine (until_runs hop).trans ?_
      rintro z ⟨htasks', hended⟩
      exact .now ⟨⟨htasks', hended.client, hreturned, hended.dir, hended.rests⟩, hended⟩
  | closes htasks _ _ _ => cases h.tasks.symm.trans htasks

/-- The client closes a connection whose thread has returned. -/
theorem Session.At.close {c : Client} {dir : Directory} (h : At v (.closeconnect :: tasks) x)
    (hended : Ended mem false x.connection c .returned dir) :
    Until (Session.Step mem false) (fun _ => True) (At v tasks) x := by
  have hback : x.connection.client.state.at = .returned := by rw [h.client, h.returned]
  obtain ⟨th, hth, hpc⟩ := hended.thread
  refine .later trivial ⟨_, .closes h.tasks hback h.settled rfl⟩ fun z hz => ?_
  cases hz with
  | runs hstep => exact absurd hstep (h.settled _)
  | connects htasks _ _ => cases h.tasks.symm.trans htasks
  | closes htasks _ _ hstep =>
      cases h.tasks.symm.trans htasks
      have hrests := h.rests.clientCloses hth hpc hstep
      cases hstep
      exact .now ⟨rfl, h.client, h.returned, h.dir, hrests⟩

/-- The listing before a `get` or a `delete`. -/
theorem Session.At.listing (h : At v (.call .list :: .closeconnect :: tasks) x) (hlists : Lists v.2) :
    Until (Session.Step mem false) (fun _ => True) (At (v.1.listed v.2, v.2) tasks) x := by
  have hdir := h.dir
  obtain ⟨c, dir⟩ := v
  cases hdir
  refine (h.call rfl (list_prints mem false c h.rests hlists)).trans ?_
  rintro z ⟨hat, hended⟩
  exact hat.close hended

theorem Client.returned_got (c : Client) (dir : Directory) (name : FileName) :
    (c.got dir name).at = .returned := by
  rw [Client.got]
  cases dir.content name.chars <;> rfl

theorem Client.returned_putDone (c : Client) (dir : Directory) (name : FileName) :
    (c.putDone mem dir name).1.at = .returned := by
  rw [Client.putDone]
  cases c.dir.content name.chars <;> rfl

theorem Client.returned_deleteDone (c : Client) (dir : Directory) (name : FileName) :
    (c.deleteDone false dir name).1.at = .returned := by
  rw [Client.deleteDone]
  cases dir.content name.chars <;> rfl

/-- The next choice. -/
theorem Session.Before.perform {choice : Choice} {choices : List Choice} (h : Before v (choice :: choices) x)
    (hworks : Works v choice) :
    Until (Session.Step mem false) (fun _ => True) (Before (perform mem v choice) choices) x := by
  obtain ⟨c, dir⟩ := v
  have hat : x.At (c, dir) (choice.tasks ++ choices.flatMap Choice.tasks) := h
  cases choice with
  | list =>
      have hdir := hat.dir
      cases hdir
      exact (hat.call rfl (list_prints mem false c hat.rests hworks)).trans fun z hz => .now hz.1
  | get name =>
      obtain ⟨hlists, hsent, hname⟩ := hworks
      refine (hat.listing hlists).trans fun y hy => ?_
      have hdir := hy.dir
      cases hdir
      exact (hy.call (Client.returned_got _ _ _)
        (get_delivers mem false _ name hy.rests hsent hname)).trans fun z hz => .now hz.1
  | put name =>
      have hdir := hat.dir
      cases hdir
      exact (hat.call (Client.returned_putDone _ _ _)
        (put_stores mem false c name hat.rests hworks)).trans fun z hz => .now hz.1
  | delete name =>
      obtain ⟨hlists, hname⟩ := hworks
      refine (hat.listing hlists).trans fun y hy => ?_
      have hdir := hy.dir
      cases hdir
      exact (hy.call (Client.returned_deleteDone _ _ _)
        (delete_reports mem false _ name hy.rests hname)).trans fun z hz => .now hz.1

/-- The choices of a user are carried out one after the other, on both sides. -/
theorem choices_performed (mem : Fileinfo) (c : Client) (dir : Directory) (choices : List Choice)
    (hreturned : c.at = .returned) (hworks : Admissible Works (Build1.perform mem) (c, dir) choices) :
    Until (Session.Step mem false) (fun _ => True)
      (fun x => x.tasks = [] ∧
        (x.connection.client.state, x.connection.server.dir) = choices.foldl (Build1.perform mem) (c, dir) ∧
        ∀ y, ¬ Session.Step mem false x y)
      (.start c dir choices) := by
  have hbefore : Session.Before (c, dir) choices (.start c dir choices) :=
    ⟨rfl, rfl, hreturned, rfl, Server.rests_start dir⟩
  have hperformed : Until (Session.Step mem false) (fun _ => True)
      (Session.Before (choices.foldl (Build1.perform mem) (c, dir)) []) (.start c dir choices) :=
    Until.requests (fun _ _ _ _ h hworks _ => h.perform hworks) hbefore hworks
  refine hperformed.trans ?_
  intro x h
  refine .now ⟨h.tasks, Prod.ext h.client h.dir, fun y hstep => ?_⟩
  cases hstep with
  | runs hstep => exact h.settled _ hstep
  | connects htasks _ _ | closes htasks _ _ _ => cases h.tasks.symm.trans htasks

/-- An upload over an old file, the listing then, and a deletion. -/
theorem choices_performed_putListDelete :
    Until (Session.Step ones false) (fun _ => True)
      (fun x => x.tasks = [] ∧
        (x.connection.client.state, x.connection.server.dir) =
          ((sampleClient [⟨[97], threeBuffers, true⟩]).ended [⟨[97], threeBuffers, true⟩]
            [.uploaded, .fileName [97], .fileName [98], .fileName [97], .fileName [98], .deleted],
            [⟨[98], [8], true⟩]) ∧
        ∀ y, ¬ Session.Step ones false x y)
      (.start (sampleClient [⟨[97], threeBuffers, true⟩]) [⟨[97], [1], true⟩, ⟨[98], [8], true⟩]
        [.put smallName, .list, .delete smallName]) := by
  have hlists : Lists [⟨[97], threeBuffers, true⟩, ⟨[98], [8], true⟩] :=
    List.forall_mem_cons.2 ⟨⟨⟨by decide, by decide, by decide⟩, by decide⟩,
      List.forall_mem_singleton.2 ⟨⟨by decide, by decide, by decide⟩, by decide⟩⟩
  exact choices_performed ones (sampleClient [⟨[97], threeBuffers, true⟩])
    [⟨[97], [1], true⟩, ⟨[98], [8], true⟩] [.put smallName, .list, .delete smallName] rfl
    ⟨fun content h => by cases h; decide +kernel, hlists, ⟨hlists, by decide⟩, trivial⟩

end Session

end Build1
end FileTransfer
