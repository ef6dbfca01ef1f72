import FileTransfer.Build1.Threads

/-!
# Isolation of the connections

A thread reads the globals `s1` and `szbuffer` long after `accept` and its own `recv` have set them.  It gets
what it expects as long as no further connection is accepted before it has used `s1` for the last time: `Apart`.
`connection_isolation` says that in a run each thread serves its own connection, and executes the command that
connection sent, exactly when the run keeps to that.
-/

namespace FileTransfer
namespace Build1

/-- The next step of `run` uses `s1`. -/
def Pc.UsesS1 : Pc → Prop
  | .recv => True
  | .reply _ => True
  | .call _ => True
  | _ => False

instance (pc : Pc) : Decidable pc.UsesS1 := by
  cases pc <;> unfold Pc.UsesS1 <;> infer_instance

namespace Server

variable (s : Server)

/-- No connection has been accepted since that of the thread `t`. -/
def Newest (t : Nat) : Prop := s.threads.length = t + 1

/-- A thread receives its request, repeats it and calls a function before the next connection is accepted.
Where it stands in these functions, or behind them, does not matter. -/
def Apart : Event → Prop
  | .thread t _ _ _ => ∀ th ∈ s.threads[t]?, th.pc.UsesS1 → s.Newest t
  | _ => True

/-- The socket the thread `t` was created with. -/
def created (t : Nat) : Option Nat := (s.threads[t]?).map Thread.cs

/-- The thread serves its own connection, with the command that connection sent. -/
def Serves : Io → Prop
  | .recv t sock _ => s.created t = some sock
  | .send t sock _ => s.created t = some sock
  | .close t sock => s.created t = some sock
  | .call t c sock => s.created t = some sock ∧ c.text <+: (s.conns sock).sent

/-- `szbuffer` holds this request, or another thread has cleared it. -/
def Holds (request : List Byte) : Prop :=
  (∀ b ∈ s.szbuffer, b = 0) ∨ ∃ rest, s.szbuffer = request ++ rest ∧ ∀ b ∈ rest, b = 0

/-- What is known about the thread `t`; of the globals it knows something while it is the newest. -/
structure ThreadInv (t : Nat) (th : Thread) : Prop where
  cs : th.cs = t
  fresh : th.pc = .memset ∨ th.pc = .recv →
    (s.conns t).incoming = (s.conns t).sent ∧ th.request = []
  request : th.request <+: (s.conns t).sent
  buffer : s.Newest t → th.pc ≠ .memset → s.Holds th.request
  command : s.Newest t → ∀ c, (th.pc = .reply c ∨ th.pc = .call c) → c.text <+: th.request
  socket : ∀ c sock h, th.pc = .handler c sock h → sock = t

/-- The invariant of the server. -/
structure Inv : Prop where
  threads : ∀ t th, s.threads[t]? = some th → s.ThreadInv t th
  unborn : ∀ i, s.threads.length ≤ i → (s.conns i).incoming = (s.conns i).sent
  last : ∀ t, s.Newest t → s.s1 = t
  serves : ∀ io ∈ s.trace, s.Serves io

end Server

/-! ## Steps of one thread -/

section

variable {s s' : Server} {t : Nat} {th : Thread}

theorem getElem?_set_other {l : List Thread} {i j : Nat} (h : j ≠ i) : (l.set i th)[j]? = l[j]? := by
  rw [List.getElem?_set, if_neg (Ne.symm h)]

theorem getElem?_set_own {l : List Thread} {i : Nat} {th' : Thread} (h : l[i]? = some th) :
    (l.set i th')[i]? = some th' := by
  rw [List.getElem?_set, if_pos rfl, if_pos (List.getElem?_eq_some_iff.1 h).1]

/-- What a thread did stays right. -/
theorem Server.Serves.mono {io : Io} (h : s.Serves io)
    (hcreated : ∀ i c, s.created i = some c → s'.created i = some c)
    (hsent : ∀ i, (s.conns i).sent <+: (s'.conns i).sent) : s'.Serves io := by
  cases io with
  | call i c sock => exact ⟨hcreated _ _ h.1, h.2.trans (hsent sock)⟩
  | recv i sock got => exact hcreated _ _ h
  | send i sock data => exact hcreated _ _ h
  | close i sock => exact hcreated _ _ h

/-- A step of the thread `t` keeps the invariant when it is right for that thread, leaves the other
connections alone, and clears `szbuffer` or leaves it, if there is a newer thread. -/
theorem Server.Inv.of_thread (h : s.Inv) (hth : s.threads[t]? = some th) (th' : Thread)
    (hthreads : s'.threads = s.threads.set t th') (hcs : th'.cs = th.cs) (hs1 : s'.s1 = s.s1)
    (hsent : ∀ i, (s'.conns i).sent = (s.conns i).sent)
    (hincoming : ∀ i, i ≠ t → (s'.conns i).incoming = (s.conns i).incoming)
    (hbuffer : s.Newest t ∨ s'.szbuffer = s.szbuffer ∨ ∀ b ∈ s'.szbuffer, b = 0)
    (hown : s'.ThreadInv t th')
    (htrace : ∃ ios, s'.trace = s.trace ++ ios ∧ ∀ io ∈ ios, s'.Serves io) : s'.Inv := by
  -- the socket a thread was created with is never written again
  have hcreated : ∀ i c, s.created i = some c → s'.created i = some c := by
    intro i c hi
    unfold Server.created at hi ⊢
    rw [hthreads]
    by_cases hit : i = t
    · subst hit
      rw [hth] at hi
      rw [getElem?_set_own hth, Option.map_some, hcs]
      exact hi
    · rw [getElem?_set_other hit]
      exact hi
  have hgrows : ∀ i, (s.conns i).sent <+: (s'.conns i).sent := by
    intro i
    simp only [hsent, List.prefix_rfl]
  have hnewest : ∀ i, s'.Newest i ↔ s.Newest i := by
    intro i
    rw [Server.Newest, Server.Newest, hthreads, List.length_set]
  constructor
  · -- the thread that moved is given, and the newest one keeps what it knows of the buffer
    intro t' x hx
    rw [hthreads] at hx
    by_cases hit : t' = t
    · subst hit
      rw [getElem?_set_own hth] at hx
      cases hx
      exact hown
    · rw [getElem?_set_other hit] at hx
      have hold := h.threads t' x hx
      constructor
      · exact hold.cs
      · rw [hincoming _ hit, hsent]
        exact hold.fresh
      · rw [hsent]
        exact hold.request
      · intro hnew hpc
        rw [hnewest] at hnew
        rcases hbuffer with hboth | hsame | hzero
        · exact absurd (Nat.succ.inj (hnew.symm.trans hboth)) hit
        · rw [Server.Holds, hsame]
          exact hold.buffer hnew hpc
        · exact Or.inl hzero
      · intro hnew
        exact hold.command ((hnewest t').1 hnew)
      · exact hold.socket
  · -- an index no thread has is not the one that moved
    intro i hi
    have hne : i ≠ t := by
      rintro rfl
      have hlt := (List.getElem?_eq_some_iff.1 hth).1
      rw [hthreads, List.length_set] at hi
      omega
    rw [hincoming i hne, hsent]
    rw [hthreads, List.length_set] at hi
    exact h.unborn i hi
  · intro i hi
    rw [hs1]
    exact h.last i ((hnewest i).1 hi)
  · -- what the threads did before is still right, and the step adds its own
    obtain ⟨ios, htr, hios⟩ := htrace
    intro io hio
    rw [htr] at hio
    rcases List.mem_append.1 hio with hio | hio
    · exact (h.serves io hio).mono hcreated hgrows
    · exact hios io hio

/-- A step that only moves the thread on, and notes what it did with its socket. -/
theorem Server.Inv.of_goto (h : s.Inv) (hth : s.threads[t]? = some th) {pc : Pc}
    (ios : List Io)
    (hown : s.ThreadInv t { th with pc := pc })
    (hios : ∀ io ∈ ios, ∀ s' : Server, s'.threads = s.threads.set t { th with pc := pc } →
      s'.conns = s.conns → s'.Serves io) :
    (({ s with trace := s.trace ++ ios } : Server).goto t th pc).Inv := by
  have hnewest : (({ s with trace := s.trace ++ ios } : Server).goto t th pc).Newest t → s.Newest t := by
    simp only [Server.Newest, Server.goto, List.length_set, imp_self]
  exact h.of_thread hth _ rfl rfl rfl (fun _ => rfl) (fun _ _ => rfl) (Or.inr (Or.inl rfl))
    ⟨hown.cs, hown.fresh, hown.request, fun hnew => hown.buffer (hnewest hnew),
      fun hnew => hown.command (hnewest hnew), hown.socket⟩
    ⟨ios, rfl, fun io hio => hios io hio _ rfl rfl⟩

/-- A thread that has received its request moves on. -/
theorem Server.ThreadInv.move (h : s.ThreadInv t th) {pc : Pc} (hfrom : th.pc ≠ .memset)
    (hmemset : pc ≠ .memset) (hrecv : pc ≠ .recv)
    (hcommand : s.Newest t → ∀ c, (pc = .reply c ∨ pc = .call c) → c.text <+: th.request)
    (hsocket : ∀ c sock x, pc = .handler c sock x → sock = t) :
    s.ThreadInv t { th with pc := pc } where
  cs := h.cs
  fresh hpc := by
    rcases hpc with hpc | hpc
    · exact absurd hpc hmemset
    · exact absurd hpc hrecv
  request := h.request
  buffer hnew _ := h.buffer hnew hfrom
  command := hcommand
  socket := hsocket

theorem created_of_threads (hth : s.threads[t]? = some th) {pc : Pc}
    (h : s'.threads = s.threads.set t { th with pc := pc }) : s'.created t = some th.cs := by
  unfold Server.created
  rw [h, getElem?_set_own hth]
  rfl

/-- `recv` takes bytes from one connection. -/
theorem recv_eq_some {sock want n : Nat} {got : List Byte} (h : s.recv t sock want n = some (got, s')) :
    got <+: (s.conns sock).incoming ∧
      s' = { s with
        conns := Function.update s.conns sock
          { s.conns sock with incoming := (s.conns sock).incoming.drop n }
        trace := s.trace ++ [.recv t sock got] } := by
  unfold Server.recv at h
  dsimp only at h
  split at h
  · cases h
    exact ⟨List.take_prefix _ _, rfl⟩
  · cases h

/-- The thread clears `szbuffer`. -/
theorem inv_memset (h : s.Inv) (hth : s.threads[t]? = some th) (hpc : th.pc = .memset) :
    (({ s with szbuffer := List.replicate requestLength 0 } : Server).goto t th .recv).Inv := by
  have hown := h.threads t th hth
  have hzero : ∀ b ∈ List.replicate requestLength (0 : Byte), b = 0 := fun b => List.eq_of_mem_replicate
  refine h.of_thread hth _ rfl rfl rfl (fun _ => rfl) (fun _ _ => rfl) (Or.inr (Or.inr hzero)) ?_
    ⟨[], by simp [Server.goto], by simp⟩
  refine ⟨hown.cs, fun _ => hown.fresh (Or.inl hpc), hown.request, fun _ _ => Or.inl hzero, ?_, ?_⟩
  · rintro - c (hc | hc) <;> cases hc
  · intro c sock x hx
    cases hx

/-- The newest thread receives its request. -/
theorem inv_recv (h : s.Inv) (hth : s.threads[t]? = some th) (hpc : th.pc = .recv)
    (hnew : s.Newest t) {n : Nat} {got : List Byte} {s₁ : Server}
    (hgot : s.recv t s.s1 requestLength n = some (got, s₁)) :
    (({ s₁ with szbuffer := got ++ s₁.szbuffer.drop got.length } : Server).goto t
      { th with request := got } (.compare .list)).Inv := by
  have hown := h.threads t th hth
  obtain ⟨hfresh, hrequest⟩ := hown.fresh (Or.inr hpc)
  have hzero : ∀ b ∈ s.szbuffer, b = 0 := by
    rcases hown.buffer hnew (by simp [hpc]) with hzero | ⟨rest, hbuffer, hrest⟩
    · exact hzero
    · rw [hbuffer, hrequest]
      exact hrest
  rw [h.last t hnew] at hgot
  -- `s1` is the socket of this thread, so the bytes are those of its client
  obtain ⟨hgrows, rfl⟩ := recv_eq_some hgot
  refine h.of_thread hth { th with pc := .compare .list, request := got } rfl rfl rfl ?_ ?_ (Or.inl hnew) ?_
    ⟨[.recv t t got], rfl, ?_⟩
  · intro i
    by_cases hi : i = t
    · subst hi
      simp [Server.goto]
    · simp [Server.goto, Function.update_of_ne hi]
  · intro i hi
    simp [Server.goto, Function.update_of_ne hi]
  · constructor
    · exact hown.cs
    · rintro (hc | hc) <;> cases hc
    · -- nothing had been received from this connection before
      rw [hfresh] at hgrows
      simpa [Server.goto] using hgrows
    · -- the bytes behind the request are those of the memset
      exact fun _ _ => Or.inr ⟨_, rfl, fun b hb => hzero b (List.mem_of_mem_drop hb)⟩
    · rintro - c (hc | hc) <;> cases hc
    · intro c sock x hx
      cases hx
  · intro io hio
    rw [List.mem_singleton.1 hio]
    simp only [Server.Serves, Server.created, Server.goto, getElem?_set_own hth, Option.map_some, hown.cs]

/-- The commands a `strcmp` finds equal are those the request of the newest thread begins with. -/
theorem text_prefix (h : s.ThreadInv t th) (hnew : s.Newest t) {c : Command} (hpc : th.pc = .compare c)
    (hequal : cstr s.szbuffer = c.text) : c.text <+: th.request := by
  rcases h.buffer hnew (by simp [hpc]) with hzero | ⟨rest, hbuffer, hzeros⟩
  · have hnothing : cstr s.szbuffer <+: [] := cstr_prefix (l := []) hzero
    rw [hequal] at hnothing
    exact hnothing.trans List.nil_prefix
  · rw [← hequal, hbuffer]
    exact cstr_prefix hzeros

theorem inv_compare (h : s.Inv) (hth : s.threads[t]? = some th) {c : Command}
    (hpc : th.pc = .compare c) :
    (s.goto t th (if cstr s.szbuffer = c.text then (if c = .list then .call c else .reply c)
      else c.next)).Inv := by
  have hown := h.threads t th hth
  have hfrom : th.pc ≠ .memset := by simp [hpc]
  have hgoto : ∀ pc, s.ThreadInv t { th with pc := pc } → (s.goto t th pc).Inv := by
    intro pc hpc'
    have hinv := h.of_goto hth [] hpc' (by simp)
    simpa using hinv
  by_cases hequal : cstr s.szbuffer = c.text
  · rw [if_pos hequal]
    by_cases hlist : c = .list
    · rw [if_pos hlist]
      refine hgoto _ (hown.move hfrom (by simp) (by simp) (fun hnew => ?_) (by simp))
      rintro c' (hc | hc) <;> cases hc
      exact text_prefix hown hnew hpc hequal
    · rw [if_neg hlist]
      refine hgoto _ (hown.move hfrom (by simp) (by simp) (fun hnew => ?_) (by simp))
      rintro c' (hc | hc) <;> cases hc
      exact text_prefix hown hnew hpc hequal
  · rw [if_neg hequal]
    refine hgoto _ (hown.move hfrom ?_ ?_ (fun _ => ?_) ?_) <;> cases c <;> simp [Command.next]

theorem inv_reply (h : s.Inv) (hth : s.threads[t]? = some th) {c : Command} (hpc : th.pc = .reply c)
    (hnew : s.Newest t) : ((s.note (.send t s.s1 s.szbuffer)).goto t th (.call c)).Inv := by
  have hown := h.threads t th hth
  refine h.of_goto hth [.send t s.s1 s.szbuffer]
    (hown.move (by simp [hpc]) (by simp) (by simp) (fun _ => ?_) (by simp)) ?_
  · rintro c' (hc | hc) <;> cases hc
    exact hown.command hnew c (Or.inl hpc)
  · intro io hio s' hthreads _
    rw [List.mem_singleton.1 hio, h.last t hnew]
    exact (created_of_threads hth hthreads).trans (congrArg some hown.cs)

theorem inv_call (h : s.Inv) (hth : s.threads[t]? = some th) {c : Command} (hpc : th.pc = .call c)
    (hnew : s.Newest t) (mem : Fileinfo) :
    ((s.note (.call t c s.s1)).goto t th (.handler c s.s1 (c.handler s.dir mem))).Inv := by
  have hown := h.threads t th hth
  have hs1 := h.last t hnew
  refine h.of_goto hth [.call t c s.s1]
    (hown.move (by simp [hpc]) (by simp) (by simp) (fun _ => by simp) ?_) ?_
  · intro c' sock x hx
    cases hx
    exact hs1
  · intro io hio s' hthreads hconns
    rw [List.mem_singleton.1 hio, hs1]
    refine ⟨(created_of_threads hth hthreads).trans (congrArg some hown.cs), ?_⟩
    rw [hconns]
    exact (hown.command hnew c (Or.inr hpc)).trans hown.request

/-- The functions that serve a command use the socket they were called with. -/
theorem inv_handler (h : s.Inv) (hth : s.threads[t]? = some th) {c : Command} {sock n : Nat}
    {x : Handler} (hpc : th.pc = .handler c sock x) {a : Action}
    (hstep : s.handlerStep t th c sock n a = some s') : s'.Inv := by
  have hown := h.threads t th hth
  have hsock : sock = t := hown.socket c sock x hpc
  subst hsock
  have hcs : th.cs = sock := hown.cs
  -- the thread stays in the function, which keeps its socket
  have hfrom : th.pc ≠ .memset := by simp [hpc]
  have hstay : ∀ x', s.ThreadInv sock { th with pc := .handler c sock x' } := by
    intro x'
    refine hown.move hfrom (by simp) (by simp) (fun _ => by simp) ?_
    intro c' sock' x'' hx
    cases hx
    rfl
  cases a with
  | recv want next =>
      obtain ⟨⟨got, s₁⟩, hgot, rfl⟩ := Option.map_eq_some_iff.1 hstep
      obtain ⟨-, rfl⟩ := recv_eq_some hgot
      have hkeep := hstay (next s.dir got).1
      refine h.of_thread hth { th with pc := .handler c sock (next s.dir got).1 } rfl rfl rfl
        ?_ ?_ (Or.inr (Or.inl rfl)) ?_ ⟨[.recv sock sock got], rfl, ?_⟩
      · intro i
        by_cases hi : i = sock
        · subst hi
          simp [Server.goto]
        · simp [Server.goto, Function.update_of_ne hi]
      · intro i hi
        simp [Server.goto, Function.update_of_ne hi]
      · have hnewest : ∀ s' : Server, s'.threads = s.threads.set sock
            { th with pc := .handler c sock (next s.dir got).1 } → s'.Newest sock → s.Newest sock := by
          intro s' hthreads hnew
          rwa [Server.Newest, hthreads, List.length_set] at hnew
        refine ⟨hkeep.cs, ?_, ?_, fun hnew => hkeep.buffer (hnewest _ rfl hnew),
          fun hnew => hkeep.command (hnewest _ rfl hnew), hkeep.socket⟩
        · rintro (hc | hc) <;> cases hc
        · simpa [Server.goto] using hown.request
      · intro io hio
        rw [List.mem_singleton.1 hio]
        simp only [Server.Serves, Server.created, Server.goto, getElem?_set_own hth, Option.map_some,
          hcs]
  | send data next =>
      cases hstep
      refine h.of_goto hth [.send sock sock data] (hstay next) ?_
      intro io hio s' hthreads _
      rw [List.mem_singleton.1 hio]
      exact (created_of_threads hth hthreads).trans (congrArg some hcs)
  | closesocket =>
      cases hstep
      refine h.of_goto hth [.close sock sock] (hstay .returned) ?_
      intro io hio s' hthreads _
      rw [List.mem_singleton.1 hio]
      exact (created_of_threads hth hthreads).trans (congrArg some hcs)
  | undefined => cases hstep
  | leave =>
      cases hstep
      have hnext : s.ThreadInv sock { th with pc := c.next } := by
        refine hown.move hfrom ?_ ?_ (fun _ => ?_) ?_ <;> cases c <;> simp [Command.next]
      simpa using h.of_goto hth [] hnext (by simp)

theorem inv_thread (h : s.Inv) (hth : s.threads[t]? = some th) {n : Nat} {mem : Fileinfo}
    {removeFails : Bool} (hok : s.Apart (.thread t n mem removeFails))
    (hstep : s.threadStep t th n mem removeFails = some s') : s'.Inv := by
  have hapart := hok th hth
  unfold Server.threadStep at hstep
  split at hstep <;> rename_i hpc <;> rw [hpc] at hapart
  · cases hstep
    exact inv_memset h hth hpc
  · obtain ⟨⟨got, s₁⟩, hgot, rfl⟩ := Option.map_eq_some_iff.1 hstep
    exact inv_recv h hth hpc (hapart trivial) hgot
  · cases hstep
    exact inv_compare h hth hpc
  · cases hstep
    exact inv_reply h hth hpc (hapart trivial)
  · cases hstep
    exact inv_call h hth hpc (hapart trivial) mem
  · exact inv_handler h hth hpc hstep
  · cases hstep

/-- A connection is accepted, and its thread created. -/
theorem inv_accept (h : s.Inv) (hstep : s.step .accept = some s') : s'.Inv := by
  cases hstep
  -- the sockets of the threads there are stay
  have hcreated : ∀ i c, s.created i = some c →
      ((s.threads ++ [⟨s.threads.length, .memset, []⟩])[i]?).map Thread.cs = some c := by
    intro i c hi
    obtain ⟨x, hx, hxc⟩ := Option.map_eq_some_iff.1 hi
    rw [List.getElem?_append_left (List.getElem?_eq_some_iff.1 hx).1, hx]
    exact congrArg some hxc
  constructor
  · intro t x hx
    dsimp only at hx
    -- a thread that was there, or the new one, which has done nothing yet
    rcases Nat.lt_or_ge t s.threads.length with hlt | hge
    · rw [List.getElem?_append_left hlt] at hx
      obtain ⟨hcs, hfresh, hrequest, -, -, hsocket⟩ := h.threads t x hx
      -- it is not the newest any more
      have hold : s.threads.length + 1 ≠ t + 1 := by omega
      refine ⟨hcs, hfresh, hrequest, fun hnew => ?_, fun hnew => ?_, hsocket⟩ <;>
        exact absurd (List.length_append.symm.trans hnew) hold
    · rw [List.getElem?_append_right hge] at hx
      obtain ⟨hlt, rfl⟩ := List.getElem?_eq_some_iff.1 hx
      have ht : t = s.threads.length := by
        rw [List.length_singleton] at hlt
        omega
      subst ht
      constructor
      · simp
      · exact fun _ => ⟨h.unborn _ (Nat.le_refl _), by simp⟩
      · simp
      · simp
      · simp
      · simp
  · intro i hi
    dsimp only at hi ⊢
    rw [List.length_append] at hi
    exact h.unborn i (by omega)
  · intro i hi
    have hlen : s.threads.length + 1 = i + 1 := List.length_append.symm.trans hi
    exact Nat.succ.inj hlen
  · intro io hio
    exact (h.serves io hio).mono hcreated fun _ => List.prefix_refl _

/-- A client sends or closes. -/
theorem inv_client (h : s.Inv) (i : Nat) (data : List Byte) (closed : Bool) :
    let conn : Conn := ⟨(s.conns i).sent ++ data, (s.conns i).incoming ++ data, closed⟩
    ({ s with conns := Function.update s.conns i conn } : Server).Inv := by
  intro conn
  set s' : Server := { s with conns := Function.update s.conns i conn } with hs'
  have hsent : ∀ j, (s.conns j).sent <+: (s'.conns j).sent := by
    intro j
    by_cases hj : j = i
    · subst hj
      simp [hs', conn]
    · simp [hs', Function.update_of_ne hj]
  have hfresh : ∀ j, (s.conns j).incoming = (s.conns j).sent →
      (s'.conns j).incoming = (s'.conns j).sent := by
    intro j hold
    by_cases hj : j = i
    · subst hj
      simp [hs', conn, hold]
    · simpa [hs', Function.update_of_ne hj] using hold
  constructor
  · intro t x hx
    have hold := h.threads t x hx
    exact ⟨hold.cs, fun hpc => ⟨hfresh t (hold.fresh hpc).1, (hold.fresh hpc).2⟩,
      hold.request.trans (hsent t), hold.buffer, hold.command, hold.socket⟩
  · intro j hj
    exact hfresh j (h.unborn j hj)
  · exact h.last
  · intro io hio
    exact (h.serves io hio).mono (fun _ _ hc => hc) hsent

theorem inv_step {ev : Event} (h : s.Inv) (hok : s.Apart ev) (hstep : s.step ev = some s') :
    s'.Inv := by
  cases ev with
  | accept => exact inv_accept h hstep
  | clientSends i data =>
      cases hstep
      exact inv_client h i data _
  | clientCloses i =>
      cases hstep
      simpa using inv_client h i [] true
  | thread t n mem removeFails =>
      obtain ⟨th, hth, hstep'⟩ := Option.bind_eq_some_iff.1 hstep
      exact inv_thread h hth hok hstep'

end

/-! ## Whole runs -/

/-- What holds in every run: `s1` is the socket of the connection accepted last. -/
structure Server.Named (s : Server) : Prop where
  cs : ∀ t (th : Thread), s.threads[t]? = some th → th.cs = t
  s1 : s.threads ≠ [] → s.s1 + 1 = s.threads.length

/-- The thread and the socket of an entry of the trace. -/
def Io.Own : Io → Prop
  | .recv t sock _ => sock = t
  | .send t sock _ => sock = t
  | .call t _ sock => sock = t
  | .close t sock => sock = t

section

variable {dir : Directory} {es : List Event} {s s' : Server} {t : Nat} {th : Thread}

/-- What a step of a thread leaves, whatever it does. -/
theorem threadStep_shape {n : Nat} {mem : Fileinfo} {removeFails : Bool}
    (hstep : s.threadStep t th n mem removeFails = some s') :
    s'.s1 = s.s1 ∧ (∃ th' : Thread, s'.threads = s.threads.set t th' ∧ th'.cs = th.cs) ∧
      ∃ ios, s'.trace = s.trace ++ ios ∧ (th.pc.UsesS1 → ∃ io ∈ ios, io.Own → s.s1 = t) := by
  unfold Server.threadStep at hstep
  split at hstep <;> rename_i hpc <;> rw [hpc]
  · cases hstep
    exact ⟨rfl, ⟨_, rfl, rfl⟩, [], by simp [Server.goto], False.elim⟩
  · obtain ⟨⟨got, s₁⟩, hgot, rfl⟩ := Option.map_eq_some_iff.1 hstep
    obtain ⟨-, rfl⟩ := recv_eq_some hgot
    exact ⟨rfl, ⟨_, rfl, rfl⟩, [.recv t s.s1 got], rfl, fun _ => ⟨_, List.mem_singleton_self _, id⟩⟩
  · cases hstep
    exact ⟨rfl, ⟨_, rfl, rfl⟩, [], by simp [Server.goto], False.elim⟩
  · cases hstep
    exact ⟨rfl, ⟨_, rfl, rfl⟩, [.send t s.s1 s.szbuffer], rfl, fun _ => ⟨_, List.mem_singleton_self _, id⟩⟩
  · rename_i c
    cases hstep
    exact ⟨rfl, ⟨_, rfl, rfl⟩, [.call t c s.s1], rfl, fun _ => ⟨_, List.mem_singleton_self _, id⟩⟩
  · rename_i c sock x
    unfold Server.handlerStep at hstep
    split at hstep
    · obtain ⟨⟨got, s₁⟩, hgot, rfl⟩ := Option.map_eq_some_iff.1 hstep
      obtain ⟨-, rfl⟩ := recv_eq_some hgot
      exact ⟨rfl, ⟨_, rfl, rfl⟩, [.recv t sock got], rfl, False.elim⟩
    · cases hstep
      exact ⟨rfl, ⟨_, rfl, rfl⟩, [.send t sock _], rfl, False.elim⟩
    · cases hstep
      exact ⟨rfl, ⟨_, rfl, rfl⟩, [.close t sock], rfl, False.elim⟩
    · cases hstep
      exact ⟨rfl, ⟨_, rfl, rfl⟩, [], by simp [Server.goto], False.elim⟩
    · cases hstep
  · cases hstep

theorem named_step {ev : Event} (h : s.Named) (hstep : s.step ev = some s') :
    s'.Named ∧ s.trace <+: s'.trace := by
  cases ev with
  | accept =>
      cases hstep
      refine ⟨⟨fun t th hth => ?_, fun _ => by simp⟩, List.prefix_rfl⟩
      dsimp only at hth
      rcases Nat.lt_or_ge t s.threads.length with hlt | hge
      · rw [List.getElem?_append_left hlt] at hth
        exact h.cs t th hth
      · rw [List.getElem?_append_right hge] at hth
        obtain ⟨hlt, rfl⟩ := List.getElem?_eq_some_iff.1 hth
        rw [List.length_singleton] at hlt
        simp only [List.getElem_singleton]
        omega
  | clientSends i data =>
      cases hstep
      exact ⟨⟨h.cs, h.s1⟩, List.prefix_rfl⟩
  | clientCloses i =>
      cases hstep
      exact ⟨⟨h.cs, h.s1⟩, List.prefix_rfl⟩
  | thread t n mem removeFails =>
      obtain ⟨th, hth, hstep'⟩ := Option.bind_eq_some_iff.1 hstep
      obtain ⟨hs1, ⟨th', hthreads, hcs⟩, ios, htrace, -⟩ := threadStep_shape hstep'
      refine ⟨⟨fun t' x hx => ?_, fun hne => ?_⟩, ⟨ios, htrace.symm⟩⟩
      · rw [hthreads] at hx
        by_cases hit : t' = t
        · subst hit
          rw [getElem?_set_own hth] at hx
          cases hx
          rw [hcs]
          exact h.cs t' th hth
        · rw [getElem?_set_other hit] at hx
          exact h.cs t' x hx
      · rw [hs1, hthreads, List.length_set]
        refine h.s1 fun hnil => ?_
        rw [hnil] at hth
        cases hth

theorem named_of_run (h : Run Server.step anyStep (Server.start dir) es s) : s.Named :=
  h.invariant (fun _ _ _ hnamed _ hst => (named_step hnamed hst).1)
    ⟨by simp [Server.start], by simp [Server.start]⟩

/-- What serves its connection uses the socket with the number of the thread. -/
theorem Server.Serves.own {io : Io} (hnamed : s.Named) (h : s.Serves io) : io.Own := by
  have hcreated : ∀ t sock, s.created t = some sock → sock = t := by
    intro t sock ht
    obtain ⟨th, hth, rfl⟩ := Option.map_eq_some_iff.1 ht
    exact hnamed.cs t th hth
  cases io with
  | call t c sock => exact hcreated t sock h.1
  | recv t sock got => exact hcreated t sock h
  | send t sock data => exact hcreated t sock h
  | close t sock => exact hcreated t sock h

/-- A thread that uses `s1` when a further connection has been accepted uses the socket of that one. -/
theorem apart_of_own (hrun : Run Server.step anyStep (Server.start dir) es s)
    (hown : ∀ io ∈ s.trace, io.Own) : Run Server.step Server.Apart (Server.start dir) es s := by
  induction hrun with
  | nil => exact .nil
  | @snoc es ev s s' hrun _ hstep ih =>
      have hnamed := named_of_run hrun
      have hbefore : ∀ io ∈ s.trace, io.Own := fun io hio =>
        hown io ((named_step hnamed hstep).2.subset hio)
      refine .snoc (ih hbefore) ?_ hstep
      cases ev with
      | accept => trivial
      | clientSends i data => trivial
      | clientCloses i => trivial
      | thread t n mem removeFails =>
          obtain ⟨th, hth, hstep'⟩ := Option.bind_eq_some_iff.1 hstep
          obtain ⟨-, -, ios, htrace, huses⟩ := threadStep_shape hstep'
          intro x hx hpc
          cases hth.symm.trans hx
          obtain ⟨io, hio, hsocket⟩ := huses hpc
          have hs1 := hsocket (hown io (htrace ▸ List.mem_append_right _ hio))
          have hne : s.threads ≠ [] := fun hnil => by
            rw [hnil] at hth
            cases hth
          rw [Server.Newest, ← hs1]
          exact (hnamed.s1 hne).symm

/-- Whatever the clients send and however the threads take turns: each thread receives from and sends to its own
connection only, and the commands it executes are what that connection sent, exactly when no connection is
accepted while an earlier one has still to receive its request, repeat it or call its function. -/
theorem connection_isolation (hrun : Run Server.step anyStep (Server.start dir) es s) :
    (∀ io ∈ s.trace, s.Serves io) ↔ Run Server.step Server.Apart (Server.start dir) es s := by
  constructor
  · intro hserves
    exact apart_of_own hrun fun io hio => (hserves io hio).own (named_of_run hrun)
  · intro happart
    have hinit : (Server.start dir).Inv :=
      ⟨by simp [Server.start], fun _ _ => rfl, by simp [Server.start, Server.Newest], by simp [Server.start]⟩
    exact (happart.invariant (fun _ _ _ hi hok hst => inv_step hi hok hst) hinit).serves

end

instance (s : Server) (t : Nat) : Decidable (s.Newest t) :=
  inferInstanceAs (Decidable (s.threads.length = t + 1))

instance (s : Server) (ev : Event) : Decidable (s.Apart ev) := by
  cases ev with
  | thread t n mem removeFails =>
      exact inferInstanceAs (Decidable (∀ th ∈ s.threads[t]?, th.pc.UsesS1 → s.Newest t))
  | accept => exact inferInstanceAs (Decidable True)
  | clientSends i data => exact inferInstanceAs (Decidable True)
  | clientCloses i => exact inferInstanceAs (Decidable True)

instance (s : Server) (io : Io) : Decidable (s.Serves io) := by
  cases io <;> unfold Server.Serves <;> infer_instance

/-- A step of a thread that needs no other input than the number of bytes it receives. -/
def runs (t n : Nat) : Event := .thread t n ones false

/-- The first client uploads nothing behind its command, so that its thread waits in `GetFileFromClient` while
the second connection is served. -/
def waitsMeanwhile : List Event :=
  [.accept, .clientSends 0 Command.put.text, runs 0 0, runs 0 4, runs 0 0, runs 0 0, runs 0 0, runs 0 0,
    runs 0 0, .accept, .clientSends 1 Command.list.text, runs 1 0, runs 1 5, runs 1 0, runs 1 0, runs 1 0,
    runs 1 0, runs 1 0]

theorem connection_isolation_two :
    ∃ s, Run Server.step anyStep (Server.start [⟨[97], [1], true⟩]) waitsMeanwhile s ∧
      Io.call 1 .list 1 ∈ s.trace ∧
      ((∀ io ∈ s.trace, s.Serves io) ↔
        Run Server.step Server.Apart (Server.start [⟨[97], [1], true⟩]) waitsMeanwhile s) ∧
      ∀ io ∈ s.trace, s.Serves io := by
  have hexec : ∃ s, Run Server.step Server.Apart (Server.start [⟨[97], [1], true⟩]) waitsMeanwhile s ∧
      Io.call 1 .list 1 ∈ s.trace := exists_run_of_exec (by decide +kernel)
  obtain ⟨s, hrun, hcall⟩ := hexec
  have hany := hrun.mono fun _ _ _ => trivial
  have hiff := connection_isolation hany
  exact ⟨s, hany, hcall, hiff, hiff.2 hrun⟩

/-- The second connection is accepted before the first thread has received: the thread of the first
connection takes the request of the second one. -/
def acceptedTooSoon : List Event :=
  [.accept, .accept, .clientSends 0 Command.list.text, .clientSends 1 Command.get.text, runs 0 0,
    runs 0 4]

theorem request_of_another :
    ∃ s, Run Server.step anyStep (Server.start [⟨[97], [1], true⟩]) acceptedTooSoon s ∧
      ¬ ∀ io ∈ s.trace, s.Serves io :=
  exists_run_of_exec_any (by decide +kernel)

end Build1
end FileTransfer
