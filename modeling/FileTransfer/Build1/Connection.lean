import FileTransfer.Build1.Serving

/-!
# A client and the threaded server

The client at one end of a connection, and at the other the server of `Threads` with the thread it has started for
it; the threads of earlier connections are at rest.  `Stands` connects that thread with the program of `Serving`,
step by step, and `until_of_programs` brings what the two programs come to back to the system, however their steps
are mixed and however TCP divides a file.
-/

namespace FileTransfer
namespace Build1

open Conversation Listing

/-! ## The system -/

/-- The socket of an entry of the trace. -/
def Io.sock : Io → Nat
  | .recv _ k _ => k
  | .send _ k _ => k
  | .call _ _ k => k
  | .close _ k => k

/-- The data that an entry of the trace has sent over this socket. -/
def Io.data (k : Nat) : Io → List Byte
  | .send _ sock data => if sock = k then data else []
  | _ => []

namespace Server

variable (s : Server)

/-- All that the server has sent over this socket. -/
def output (k : Nat) : List Byte := s.trace.flatMap (Io.data k)

/-- The server when it has accepted the next connection. -/
def accepted : Server :=
  { s with
    s1 := s.threads.length
    threads := s.threads ++ [⟨s.threads.length, .memset, []⟩] }

theorem accepted_step : s.step .accept = some s.accepted := rfl

/-- The socket that a thread receives from. -/
def sockOf : Pc → Nat
  | .handler _ k _ => k
  | _ => s.s1

/-- A thread of the server as a program. -/
def serving (mem : Fileinfo) (removeFails : Bool) (t : Nat) : Option Serving :=
  s.threads[t]?.map fun th => ⟨th.pc, s.szbuffer, s.dir, mem, removeFails⟩

end Server

/-- How many bytes a `recv` outside the loop that receives a file asks for. -/
def Serving.asks (y : Serving) : Option Nat :=
  match y.move with
  | .recv true want _ => some want
  | _ => none

/-- The client at its end of the connection, the socket of the other end, and the server. -/
structure Connection where
  client : End Client Byte
  sock : Nat
  server : Server

namespace Connection

/-- A step of the client, or of a thread of the server. -/
inductive Step (mem : Fileinfo) (removeFails : Bool) (x : Connection) : Connection → Prop where
  | goes {c : Client} : x.client.state.move = .go c →
      Step mem removeFails x { x with client := { x.client with state := c } }
  | sends {data : List Byte} {c : Client} {s : Server} : x.client.state.move = .send data c →
      x.server.step (.clientSends x.sock data) = some s →
      Step mem removeFails x ⟨{ x.client with state := c }, x.sock, s⟩
  | receives {whole : Bool} {want : Nat} {next : List Byte → Client} (n : Nat) :
      x.client.state.move = .recv whole want next → 0 < n → n ≤ want → n ≤ x.client.inbox.length →
      (whole = true → n = min want x.client.inbox.length) →
      Step mem removeFails x { x with client := { x.client with
        state := next (x.client.inbox.take n)
        inbox := x.client.inbox.drop n } }
  /-- the server has closed the connection -/
  | ends {whole : Bool} {want : Nat} {next : List Byte → Client} (t : Nat) :
      x.client.state.move = .recv whole want next → x.client.inbox = [] →
      Io.close t x.sock ∈ x.server.trace →
      Step mem removeFails x { x with client := { x.client with state := next [] } }
  | thread (t n : Nat) {s : Server} : x.server.step (.thread t n mem removeFails) = some s →
      (∀ y want, x.server.serving mem removeFails t = some y → y.asks = some want →
        n = min want (x.server.conns (x.server.sockOf y.pc)).incoming.length) →
      Step mem removeFails x ⟨{ x.client with
        inbox := x.client.inbox ++ (s.output x.sock).drop (x.server.output x.sock).length }, x.sock, s⟩

/-- The client begins with this function on a new connection. -/
def start (c : Client) (op : Op) (s : Server) : Connection :=
  ⟨⟨c.goto (.command op), [], false⟩, s.threads.length, s.accepted⟩

end Connection

/-! ## Threads at rest -/

/-- A thread that has returned, or waits for the record of a file. -/
def Thread.Rests (s : Server) (t : Nat) (th : Thread) : Prop :=
  th.pc = .returned ∨ ∃ mem, th.pc = .handler .put t (.getFile (.record mem)) ∧
    (s.conns t).incoming = [] ∧ (s.conns t).closed = false

/-- No thread goes on before a new connection is accepted, and nothing has come over that one. -/
structure Server.Rests (s : Server) : Prop where
  threads : ∀ t (th : Thread), s.threads[t]? = some th → th.Rests s t
  incoming : ∀ k, s.threads.length ≤ k → (s.conns k).incoming = [] ∧ (s.conns k).closed = false
  trace : ∀ io ∈ s.trace, io.sock < s.threads.length

theorem Server.rests_start (dir : Directory) : (Server.start dir).Rests where
  threads t th h := by simp [Server.start] at h
  incoming k _ := ⟨rfl, rfl⟩
  trace io h := by simp [Server.start] at h

/-- A client may close the connection of a thread that has returned. -/
theorem Server.Rests.clientCloses {s s' : Server} {k : Nat} {th : Thread} (h : s.Rests)
    (hth : s.threads[k]? = some th) (hpc : th.pc = .returned) (hstep : s.step (.clientCloses k) = some s') :
    s'.Rests := by
  cases hstep
  refine ⟨fun t th' hth' => ?_, fun i hi => ?_, h.trace⟩
  · by_cases ht : t = k
    · subst ht
      cases hth.symm.trans hth'
      exact .inl hpc
    · rw [Thread.Rests]
      simp only [Function.update_of_ne ht]
      exact h.threads t th' hth'
  · have hlt : k < s.threads.length := (List.getElem?_eq_some_iff.1 hth).1
    simp only [Function.update_of_ne (Nat.ne_of_gt (hlt.trans_le hi))]
    exact h.incoming i hi

/-- A thread at rest cannot go on while its own connection stays as it is. -/
theorem Thread.Rests.step_eq {s₀ s : Server} {t : Nat} {th : Thread} (h : th.Rests s₀ t)
    (hthread : s.threads[t]? = some th) (hconn : s.conns t = s₀.conns t) (n : Nat) (mem : Fileinfo)
    (removeFails : Bool) : s.step (.thread t n mem removeFails) = none := by
  rw [Server.step, hthread]
  change s.threadStep t th n mem removeFails = none
  rcases h with hpc | ⟨record, hpc, hincoming, hclosed⟩
  · rw [Server.threadStep, hpc]
  · have hnothing : s.recv t t (GetFile.record record).want n = none := by
      refine if_neg ?_
      rintro ⟨-, hlen, hzero⟩
      rw [hconn, hincoming] at hlen
      have hclose := (hzero (Nat.le_zero.1 hlen)).2
      rw [hconn, hclosed] at hclose
      cases hclose
    rw [Server.threadStep, hpc]
    change (s.recv t t (GetFile.record record).want n).map _ = none
    rw [hnothing]
    rfl

/-! ## The thread -/

/-- A thread on this socket. -/
def Pc.on (k : Nat) : Pc → Pc
  | .handler c _ h => .handler c k h
  | pc => pc

theorem Pc.on_next (k : Nat) (c : Command) : c.next.on k = c.next := by
  cases c <;> rfl

theorem Serving.asks_on (y : Serving) (k : Nat) : Serving.asks { y with pc := y.pc.on k } = y.asks := by
  obtain ⟨pc, szbuffer, dir, mem, removeFails⟩ := y
  cases pc with
  | handler c sock h =>
      simp only [Serving.asks, Serving.move, Serving.handlerMove, Pc.on]
      generalize h.whole = whole
      cases h.action removeFails dir with
      | recv want next => cases whole <;> rfl
      | _ => rfl
  | _ => rfl

/-- The server is at `y` with the connection that it has accepted behind `s₀`, with these bytes to receive, and has
closed the connection or not. -/
structure Stands (mem : Fileinfo) (removeFails : Bool) (s₀ : Server) (y : Serving) (inbox : List Byte)
    (closed : Bool) (s : Server) : Prop where
  memory : y.mem = mem
  fails : y.removeFails = removeFails
  socket : s.s1 = s₀.threads.length
  threads : ∃ request,
    s.threads = s₀.threads ++ [⟨s₀.threads.length, y.pc.on s₀.threads.length, request⟩]
  szbuffer : s.szbuffer = y.szbuffer
  dir : s.dir = y.dir
  incoming : (s.conns s₀.threads.length).incoming = inbox
  opened : (s.conns s₀.threads.length).closed = false
  others : ∀ k, k ≠ s₀.threads.length → s.conns k = s₀.conns k
  closes : closed = true ↔ ∃ t, Io.close t s₀.threads.length ∈ s.trace
  trace : ∀ io ∈ s.trace, io.sock ≤ s₀.threads.length

section Stands

variable {record : Fileinfo} {fails : Bool} {s₀ : Server} {y y' : Serving} {inbox : List Byte} {closed : Bool}
  {s : Server}

theorem Stands.thread_eq (h : Stands record fails s₀ y inbox closed s) :
    ∃ request, s.threads[s₀.threads.length]? =
      some ⟨s₀.threads.length, y.pc.on s₀.threads.length, request⟩ := by
  obtain ⟨request, hthreads⟩ := h.threads
  exact ⟨request, by rw [hthreads, List.getElem?_concat_length]⟩

theorem Stands.serving (h : Stands record fails s₀ y inbox closed s) :
    s.serving record fails s₀.threads.length = some { y with pc := y.pc.on s₀.threads.length } := by
  obtain ⟨request, hthread⟩ := h.thread_eq
  rw [Server.serving, hthread, h.szbuffer, h.dir, ← h.memory, ← h.fails]
  rfl

theorem Stands.sockOf (h : Stands record fails s₀ y inbox closed s) :
    s.sockOf (y.pc.on s₀.threads.length) = s₀.threads.length := by
  cases y.pc with
  | handler c k x => rfl
  | _ => exact h.socket

theorem Stands.step_eq (h : Stands record fails s₀ y inbox closed s) :
    ∃ request, ∀ n, s.step (.thread s₀.threads.length n y.mem y.removeFails) =
      s.threadStep s₀.threads.length ⟨s₀.threads.length, y.pc.on s₀.threads.length, request⟩ n y.mem
        y.removeFails := by
  obtain ⟨request, hthread⟩ := h.thread_eq
  refine ⟨request, fun n => ?_⟩
  rw [Server.step, hthread]
  rfl

/-- The other threads stay where they are. -/
theorem Stands.step_other (h : Stands record fails s₀ y inbox closed s) (hrests : s₀.Rests) {t : Nat}
    (ht : t ≠ s₀.threads.length) (n : Nat) (mem : Fileinfo) (removeFails : Bool) :
    s.step (.thread t n mem removeFails) = none := by
  obtain ⟨request, hthreads⟩ := h.threads
  rcases Nat.lt_or_gt_of_ne ht with hlt | hgt
  · obtain ⟨th, hth⟩ : ∃ th, s₀.threads[t]? = some th := ⟨_, List.getElem?_eq_getElem hlt⟩
    have hthread : s.threads[t]? = some th := by
      rw [hthreads, List.getElem?_append_left hlt, hth]
    exact (hrests.threads t th hth).step_eq hthread (h.others t ht) n mem removeFails
  · have hnone : s.threads[t]? = none := by
      rw [hthreads, List.getElem?_eq_none]
      rw [List.length_append]
      exact hgt
    rw [Server.step, hnone]
    rfl

/-- The thread goes on, and nothing else changes. -/
theorem Stands.goto (h : Stands record fails s₀ y inbox closed s) (request : List Byte) {pc pc' : Pc}
    (hpc : pc' = pc.on s₀.threads.length) :
    Stands record fails s₀ (y.goto pc) inbox closed
      (s.goto s₀.threads.length ⟨s₀.threads.length, y.pc.on s₀.threads.length, request⟩ pc') := by
  obtain ⟨request', hthreads⟩ := h.threads
  subst hpc
  refine ⟨h.memory, h.fails, h.socket, ⟨request, ?_⟩, h.szbuffer, h.dir, h.incoming, h.opened, h.others, h.closes,
    h.trace⟩
  simp [Server.goto, Serving.goto, hthreads]

/-- An entry of the trace. -/
theorem Stands.note (h : Stands record fails s₀ y inbox closed s) (io : Io)
    (hsock : io.sock = s₀.threads.length) (hio : ∀ t k, io ≠ .close t k) :
    Stands record fails s₀ y inbox closed (s.note io) := by
  refine ⟨h.memory, h.fails, h.socket, h.threads, h.szbuffer, h.dir, h.incoming, h.opened, h.others, ?_, ?_⟩
  · simp only [Server.note, List.mem_append, List.mem_singleton, (hio _ _).symm, or_false]
    exact h.closes
  · simp only [Server.note, List.forall_mem_append, List.forall_mem_singleton]
    exact ⟨h.trace, hsock.le⟩

theorem Stands.note_close (h : Stands record fails s₀ y inbox closed s) (t : Nat) :
    Stands record fails s₀ y inbox true (s.note (.close t s₀.threads.length)) := by
  refine ⟨h.memory, h.fails, h.socket, h.threads, h.szbuffer, h.dir, h.incoming, h.opened, h.others, ?_, ?_⟩
  · simp only [Server.note, true_iff]
    exact ⟨t, List.mem_append_right _ List.mem_cons_self⟩
  · simp only [Server.note, List.forall_mem_append, List.forall_mem_singleton]
    exact ⟨h.trace, Nat.le_refl _⟩

theorem output_note (s : Server) (io : Io) (k : Nat) : (s.note io).output k = s.output k ++ io.data k := by
  simp [Server.output, Server.note]

theorem Stands.go (h : Stands record fails s₀ y inbox closed s) (hmove : y.move = .go y') :
    ∃ s', (∀ n, s.step (.thread s₀.threads.length n y.mem y.removeFails) = some s') ∧
      Stands record fails s₀ y' inbox closed s' ∧ s'.output s₀.threads.length = s.output s₀.threads.length := by
  obtain ⟨request, hstep⟩ := h.step_eq
  have hszbuffer := h.szbuffer
  have hdir := h.dir
  have hsocket := h.socket
  simp only [hstep]
  obtain ⟨pc, szbuffer, dir, mem, removeFails⟩ := y
  cases pc with
  | memset =>
      cases hmove
      have hclear : Stands record fails s₀ ⟨.memset, List.replicate requestLength 0, dir, mem, removeFails⟩ inbox
          closed { s with szbuffer := List.replicate requestLength 0 } :=
        { h with szbuffer := rfl }
      exact ⟨_, fun _ => rfl, hclear.goto request rfl, rfl⟩
  | compare c =>
      cases hmove
      refine ⟨_, fun _ => rfl, ?_, rfl⟩
      rw [hszbuffer]
      refine h.goto request ?_
      split_ifs <;> first | rfl | exact (Pc.on_next _ _).symm
  | call c =>
      cases hmove
      refine ⟨_, fun _ => rfl, ?_, ?_⟩
      · rw [hsocket, hdir]
        exact (h.note (.call s₀.threads.length c s₀.threads.length) rfl (by simp)).goto request rfl
      · exact (output_note s _ _).trans (List.append_nil _)
  | handler c k x =>
      simp only [Serving.move, Serving.handlerMove] at hmove
      split at hmove
      · cases hmove
      · cases hmove
      · cases hmove
      · rename_i haction
        cases hmove
        refine ⟨s.goto s₀.threads.length
          ⟨s₀.threads.length, .handler c s₀.threads.length x, request⟩ c.next, fun n => ?_, ?_, rfl⟩
        · simp only [Server.threadStep, Pc.on, hdir, haction, Server.handlerStep]
        · exact h.goto request (Pc.on_next _ _).symm
      · cases hmove
  | recv | reply _ | returned => cases hmove

theorem Stands.send {data : List Byte} (h : Stands record fails s₀ y inbox closed s)
    (hmove : y.move = .send data y') :
    ∃ s', (∀ n, s.step (.thread s₀.threads.length n y.mem y.removeFails) = some s') ∧
      Stands record fails s₀ y' inbox closed s' ∧
      s'.output s₀.threads.length = s.output s₀.threads.length ++ data := by
  obtain ⟨request, hstep⟩ := h.step_eq
  have hszbuffer := h.szbuffer
  have hdir := h.dir
  have hsocket := h.socket
  have houtput : ∀ data, (s.note (.send s₀.threads.length s₀.threads.length data)).output s₀.threads.length =
      s.output s₀.threads.length ++ data := by
    intro data
    rw [output_note, Io.data, if_pos rfl]
  simp only [hstep]
  obtain ⟨pc, szbuffer, dir, mem, removeFails⟩ := y
  cases pc with
  | reply c =>
      cases hmove
      refine ⟨_, fun _ => rfl, ?_, ?_⟩
      · rw [hsocket]
        exact (h.note (.send s₀.threads.length s₀.threads.length s.szbuffer) rfl (by simp)).goto request rfl
      · rw [hsocket, ← hszbuffer]
        exact houtput s.szbuffer
  | handler c k x =>
      simp only [Serving.move, Serving.handlerMove] at hmove
      split at hmove
      · cases hmove
      · rename_i data' next haction
        cases hmove
        refine ⟨(s.note (.send s₀.threads.length s₀.threads.length data)).goto s₀.threads.length
          ⟨s₀.threads.length, .handler c s₀.threads.length x, request⟩ (.handler c s₀.threads.length next),
          fun n => ?_, ?_, houtput data⟩
        · simp only [Server.threadStep, Pc.on, hdir, haction, Server.handlerStep]
        · exact (h.note (.send s₀.threads.length s₀.threads.length data) rfl (by simp)).goto request rfl
      · cases hmove
      · cases hmove
      · cases hmove
  | memset | recv | compare _ | call _ | returned => cases hmove

theorem Stands.close (h : Stands record fails s₀ y inbox closed s) (hmove : y.move = .close y') :
    ∃ s', (∀ n, s.step (.thread s₀.threads.length n y.mem y.removeFails) = some s') ∧
      Stands record fails s₀ y' inbox true s' ∧ s'.output s₀.threads.length = s.output s₀.threads.length := by
  obtain ⟨request, hstep⟩ := h.step_eq
  have hdir := h.dir
  simp only [hstep]
  obtain ⟨pc, szbuffer, dir, mem, removeFails⟩ := y
  cases pc with
  | handler c k x =>
      simp only [Serving.move, Serving.handlerMove] at hmove
      split at hmove
      · cases hmove
      · cases hmove
      · rename_i haction
        cases hmove
        refine ⟨(s.note (.close s₀.threads.length s₀.threads.length)).goto s₀.threads.length
          ⟨s₀.threads.length, .handler c s₀.threads.length x, request⟩
          (.handler c s₀.threads.length .returned), fun n => ?_, ?_,
          (output_note s _ _).trans (List.append_nil _)⟩
        · simp only [Server.threadStep, Pc.on, hdir, haction, Server.handlerStep]
        · exact (h.note_close _).goto request rfl
      · cases hmove
      · cases hmove
  | memset | recv | compare _ | reply _ | call _ | returned => cases hmove

theorem Stands.stop (h : Stands record fails s₀ y inbox closed s) (hmove : y.move = .stop) (n : Nat) :
    s.step (.thread s₀.threads.length n y.mem y.removeFails) = none := by
  obtain ⟨request, hstep⟩ := h.step_eq
  rw [hstep]
  obtain ⟨pc, szbuffer, dir, mem, removeFails⟩ := y
  cases pc with
  | handler c k x =>
      have hdir := h.dir
      simp only [Serving.move, Serving.handlerMove] at hmove
      split at hmove
      · cases hmove
      · cases hmove
      · cases hmove
      · cases hmove
      · rename_i haction
        simp only [Server.threadStep, Pc.on, hdir, haction, Server.handlerStep]
  | returned => rfl
  | memset | recv | compare _ | reply _ | call _ => cases hmove

/-- What `recv` leaves of the server. -/
def Server.received (s : Server) (k n : Nat) : Server :=
  { s with
    conns := Function.update s.conns k
      { s.conns k with incoming := (s.conns k).incoming.drop n }
    trace := s.trace ++ [.recv k k ((s.conns k).incoming.take n)] }

theorem Stands.received (h : Stands record fails s₀ y inbox closed s) (n : Nat) :
    Stands record fails s₀ y (inbox.drop n) closed (s.received s₀.threads.length n) := by
  refine ⟨h.memory, h.fails, h.socket, h.threads, h.szbuffer, h.dir, ?_, ?_, ?_, ?_, ?_⟩
  · simp [Server.received, h.incoming]
  · simp [Server.received, h.opened]
  · intro k hk
    rw [← h.others k hk]
    exact Function.update_of_ne hk _ _
  · simpa [Server.received] using h.closes
  · simp only [Server.received, List.forall_mem_append, List.forall_mem_singleton]
    exact ⟨h.trace, Nat.le_refl _⟩

/-- `recv` returns any number of the bytes that have come, and waits for the first one. -/
theorem Stands.recv_eq (h : Stands record fails s₀ y inbox closed s) (want n : Nat) :
    s.recv s₀.threads.length s₀.threads.length want n =
      if 0 < n ∧ n ≤ want ∧ n ≤ inbox.length then some (inbox.take n, s.received s₀.threads.length n)
      else none := by
  unfold Server.recv Server.received
  simp only [h.incoming, h.opened]
  refine if_congr ?_ rfl rfl
  constructor
  · rintro ⟨hwant, hlen, hpos⟩
    exact ⟨Nat.pos_of_ne_zero fun hzero => Bool.false_ne_true (hpos hzero).2, hwant, hlen⟩
  · rintro ⟨hpos, hwant, hlen⟩
    exact ⟨hwant, hlen, fun hzero => absurd hzero (Nat.ne_of_gt hpos)⟩

theorem Stands.recv {whole : Bool} {want : Nat} {next : List Byte → Serving}
    (h : Stands record fails s₀ y inbox closed s) (hmove : y.move = .recv whole want next) (n : Nat) :
    (0 < n ∧ n ≤ want ∧ n ≤ inbox.length →
      ∃ s', s.step (.thread s₀.threads.length n y.mem y.removeFails) = some s' ∧
        Stands record fails s₀ (next (inbox.take n)) (inbox.drop n) closed s' ∧
        s'.output s₀.threads.length = s.output s₀.threads.length) ∧
      (¬ (0 < n ∧ n ≤ want ∧ n ≤ inbox.length) →
        s.step (.thread s₀.threads.length n y.mem y.removeFails) = none) := by
  obtain ⟨request, hstep⟩ := h.step_eq
  have hszbuffer := h.szbuffer
  have hdir := h.dir
  have hrecv := fun want => h.recv_eq want n
  have houtput : (s.received s₀.threads.length n).output s₀.threads.length = s.output s₀.threads.length := by
    simp [Server.output, Server.received, Io.data]
  have hreceived := h.received n
  simp only [hstep]
  obtain ⟨pc, szbuffer, dir, mem, removeFails⟩ := y
  cases pc with
  | recv =>
      cases hmove
      simp only [Server.threadStep, Pc.on, h.socket, hrecv]
      refine ⟨fun hn => ?_, fun hn => by rw [if_neg hn]; rfl⟩
      rw [if_pos hn]
      have hfilled : Stands record fails s₀
          ⟨.recv, inbox.take n ++ szbuffer.drop (inbox.take n).length, dir, mem, removeFails⟩
          (inbox.drop n) closed { s.received s₀.threads.length n with
            szbuffer := inbox.take n ++ (s.received s₀.threads.length n).szbuffer.drop (inbox.take n).length } :=
        { hreceived with szbuffer := by rw [hreceived.szbuffer] }
      exact ⟨_, rfl, hfilled.goto (inbox.take n) rfl, houtput⟩
  | handler c k x =>
      simp only [Serving.move, Serving.handlerMove] at hmove
      split at hmove
      · rename_i want' next' haction
        cases hmove
        simp only [Server.threadStep, Pc.on, hdir, haction, Server.handlerStep, hrecv]
        refine ⟨fun hn => ?_, fun hn => by rw [if_neg hn]; rfl⟩
        rw [if_pos hn]
        have hwritten : Stands record fails s₀
            ⟨.handler c k x, szbuffer, (next' dir (inbox.take n)).2, mem, removeFails⟩
            (inbox.drop n) closed { s.received s₀.threads.length n with
              dir := (next' (s.received s₀.threads.length n).dir (inbox.take n)).2 } :=
          { hreceived with dir := by rw [hreceived.dir] }
        have hpc : Pc.handler c s₀.threads.length (next' (s.received s₀.threads.length n).dir (inbox.take n)).1 =
            (Pc.handler c k (next' dir (inbox.take n)).1).on s₀.threads.length := by
          rw [hreceived.dir]
          rfl
        exact ⟨_, rfl, hwritten.goto request hpc, houtput⟩
      · cases hmove
      · cases hmove
      · cases hmove
      · cases hmove
  | memset | compare _ | reply _ | call _ | returned => cases hmove

end Stands

/-! ## The system and the two programs -/

theorem Client.move_ne_close (c c' : Client) : c.move ≠ .close c' := by
  intro h
  obtain ⟨x, dir, stack, reports⟩ := c
  cases x with
  | getData clientfilename fsize written =>
      simp only [Client.move] at h
      split at h <;> cases h
  | putData sizeleft rest =>
      simp only [Client.move] at h
      split_ifs at h
  | putClosed sizeleft =>
      simp only [Client.move] at h
      split_ifs at h
  | _ => cases h

/-- The client of the connection is at one end, and its server stands at the other. -/
structure Matches (mem : Fileinfo) (removeFails : Bool) (s₀ : Server) (x : Connection)
    (p : End Client Byte × End Serving Byte) : Prop where
  client : p.1 = x.client
  sock : x.sock = s₀.threads.length
  opened : p.1.closed = false
  server : Stands mem removeFails s₀ p.2.state p.2.inbox p.2.closed x.server

section Matches

variable {mem : Fileinfo} {removeFails : Bool} {s₀ : Server} {x x' : Connection}
  {p q : End Client Byte × End Serving Byte}

theorem Stands.clientSends {y : Serving} {inbox : List Byte} {closed : Bool} {s s' : Server}
    (h : Stands mem removeFails s₀ y inbox closed s) {data : List Byte}
    (hstep : s.step (.clientSends s₀.threads.length data) = some s') :
    Stands mem removeFails s₀ y (inbox ++ data) closed s' := by
  cases hstep
  refine ⟨h.memory, h.fails, h.socket, h.threads, h.szbuffer, h.dir, ?_, ?_, ?_, h.closes, h.trace⟩
  · simp [h.incoming]
  · simp [h.opened]
  · intro k hk
    rw [← h.others k hk]
    exact Function.update_of_ne hk _ _

/-- What the thread sends is what the client's inbox gains. -/
theorem drop_output {s s' : Server} {k : Nat} {data : List Byte} (h : s'.output k = s.output k ++ data) :
    (s'.output k).drop (s.output k).length = data := by
  rw [h, List.drop_left]

theorem Serving.asks_of_recv {y : Serving} {want : Nat} {next : List Byte → Serving}
    (h : y.move = .recv true want next) : y.asks = some want := by
  rw [Serving.asks, h]

/-- A step of the thread that serves the connection. -/
theorem Matches.thread (h : Matches mem removeFails s₀ x p) {n : Nat} {s : Server}
    (hstep : x.server.step (.thread s₀.threads.length n mem removeFails) = some s)
    (hwhole : ∀ want, p.2.state.asks = some want → n = min want p.2.inbox.length) :
    ∃ q, Conversation.Step Client.move Serving.move p q ∧ Matches mem removeFails s₀
      ⟨{ x.client with
        inbox := x.client.inbox ++ (s.output x.sock).drop (x.server.output x.sock).length }, x.sock, s⟩ q := by
  obtain ⟨hclient, hsock, hopen, hserver⟩ := h
  rw [← hserver.memory, ← hserver.fails] at hstep
  rw [hsock]
  have hsilent : s.output s₀.threads.length = x.server.output s₀.threads.length →
      ({ x.client with inbox := x.client.inbox ++
        (s.output s₀.threads.length).drop (x.server.output s₀.threads.length).length } : End Client Byte) =
          p.1 := by
    intro houtput
    have hnothing : s.output s₀.threads.length = x.server.output s₀.threads.length ++ [] := by
      rw [houtput, List.append_nil]
    rw [drop_output hnothing, List.append_nil, hclient]
  cases hmove : p.2.state.move with
  | go y =>
      obtain ⟨s', hs', hstands, houtput⟩ := hserver.go hmove
      cases (hs' n).symm.trans hstep
      exact ⟨(p.1, { p.2 with state := y }), .inr (.go hmove), (hsilent houtput).symm, rfl, hopen, hstands⟩
  | send data y =>
      obtain ⟨s', hs', hstands, houtput⟩ := hserver.send hmove
      cases (hs' n).symm.trans hstep
      refine ⟨({ p.1 with inbox := p.1.inbox ++ data }, { p.2 with state := y }), .inr (.send hmove), ?_,
        rfl, hopen, hstands⟩
      rw [drop_output houtput, hclient]
  | recv whole want next =>
      by_cases hn : 0 < n ∧ n ≤ want ∧ n ≤ p.2.inbox.length
      · obtain ⟨s', hs', hstands, houtput⟩ := (hserver.recv hmove n).1 hn
        cases hs'.symm.trans hstep
        refine ⟨(p.1, { p.2 with state := next (p.2.inbox.take n), inbox := p.2.inbox.drop n }),
          .inr (.recv n hmove hn.1 hn.2.1 hn.2.2 ?_), (hsilent houtput).symm, rfl, hopen, hstands⟩
        rintro rfl
        exact hwhole want (Serving.asks_of_recv hmove)
      · cases ((hserver.recv hmove n).2 hn).symm.trans hstep
  | close y =>
      obtain ⟨s', hs', hstands, houtput⟩ := hserver.close hmove
      cases (hs' n).symm.trans hstep
      exact ⟨(p.1, { p.2 with state := y, closed := true }), .inr (.close hmove), (hsilent houtput).symm,
        rfl, hopen, hstands⟩
  | stop => cases (hserver.stop hmove n).symm.trans hstep

/-- A step of the system is one of the two programs. -/
theorem Matches.step (hrests : s₀.Rests) (h : Matches mem removeFails s₀ x p)
    (hstep : Connection.Step mem removeFails x x') :
    ∃ q, Conversation.Step Client.move Serving.move p q ∧ Matches mem removeFails s₀ x' q := by
  obtain ⟨client, sock, server⟩ := x
  obtain ⟨rfl, rfl, hopen, hserver⟩ := id h
  cases hstep with
  | @goes c hmove => exact ⟨({ p.1 with state := c }, p.2), .inl (.go hmove), rfl, rfl, hopen, hserver⟩
  | @sends data c s hmove hsends =>
      exact ⟨({ p.1 with state := c }, { p.2 with inbox := p.2.inbox ++ data }), .inl (.send hmove), rfl,
        rfl, hopen, hserver.clientSends hsends⟩
  | @receives whole want next n hmove hpos hwant hlen hwhole =>
      exact ⟨({ p.1 with state := next (p.1.inbox.take n), inbox := p.1.inbox.drop n }, p.2),
        .inl (.recv n hmove hpos hwant hlen hwhole), rfl, rfl, hopen, hserver⟩
  | @ends whole want next t hmove hempty hclose =>
      exact ⟨({ p.1 with state := next [] }, p.2),
        .inl (.ends hmove hempty (hserver.closes.2 ⟨t, hclose⟩)), rfl, rfl, hopen, hserver⟩
  | thread t n hthread hwhole =>
      by_cases ht : t = s₀.threads.length
      · subst ht
        refine h.thread hthread fun want hasks => ?_
        have hn := hwhole _ want hserver.serving (by rw [Serving.asks_on, hasks])
        rwa [hserver.sockOf, hserver.incoming] at hn
      · cases (hserver.step_other hrests ht n mem removeFails).symm.trans hthread

/-- Where one of the programs can go on, so can the system. -/
theorem Matches.exists_step (h : Matches mem removeFails s₀ x p)
    (hstep : Conversation.Step Client.move Serving.move p q) :
    ∃ x', Connection.Step mem removeFails x x' := by
  obtain ⟨hclient, hsock, hopen, hserver⟩ := id h
  obtain ⟨q₁, q₂⟩ := q
  have hthread : ∀ {n : Nat} {s : Server},
      x.server.step (.thread s₀.threads.length n p.2.state.mem p.2.state.removeFails) = some s →
      (∀ want next, p.2.state.move = .recv true want next → n = min want p.2.inbox.length) →
      ∃ x', Connection.Step mem removeFails x x' := by
    intro n s hs hwhole
    rw [hserver.memory, hserver.fails] at hs
    refine ⟨_, .thread _ n hs fun y want hy hasks => ?_⟩
    cases hserver.serving.symm.trans hy
    rw [Serving.asks_on, Serving.asks] at hasks
    rw [hserver.sockOf, hserver.incoming]
    split at hasks
    · rename_i hmove
      cases hasks
      exact hwhole _ _ hmove
    · cases hasks
  rcases hstep with hstep | hstep
  · cases hstep with
    | go hmove => exact ⟨_, .goes (hclient ▸ hmove)⟩
    | send hmove => exact ⟨_, .sends (hclient ▸ hmove) rfl⟩
    | recv n hmove hpos hwant hlen hwhole =>
        exact ⟨_, .receives n (hclient ▸ hmove) hpos hwant (hclient ▸ hlen) (hclient ▸ hwhole)⟩
    | ends hmove hempty hclosed =>
        obtain ⟨t, ht⟩ := hserver.closes.1 hclosed
        exact ⟨_, .ends t (hclient ▸ hmove) (hclient ▸ hempty) (hsock ▸ ht)⟩
    | close hmove => exact absurd hmove (Client.move_ne_close _ _)
  · cases hstep with
    | go hmove =>
        obtain ⟨s', hs', -⟩ := hserver.go hmove
        exact hthread (hs' 0) fun want next hrecv => by cases hmove.symm.trans hrecv
    | send hmove =>
        obtain ⟨s', hs', -⟩ := hserver.send hmove
        exact hthread (hs' 0) fun want next hrecv => by cases hmove.symm.trans hrecv
    | recv n hmove hpos hwant hlen hwhole =>
        obtain ⟨s', hs', -⟩ := (hserver.recv hmove n).1 ⟨hpos, hwant, hlen⟩
        refine hthread hs' fun want next hrecv => ?_
        cases hmove.symm.trans hrecv
        exact hwhole rfl
    | ends hmove hempty hclosed => cases hopen.symm.trans hclosed
    | close hmove =>
        obtain ⟨s', hs', -⟩ := hserver.close hmove
        exact hthread (hs' 0) fun want next hrecv => by cases hmove.symm.trans hrecv

end Matches

/-! ## What the two come to -/

/-- Where the thread of a connection is left: it has returned, or waits for the record of a file. -/
def Pc.IsLeft (pc : Pc) : Prop := pc = .returned ∨ ∃ mem, pc = .handler .put 0 (.getFile (.record mem))

/-- The client and the thread are there with this directory, and nothing can happen any more. -/
structure Ended (mem : Fileinfo) (removeFails : Bool) (x : Connection) (c : Client) (pc : Pc)
    (dir : Directory) : Prop where
  client : x.client.state = c
  thread : ∃ th, x.server.threads[x.sock]? = some th ∧ th.pc = pc.on x.sock
  dir : x.server.dir = dir
  settled : ∀ x', ¬ Connection.Step mem removeFails x x'
  rests : x.server.Rests

section Programs

variable (mem : Fileinfo) (removeFails : Bool) (c : Client) {s₀ : Server}

/-- The thread when its connection is accepted. -/
def Serving.accepted (s₀ : Server) : Serving := ⟨.memset, s₀.szbuffer, s₀.dir, mem, removeFails⟩

theorem matches_start (hrests : s₀.Rests) (op : Op) :
    Matches mem removeFails s₀ (.start c op s₀)
      (⟨c.goto (.command op), [], false⟩, ⟨.accepted mem removeFails s₀, [], false⟩) := by
  obtain ⟨hincoming, hclosed⟩ := hrests.incoming s₀.threads.length (Nat.le_refl _)
  refine ⟨rfl, rfl, rfl, ⟨rfl, rfl, rfl, ⟨[], rfl⟩, rfl, rfl, hincoming, hclosed, fun _ _ => rfl, ?_, ?_⟩⟩
  · refine ⟨fun h => (Bool.false_ne_true h).elim, ?_⟩
    rintro ⟨t, ht⟩
    exact absurd (hrests.trace _ ht) (Nat.lt_irrefl _)
  · exact fun io hio => (hrests.trace io hio).le

/-- Where the programs cannot go on, the server is at rest. -/
theorem Matches.rests {x : Connection} {p : End Client Byte × End Serving Byte} (hrests : s₀.Rests)
    (h : Matches mem removeFails s₀ x p) (hleft : p.2.state.pc.IsLeft)
    (hnone : ∀ q, ¬ Conversation.Step Client.move Serving.move p q) : x.server.Rests := by
  obtain ⟨-, -, -, hserver⟩ := h
  obtain ⟨request, hthreads⟩ := hserver.threads
  refine ⟨fun t th hth => ?_, fun k hk => ?_, fun io hio => ?_⟩
  · rcases Nat.lt_or_ge t s₀.threads.length with hlt | hge
    · -- the threads before it
      rw [hthreads, List.getElem?_append_left hlt] at hth
      have hconn := hserver.others t (Nat.ne_of_lt hlt)
      rw [Thread.Rests, hconn]
      exact hrests.threads t th hth
    · obtain rfl : t = s₀.threads.length := by
        have hlen := (List.getElem?_eq_some_iff.1 hth).1
        rw [hthreads, List.length_append, List.length_singleton] at hlen
        omega
      rw [hthreads, List.getElem?_concat_length] at hth
      cases hth
      rcases hleft with hpc | ⟨record, hpc⟩
      · exact .inl (by rw [hpc]; rfl)
      · refine .inr ⟨record, by rw [hpc]; rfl, ?_, hserver.opened⟩
        obtain ⟨next, hmove⟩ : ∃ next, p.2.state.move = .recv true (GetFile.record record).want next :=
          ⟨_, by rw [Serving.move, hpc]; rfl⟩
        rw [hserver.incoming]
        exact inbox_eq_nil hmove (GetFile.want_pos rfl) fun x' y' hhalf => hnone (y', x') (.inr hhalf)
  · rw [hthreads, List.length_append, List.length_singleton] at hk
    rw [hserver.others k (by omega)]
    exact hrests.incoming k (by omega)
  · rw [hthreads, List.length_append, List.length_singleton]
    exact Nat.lt_succ_of_le (hserver.trace io hio)

/-- The system comes to what the two programs come to. -/
theorem until_of_programs {c' : Client} {s : Serving} {op : Op} {w : Script Byte} (hrests : s₀.Rests)
    (hleft : s.pc.IsLeft)
    (hclient : Plays Client.move (· = c') .client ⟨false, c.goto (.command op), w⟩)
    (hserver : Plays Serving.move (· = s) .server
      ⟨false, (Serving.accepted mem removeFails s₀).goto .memset, w⟩) :
    Until (Connection.Step mem removeFails) (fun _ => True)
      (fun x => Ended mem removeFails x c' s.pc s.dir) (.start c op s₀) := by
  have hprograms := Until.of_rel (Matches mem removeFails s₀) (S := Connection.Step mem removeFails)
    (fun _ _ _ hrel hstep => hrel.step hrests hstep) (fun _ _ _ hrel hstep => hrel.exists_step hstep)
    (matches_start mem removeFails c hrests op) (until_of_script hclient hserver)
  refine Until.of_backward (fun _ _ _ _ => trivial) (fun _ _ => trivial) (hprograms.trans ?_)
  rintro x ⟨p, hmatches, rfl, rfl, hnone⟩
  obtain ⟨request, hthread⟩ := hmatches.server.thread_eq
  rw [← hmatches.sock] at hthread
  refine .now ⟨hmatches.client ▸ rfl, ⟨_, hthread, rfl⟩, hmatches.server.dir, fun x' hstep => ?_,
    hmatches.rests mem removeFails hrests hleft hnone⟩
  obtain ⟨q, hq, -⟩ := hmatches.step hrests hstep
  exact hnone q hq

end Programs

end Build1
end FileTransfer
