import FileTransfer.Assign3.Announcements
import FileTransfer.Assign3.FailedOperations

/-!
# The handshake of `Assign3_zcl`

Before the first command the client sends a random number, the server answers with its own, and the client sends
that back.  Each side takes the parity of its own number for `Send_Seq` and that of the other one's for
`next_Rec_Seq`.  The two functions send every message once: `select` gives the client one second for the answer,
the server waits in `recvfrom`.

* `handshake_agreed`: if both report success they have each other's numbers, whatever is lost, duplicated or late
  and whichever calls fail;
* `handshake_prepares`: over a calm network both report success, and leave the state in which a session begins.
-/

namespace FileTransfer
namespace Assign3

open Udp

/-! ## The two functions -/

/-- Where `threewayhandshake` stands. -/
inductive HandshakeControl where
  | start
  /-- the client's `select`; `ibytesput` says whether the first `sendto` succeeded -/
  | select (ibytesput : Bool)
  /-- the server's first `recvfrom` -/
  | recvFirst
  /-- the server's second one, and whether `sendto` and the first one succeeded -/
  | recvSecond (ibytesput ibytesget : Bool)
  /-- the function has returned; with `ok` it has reported success -/
  | returned (ok : Bool)
  deriving DecidableEq

/-- A side in `threewayhandshake`. -/
structure Greeter where
  side : Side
  mem : Members
  /-- `rand() % 256` -/
  randomInteger : Fin 256
  clientStartSeq : Int
  serverStartSeq : Int
  ctl : HandshakeControl

/-- A `sendto`: whether it succeeds, and what lies in memory behind the number. -/
structure Sendto where
  ok : Bool
  stack : List Byte

namespace Greeter

variable (e : Greeter)

/-- `sendmsg` with the random number in it. -/
def numbered (o : Sendto) : Udppacket :=
  { e.mem.sendmsg with data := textBuffer (decimal e.randomInteger.val) o.stack }

/-- `recvmsg` after `memset` and `recvfrom`; `none` when the call fails. -/
def received (d : Option Udppacket) : Udppacket :=
  match d with
  | none => e.mem.recvmsg.clear bufferLength
  | some p => (e.mem.recvmsg.clear bufferLength).overlay p sizeofUdppacket

/-- What a `sendto` of this packet puts on the wire. -/
def sends (o : Sendto) (p : Udppacket) : List Udppacket := if o.ok then [p] else []

/-- `abs(x)%2` -/
def parity (x : Int) : Int := (x.natAbs % 2 : Nat)

/-- The client sends its number. -/
def greet (o : Sendto) : Greeter × List Udppacket :=
  ({ e with mem := { e.mem with sendmsg := e.numbered o }, ctl := .select o.ok },
    sends o (e.numbered o))

/-- The client's `recvfrom`, and what follows it. -/
def answered (ibytesput : Bool) (d : Option Udppacket) (o : Sendto) : Greeter × List Udppacket :=
  let recvmsg := e.received d
  let serverStartSeq := atoi (cstr recvmsg.data.bytes)
  let sendmsg : Udppacket := { e.mem.sendmsg with data := recvmsg.data }
  let ok := ibytesput && d.isSome
  ({ e with
    mem := { e.mem with
      sendmsg := sendmsg
      recvmsg := recvmsg
      sendSeq := if ok then parity e.randomInteger.val else e.mem.sendSeq
      nextRecSeq := if ok then parity serverStartSeq else e.mem.nextRecSeq
      prevRecvSeq := if ok then 3000 else e.mem.prevRecvSeq }
    clientStartSeq := e.randomInteger.val
    serverStartSeq := serverStartSeq
    ctl := .returned ok }, sends o sendmsg)

/-- The server's first `recvfrom`, and its `sendto`. -/
def greeted (d : Option Udppacket) (o : Sendto) : Greeter × List Udppacket :=
  ({ e with
    mem := { e.mem with sendmsg := e.numbered o, recvmsg := e.received d }
    serverStartSeq := e.randomInteger.val
    clientStartSeq := atoi (cstr (e.received d).data.bytes)
    ctl := .recvSecond o.ok d.isSome }, sends o (e.numbered o))

/-- The server's second `recvfrom`, whose result is not looked at. -/
def confirmed (ibytesput ibytesget : Bool) (d : Option Udppacket) : Greeter × List Udppacket :=
  let ok := ibytesput && ibytesget
  ({ e with
    mem := { e.mem with
      recvmsg := e.received d
      sendSeq := if ok then parity e.serverStartSeq else e.mem.sendSeq
      nextRecSeq := if ok then parity e.clientStartSeq else e.mem.nextRecSeq }
    ctl := .returned ok }, [])

end Greeter

inductive HandshakeAct where
  | run (o : Sendto)
  /-- the client's `select` times out -/
  | timeout
  /-- the call of `recvfrom` fails -/
  | error (o : Sendto)

/-- A `recvfrom` returns: with a packet, or with an error. -/
def Greeter.take (e : Greeter) (d : Option Udppacket) (o : Sendto) : Option (Greeter × List Udppacket) :=
  match e.ctl with
  | .select ibytesput => some (e.answered ibytesput d o)
  | .recvFirst => some (e.greeted d o)
  | .recvSecond ibytesput ibytesget => some (e.confirmed ibytesput ibytesget d)
  | .start | .returned _ => none

def Greeter.act (e : Greeter) : HandshakeAct → Option (Greeter × List Udppacket)
  | .run o =>
      match e.side, e.ctl with
      | .client, .start => some (e.greet o)
      | .server, .start => some ({ e with ctl := .recvFirst }, [])
      | _, _ => none
  | .timeout =>
      match e.ctl with
      | .select _ => some ({ e with ctl := .returned false }, [])
      | _ => none
  | .error o => e.take none o

def threewayhandshake : Machine Greeter HandshakeAct Sendto Udppacket where
  act := Greeter.act
  recv e o d := e.take (some d) o

/-- Both sides call `threewayhandshake`; `x` and `y` are their random numbers. -/
def handshakeStart (x y : Fin 256) (mem : Side → Members) (seqs : Side → Int × Int) :
    Net Greeter Udppacket where
  node t :=
    { side := t
      mem := mem t
      randomInteger := if t = .client then x else y
      clientStartSeq := (seqs t).1
      serverStartSeq := (seqs t).2
      ctl := .start }
  wire _ := []

/-! ## What one step does -/

section Steps

variable {e : Greeter} {p : Greeter × List Udppacket} {o : Sendto} {d : Option Udppacket}
  {j : HandshakeAct}

/-- The waits, and what a `recvfrom` leads to in each of them. -/
inductive Taking (e : Greeter) (d : Option Udppacket) (o : Sendto) (p : Greeter × List Udppacket) : Prop where
  | answered (ibytesput : Bool) : e.ctl = .select ibytesput → p = e.answered ibytesput d o → Taking e d o p
  | greeted : e.ctl = .recvFirst → p = e.greeted d o → Taking e d o p
  | confirmed (ibytesput ibytesget : Bool) : e.ctl = .recvSecond ibytesput ibytesget →
      p = e.confirmed ibytesput ibytesget d → Taking e d o p

theorem taking_of_take (h : e.take d o = some p) : Taking e d o p := by
  unfold Greeter.take at h
  cases hctl : e.ctl <;> rw [hctl] at h <;> cases h
  case select ibytesput => exact .answered ibytesput hctl rfl
  case recvFirst => exact .greeted hctl rfl
  case recvSecond ibytesput ibytesget => exact .confirmed ibytesput ibytesget hctl rfl

inductive Acting (e : Greeter) (p : Greeter × List Udppacket) : HandshakeAct → Prop where
  | greet (o : Sendto) : e.side = .client → e.ctl = .start → p = e.greet o → Acting e p (.run o)
  | listen (o : Sendto) : e.side = .server → e.ctl = .start → p = ({ e with ctl := .recvFirst }, []) →
      Acting e p (.run o)
  | timeout (ibytesput : Bool) : e.ctl = .select ibytesput →
      p = ({ e with ctl := .returned false }, []) → Acting e p .timeout
  | error (o : Sendto) : e.take none o = some p → Acting e p (.error o)

theorem acting_of_act (h : e.act j = some p) : Acting e p j := by
  cases j with
  | error o => exact .error o h
  | timeout =>
      simp only [Greeter.act] at h
      split at h
      · rename_i ibytesput hctl
        cases h
        exact .timeout ibytesput hctl rfl
      · cases h
  | run o =>
      simp only [Greeter.act] at h
      split at h
      · rename_i hside hctl
        cases h
        exact .greet o hside hctl rfl
      · rename_i hside hctl
        cases h
        exact .listen o hside hctl rfl
      · cases h

end Steps

/-! ## Both numbers -/

/-- The number that `atoi` reads in a packet. -/
def reading (p : Udppacket) : Int := atoi (cstr p.data.bytes)

theorem reading_textBuffer {p : Udppacket} (x : Fin 256) (stack : List Byte)
    (h : p.data = textBuffer (decimal x.val) stack) : reading p = x.val := by
  have hlen : ∀ x : Fin 256, (decimal x.val).length < bufferLength := by decide +kernel
  rw [reading, h, cstr_textBuffer stack (isText_decimal _) (hlen x), atoi_decimal]

theorem received_some (e : Greeter) (d : Udppacket) : e.received (some d) = d :=
  Udppacket.overlay_whole _ _

theorem mem_sends {o : Sendto} {p q : Udppacket} (h : q ∈ Greeter.sends o p) : q = p := by
  unfold Greeter.sends at h
  split at h
  · exact List.mem_singleton.1 h
  · cases h

theorem reading_numbered (e : Greeter) (o : Sendto) : reading (e.numbered o) = e.randomInteger.val :=
  reading_textBuffer e.randomInteger o.stack rfl

/-- The function has reported a failure. -/
def Failed (e : Greeter) : Prop := e.ctl = .returned false

/-- The server has not answered yet. -/
def Waits (e : Greeter) : Prop := e.ctl = .start ∨ e.ctl = .recvFirst

def ClientPart (x y : Fin 256) (e : Greeter) : Prop :=
  match e.ctl with
  | .start | .select _ => True
  | .returned ok => ok = true → e.mem.sendSeq = Greeter.parity x.val ∧
      e.mem.nextRecSeq = Greeter.parity y.val ∧ e.mem.prevRecvSeq = 3000
  | .recvFirst | .recvSecond _ _ => False

def ServerPart (x y : Fin 256) (failed : Prop) (e : Greeter) : Prop :=
  match e.ctl with
  | .start | .recvFirst => True
  | .recvSecond _ ibytesget =>
      e.serverStartSeq = y.val ∧ (ibytesget = true → e.clientStartSeq = x.val ∨ failed)
  | .returned ok => ok = true → e.mem.sendSeq = Greeter.parity y.val ∧
      (e.mem.nextRecSeq = Greeter.parity x.val ∨ failed)
  | .select _ => False

/-- The invariant.  Before the server has answered only a client that has failed can have sent anything else than
its number. -/
structure Meets (x y : Fin 256) (n : Net Greeter Udppacket) : Prop where
  side : ∀ t, (n.node t).side = t
  clientNumber : (n.node .client).randomInteger = x
  serverNumber : (n.node .server).randomInteger = y
  client : ClientPart x y (n.node .client)
  server : ServerPart x y (Failed (n.node .client)) (n.node .server)
  requests : ∀ d ∈ n.wire .client,
    reading d = x.val ∨ Failed (n.node .client) ∨ ¬ Waits (n.node .server)
  answers : ∀ d ∈ n.wire .server, reading d = y.val
  waits : Waits (n.node .server) → n.wire .server = []

section Agreement

variable {x y : Fin 256} {n n' : Net Greeter Udppacket} {p : Greeter × List Udppacket}
  {d : Option Udppacket} {o : Sendto} {failed failed' : Prop} {e : Greeter}

theorem ServerPart.mono (h : ServerPart x y failed e) (himp : failed → failed') :
    ServerPart x y failed' e := by
  unfold ServerPart at h ⊢
  cases hctl : e.ctl <;> rw [hctl] at h
  case recvSecond => exact ⟨h.1, fun hget => (h.2 hget).imp_right himp⟩
  case returned => exact fun hok => ⟨(h hok).1, (h hok).2.imp_right himp⟩
  all_goals exact h

theorem Meets.emit_client (h : Meets x y n) (hside : p.1.side = .client)
    (hnumber : p.1.randomInteger = x) (hpart : ClientPart x y p.1)
    (hfailed : Failed (n.node .client) → Failed p.1)
    (hout : ∀ d ∈ p.2, reading d = x.val ∨ Failed p.1 ∨ ¬ Waits (n.node .server)) :
    Meets x y (n.emit .client p) where
  side t := by
    cases t with
    | client => rwa [Net.emit_node_self]
    | server =>
        rw [Net.emit_client_node]
        exact h.side .server
  clientNumber := by rwa [Net.emit_node_self]
  serverNumber := by
    rw [Net.emit_client_node]
    exact h.serverNumber
  client := by rwa [Net.emit_node_self]
  server := by
    rw [Net.emit_node_self, Net.emit_client_node]
    exact h.server.mono hfailed
  requests := by
    rw [Net.emit_wire_self, Net.emit_node_self, Net.emit_client_node]
    intro d hd
    rcases List.mem_append.1 hd with hold | hnew
    · exact (h.requests d hold).imp_right (.imp_left hfailed)
    · exact hout d hnew
  answers := by
    rw [Net.emit_client_wire]
    exact h.answers
  waits := by
    rw [Net.emit_client_wire, Net.emit_client_node]
    exact h.waits

theorem Meets.emit_server (h : Meets x y n) (hside : p.1.side = .server)
    (hnumber : p.1.randomInteger = y)
    (hpart : ServerPart x y (Failed (n.node .client)) p.1)
    (hwaits : Waits p.1 → Waits (n.node .server) ∧ p.2 = [])
    (hout : ∀ d ∈ p.2, reading d = y.val) : Meets x y (n.emit .server p) where
  side t := by
    cases t with
    | server => rwa [Net.emit_node_self]
    | client =>
        rw [Net.emit_server_node]
        exact h.side .client
  clientNumber := by
    rw [Net.emit_server_node]
    exact h.clientNumber
  serverNumber := by rwa [Net.emit_node_self]
  client := by
    rw [Net.emit_server_node]
    exact h.client
  server := by rwa [Net.emit_node_self, Net.emit_server_node]
  requests := by
    rw [Net.emit_server_wire, Net.emit_node_self, Net.emit_server_node]
    intro d hd
    exact (h.requests d hd).imp_right (.imp_right fun hnot hw => hnot (hwaits hw).1)
  answers := by
    rw [Net.emit_wire_self]
    intro d hd
    exact (List.mem_append.1 hd).elim (h.answers d) (hout d)
  waits := by
    rw [Net.emit_wire_self, Net.emit_node_self]
    intro hw
    rw [h.waits (hwaits hw).1, (hwaits hw).2]
    rfl

/-- The client's `recvfrom` returns. -/
theorem Meets.take_client (h : Meets x y n) (hd : ∀ q ∈ d, q ∈ n.wire .server)
    (htake : (n.node .client).take d o = some p) : Meets x y (n.emit .client p) := by
  have hpart := h.client
  unfold ClientPart at hpart
  cases taking_of_take htake with
  | greeted hctl => rw [hctl] at hpart; exact hpart.elim
  | confirmed _ _ hctl => rw [hctl] at hpart; exact hpart.elim
  | answered ibytesput hctl hp =>
      subst hp
      have hnot : ¬ Failed (n.node .client) := by simp [Failed, hctl]
      refine h.emit_client (h.side .client) h.clientNumber ?_ (fun hf => absurd hf hnot) ?_
      · -- success takes a packet, and those of the server hold its number
        intro hok
        obtain ⟨hput, hget⟩ := Bool.and_eq_true_iff.1 hok
        obtain ⟨q, rfl⟩ := Option.isSome_iff_exists.1 hget
        have hreads : atoi (cstr ((n.node .client).received (some q)).data.bytes) = y.val := by
          rw [received_some]
          exact h.answers q (hd q rfl)
        simp [Greeter.answered, hput, hreads, h.clientNumber]
      · intro q hq
        right
        cases hget : d with
        | none =>
            left
            simp [Failed, Greeter.answered]
        | some r =>
            right
            intro hw
            have hmem := hd r hget
            rw [h.waits hw] at hmem
            cases hmem

/-- One of the server's two calls of `recvfrom` returns. -/
theorem Meets.take_server (h : Meets x y n) (hd : ∀ q ∈ d, q ∈ n.wire .client)
    (htake : (n.node .server).take d o = some p) : Meets x y (n.emit .server p) := by
  have hpart := h.server
  unfold ServerPart at hpart
  cases taking_of_take htake with
  | answered _ hctl => rw [hctl] at hpart; exact hpart.elim
  | greeted hctl hp =>
      subst hp
      have hwaits : Waits (n.node .server) := .inr hctl
      refine h.emit_server (h.side .server) h.serverNumber ⟨?_, ?_⟩ ?_ ?_
      · exact congrArg (fun y : Fin 256 => (y.val : Int)) h.serverNumber
      · -- a packet that is there before the answer holds the client's number
        intro hget
        obtain ⟨q, rfl⟩ := Option.isSome_iff_exists.1 hget
        have hreads : ((n.node .server).greeted (some q) o).1.clientStartSeq = reading q := by
          simp [Greeter.greeted, reading, received_some]
        rw [hreads]
        exact (h.requests q (hd q rfl)).imp_right fun hor => hor.resolve_right fun hnot => hnot hwaits
      · rintro (hw | hw) <;> cases hw
      · intro q hq
        rw [mem_sends hq, reading_numbered, h.serverNumber]
  | confirmed ibytesput ibytesget hctl hp =>
      subst hp
      rw [hctl] at hpart
      obtain ⟨hserver, hclient⟩ := hpart
      refine h.emit_server (h.side .server) h.serverNumber ?_ ?_ (fun q hq => absurd hq List.not_mem_nil)
      · intro hok
        obtain ⟨hput, hget⟩ := Bool.and_eq_true_iff.1 hok
        refine ⟨by simp [Greeter.confirmed, hput, hget, hserver], (hclient hget).imp_left fun hx => ?_⟩
        simp [Greeter.confirmed, hput, hget, hx]
      · rintro (hw | hw) <;> cases hw

theorem Meets.take (h : Meets x y n) (t : Side) (hd : ∀ q ∈ d, q ∈ n.wire t.peer)
    (htake : (n.node t).take d o = some p) : Meets x y (n.emit t p) := by
  cases t with
  | client => exact h.take_client hd htake
  | server => exact h.take_server hd htake

theorem Meets.acts (h : Meets x y n) {t : Side} {j : HandshakeAct} (hact : (n.node t).act j = some p) :
    Meets x y (n.emit t p) := by
  cases acting_of_act hact with
  | error o htake => exact h.take t (fun q hq => by cases hq) htake
  | greet o hside hctl hp =>
      subst hp
      obtain rfl : t = .client := (h.side t).symm.trans hside
      refine h.emit_client hside h.clientNumber trivial (fun hf => ?_) ?_
      · cases hctl.symm.trans hf
      · intro q hq
        rw [mem_sends hq, reading_numbered, h.clientNumber]
        exact .inl rfl
  | listen o hside hctl hp =>
      subst hp
      obtain rfl : t = .server := (h.side t).symm.trans hside
      exact h.emit_server hside h.serverNumber trivial (fun _ => ⟨.inl hctl, rfl⟩)
        (fun q hq => absurd hq List.not_mem_nil)
  | timeout ibytesput hctl hp =>
      subst hp
      cases t with
      | client =>
          refine h.emit_client (h.side .client) h.clientNumber (fun hok => ?_) (fun _ => rfl)
            (fun q hq => absurd hq List.not_mem_nil)
          cases hok
      | server =>
          have hpart := h.server
          unfold ServerPart at hpart
          rw [hctl] at hpart
          exact hpart.elim

theorem Meets.step {ev : BagEvent HandshakeAct Sendto} (h : Meets x y n)
    (hstep : bagStep threewayhandshake n ev = some n') : Meets x y n' := by
  cases ev with
  | act t j =>
      obtain ⟨p, hact, rfl⟩ := bagStep_act.1 hstep
      exact h.acts hact
  | deliver t k o =>
      obtain ⟨d, p, hwire, hrecv, rfl⟩ := bagStep_deliver.1 hstep
      refine h.take t (d := some d) ?_ hrecv
      rintro q ⟨⟩
      exact List.mem_of_getElem? hwire

theorem meets_start (x y : Fin 256) (mem : Side → Members) (seqs : Side → Int × Int) :
    Meets x y (handshakeStart x y mem seqs) where
  side _ := rfl
  clientNumber := rfl
  serverNumber := rfl
  client := trivial
  server := trivial
  requests _ hd := absurd hd List.not_mem_nil
  answers _ hd := absurd hd List.not_mem_nil
  waits _ := rfl

end Agreement

/-- In every state of every run: a side that has reported success has set its `Send_Seq` from its own number, the
client its `next_Rec_Seq` from the server's, and if both have reported success, so has the server from the
client's. -/
theorem handshake_agreed (x y : Fin 256) (mem : Side → Members) (seqs : Side → Int × Int)
    {evs : List (BagEvent HandshakeAct Sendto)} {n : Net Greeter Udppacket}
    (hrun : Run (bagStep threewayhandshake) anyStep (handshakeStart x y mem seqs) evs n) :
    ((n.node .client).ctl = .returned true → (n.node .client).mem.sendSeq = Greeter.parity x.val ∧
        (n.node .client).mem.nextRecSeq = Greeter.parity y.val ∧
        (n.node .client).mem.prevRecvSeq = 3000) ∧
      ((n.node .server).ctl = .returned true → (n.node .server).mem.sendSeq = Greeter.parity y.val) ∧
      ((∀ t, (n.node t).ctl = .returned true) →
        ∀ t, (n.node t).mem.nextRecSeq = (n.node t.peer).mem.sendSeq) := by
  have hmeets : Meets x y n :=
    hrun.invariant (fun _ _ _ h _ hstep => h.step hstep) (meets_start x y mem seqs)
  have hclient := hmeets.client
  have hserver := hmeets.server
  unfold ClientPart at hclient
  unfold ServerPart at hserver
  refine ⟨fun hdone => ?_, fun hdone => ?_, fun hdone t => ?_⟩
  · rw [hdone] at hclient
    exact hclient rfl
  · rw [hdone] at hserver
    exact (hserver rfl).1
  · have hsuccess : ¬ Failed (n.node .client) := by simp [Failed, hdone .client]
    rw [hdone .client] at hclient
    rw [hdone .server] at hserver
    obtain ⟨hsend, hnext, -⟩ := hclient rfl
    obtain ⟨hsend', hnext'⟩ := hserver rfl
    cases t with
    | client => exact hnext.trans hsend'.symm
    | server => exact (hnext'.resolve_right hsuccess).trans hsend.symm

/-- The client's number reaches the server twice, and the server takes the copy for the last message. -/
def duplicatedNumber : List (BagEvent HandshakeAct Sendto) :=
  [.act .client (.run ⟨true, []⟩), .act .server (.run ⟨true, []⟩), .deliver .server 0 ⟨true, []⟩,
    .deliver .server 0 ⟨true, []⟩, .deliver .client 0 ⟨true, []⟩]

theorem handshake_agreed_duplicated :
    ∃ n, Run (bagStep threewayhandshake) anyStep
        (handshakeStart 6 143 (fun _ => freshMembers) fun _ => (0, 0)) duplicatedNumber n ∧
      (∀ t, (n.node t).ctl = .returned true) ∧
      ∀ t, (n.node t).mem.nextRecSeq = (n.node t.peer).mem.sendSeq := by
  have hex : ∃ n, Run (bagStep threewayhandshake) anyStep
      (handshakeStart 6 143 (fun _ => freshMembers) fun _ => (0, 0)) duplicatedNumber n ∧
        ∀ t, (n.node t).ctl = .returned true :=
    exists_run_of_exec_any (by decide +kernel)
  obtain ⟨n, hrun, hdone⟩ := hex
  exact ⟨n, hrun, hdone, (handshake_agreed _ _ _ _ hrun).2.2 hdone⟩

/-! ## A calm network -/

/-- Nothing is lost, the calls succeed, and `select` times out only when nothing is on its way. -/
def HandshakeCalm (n : Net Greeter Udppacket) : FifoEvent HandshakeAct Sendto → Prop
  | .act _ (.run o) => o.ok = true
  | .act _ .timeout => ∀ t, n.wire t = []
  | .act _ (.error _) => False
  | .deliver _ o => o.ok = true
  | .lose _ _ => False

def HandshakeStep (n n' : Net Greeter Udppacket) : Prop :=
  ∃ ev, HandshakeCalm n ev ∧ fifoStep threewayhandshake n ev = some n'

section Progress

variable {x y : Fin 256} {n n' : Net Greeter Udppacket} {t : Side}

/-- Where the two sides stand in a calm network, and what the client and the server have on the way. -/
inductive Flowing : HandshakeControl → HandshakeControl → List Udppacket → List Udppacket → Prop where
  | begins {s : HandshakeControl} : s = .start ∨ s = .recvFirst → Flowing .start s [] []
  | greets {s : HandshakeControl} {d : Udppacket} : s = .start ∨ s = .recvFirst →
      Flowing (.select true) s [d] []
  | answers {d : Udppacket} : Flowing (.select true) (.recvSecond true true) [] [d]
  | confirms {d : Udppacket} : Flowing (.returned true) (.recvSecond true true) [d] []
  | done : Flowing (.returned true) (.returned true) [] []

def Flow (n : Net Greeter Udppacket) : Prop :=
  ∃ c s w v, (n.node .client).ctl = c ∧ (n.node .server).ctl = s ∧ n.wire .client = w ∧
    n.wire .server = v ∧ Flowing c s w v

/-- How far a side has to go. -/
def stepsLeft (e : Greeter) : Nat :=
  match e.ctl with
  | .start => 3
  | .select _ | .recvFirst => 2
  | .recvSecond _ _ => 1
  | .returned _ => 0

theorem Meets.setWire (h : Meets x y n) {w : List Udppacket} (hw : w ⊆ n.wire t) :
    Meets x y (n.setWire t w) := by
  have hwire : ∀ s, (n.setWire t w).wire s ⊆ n.wire s := by
    intro s
    rcases Side.eq_or_eq_peer t s with rfl | rfl
    · rw [Net.setWire_wire_self]
      exact hw
    · rw [Net.setWire_wire_peer]
      exact List.Subset.refl _
  refine ⟨h.side, h.clientNumber, h.serverNumber, h.client, h.server, ?_, ?_, ?_⟩
  · exact fun d hd => h.requests d (hwire .client hd)
  · exact fun d hd => h.answers d (hwire .server hd)
  · exact fun hwaits => List.eq_nil_of_subset_nil (h.waits hwaits ▸ hwire .server)

theorem setWire_emit (n : Net Greeter Udppacket) (t : Side) (p : Greeter × List Udppacket)
    (w : List Udppacket) : (n.setWire t.peer w).emit t p = (n.emit t p).setWire t.peer w := by
  refine Net.ext rfl (funext fun s => ?_)
  rcases Side.eq_or_eq_peer t s with rfl | rfl
  · rw [Net.emit_wire_self, Net.setWire_peer_wire, Net.setWire_peer_wire, Net.emit_wire_self]
  · rw [Net.emit_wire_peer, Net.setWire_wire_self, Net.setWire_wire_self]

/-- What a step of a calm network is. -/
inductive CalmCase (n : Net Greeter Udppacket) : Net Greeter Udppacket → Prop where
  | run {t : Side} {o : Sendto} {p : Greeter × List Udppacket} : o.ok = true →
      (n.node t).act (.run o) = some p → CalmCase n (n.emit t p)
  | timeout {t : Side} {p : Greeter × List Udppacket} : (∀ t, n.wire t = []) →
      (n.node t).act .timeout = some p → CalmCase n (n.emit t p)
  | deliver {t : Side} {o : Sendto} {d : Udppacket} {rest : List Udppacket}
      {p : Greeter × List Udppacket} : o.ok = true → n.wire t.peer = d :: rest →
      (n.node t).take (some d) o = some p → CalmCase n ((n.emit t p).setWire t.peer rest)

theorem calmCase_of_step (h : HandshakeStep n n') : CalmCase n n' := by
  obtain ⟨ev, hcalm, hstep⟩ := h
  cases ev with
  | act t j =>
      obtain ⟨p, hact, rfl⟩ := fifoStep_act.1 hstep
      cases j with
      | run o => exact .run hcalm hact
      | timeout => exact .timeout hcalm hact
      | error o => exact hcalm.elim
  | deliver t o =>
      obtain ⟨d, rest, p, hwire, hrecv, rfl⟩ := fifoStep_deliver.1 hstep
      rw [setWire_emit]
      exact .deliver hcalm hwire hrecv
  | lose => exact hcalm.elim

theorem Meets.calm (h : Meets x y n) (hstep : HandshakeStep n n') : Meets x y n' := by
  cases calmCase_of_step hstep with
  | run _ hact | timeout _ hact => exact h.acts hact
  | deliver _ hwire htake =>
      refine (h.take _ (fun q hq => ?_) htake).setWire ?_
      · cases hq
        rw [hwire]
        exact List.mem_cons_self
      · rw [Net.emit_wire_peer, hwire]
        exact List.subset_cons_self _ _

def rank (n : Net Greeter Udppacket) : Nat := stepsLeft (n.node .client) + stepsLeft (n.node .server)

/-- A side goes on. -/
theorem flow_of {m : Net Greeter Udppacket} {p : Greeter × List Udppacket} {c s : HandshakeControl}
    {w v : List Udppacket} (hnode : m.node = Function.update n.node t p.1)
    (hless : stepsLeft p.1 < stepsLeft (n.node t)) (hc : (m.node .client).ctl = c)
    (hs : (m.node .server).ctl = s) (hw : m.wire .client = w) (hv : m.wire .server = v)
    (hflow : Flowing c s w v) : Flow m ∧ rank m < rank n := by
  refine ⟨⟨c, s, w, v, hc, hs, hw, hv, hflow⟩, ?_⟩
  rw [rank, rank, hnode]
  cases t with
  | client =>
      rw [Function.update_self, Function.update_of_ne (by decide)]
      omega
  | server =>
      rw [Function.update_self, Function.update_of_ne (by decide)]
      omega

theorem Flow.calm (h : Flow n) (hside : ∀ t, (n.node t).side = t) (hstep : HandshakeStep n n') :
    Flow n' ∧ rank n' < rank n := by
  obtain ⟨c, s, w, v, hc, hs, hw, hv, hflow⟩ := h
  cases calmCase_of_step hstep with
  | @timeout t p hnone hact =>
      -- a client in `select` has something coming, or the server has
      cases acting_of_act hact with
      | timeout ibytesput hctl hp =>
          have hempty : w = [] ∧ v = [] := ⟨hw.symm.trans (hnone _), hv.symm.trans (hnone _)⟩
          cases t with
          | client =>
              obtain rfl : c = .select ibytesput := hc.symm.trans hctl
              cases hflow with
              | greets => cases hempty.1
              | answers => cases hempty.2
          | server =>
              obtain rfl : s = .select ibytesput := hs.symm.trans hctl
              cases hflow with
              | begins hwaits | greets hwaits => rcases hwaits with hwaits | hwaits <;> cases hwaits
  | @run t o p hok hact =>
      cases acting_of_act hact with
      | greet _ hclient hctl hp =>
          subst hp
          obtain rfl : t = .client := (hside t).symm.trans hclient
          obtain rfl : c = .start := hc.symm.trans hctl
          cases hflow with
          | begins hwaits =>
              refine flow_of rfl ?_ rfl rfl rfl rfl ?_
              · simp [stepsLeft, Greeter.greet, hctl]
              · simpa [Greeter.greet, Greeter.sends, hok, hw, hv, hs] using .greets hwaits
      | listen _ hserver hctl hp =>
          subst hp
          obtain rfl : t = .server := (hside t).symm.trans hserver
          obtain rfl : s = .start := hs.symm.trans hctl
          cases hflow with
          | begins => 
              refine flow_of rfl ?_ rfl rfl rfl rfl ?_
              · simp [stepsLeft, hctl]
              · simpa [hw, hv, hc] using .begins (.inr rfl)
          | greets => 
              refine flow_of rfl ?_ rfl rfl rfl rfl ?_
              · simp [stepsLeft, hctl]
              · simpa [hw, hv, hc] using .greets (.inr rfl)
  | @deliver t o d rest p hok hwire htake =>
      cases t with
      | client =>
          obtain rfl : v = d :: rest := hv.symm.trans hwire
          cases hflow with
          | answers =>
              cases taking_of_take htake with
              | greeted hctl => cases hc.symm.trans hctl
              | confirmed _ _ hctl => cases hc.symm.trans hctl
              | answered ibytesput hctl hp =>
                  cases hc.symm.trans hctl
                  subst hp
                  refine flow_of rfl ?_ rfl rfl rfl rfl ?_
                  · simp [stepsLeft, Greeter.answered, hctl]
                  · simpa [Greeter.answered, Greeter.sends, hok, hw, hs] using .confirms
      | server =>
          obtain rfl : w = d :: rest := hw.symm.trans hwire
          cases taking_of_take htake with
          | answered ibytesput hctl =>
              obtain rfl : s = .select ibytesput := hs.symm.trans hctl
              cases hflow with
              | greets hwaits => rcases hwaits with hwaits | hwaits <;> cases hwaits
          | greeted hctl hp =>
              subst hp
              obtain rfl : s = .recvFirst := hs.symm.trans hctl
              cases hflow with
              | greets =>
                  refine flow_of rfl ?_ rfl rfl rfl rfl ?_
                  · simp [stepsLeft, Greeter.greeted, hctl]
                  · simpa [Greeter.greeted, Greeter.sends, hok, hv, hc] using .answers
          | confirmed ibytesput ibytesget hctl hp =>
              subst hp
              obtain rfl : s = .recvSecond ibytesput ibytesget := hs.symm.trans hctl
              cases hflow with
              | greets hwaits => rcases hwaits with hwaits | hwaits <;> cases hwaits
              | confirms =>
                  refine flow_of rfl ?_ rfl rfl rfl rfl ?_
                  · simp [stepsLeft, Greeter.confirmed, hctl]
                  · simpa [Greeter.confirmed, hv, hc] using .done

theorem exists_step_run {p : Greeter × List Udppacket}
    (hact : (n.node t).act (.run ⟨true, []⟩) = some p) : ∃ n', HandshakeStep n n' :=
  ⟨_, .act t (.run ⟨true, []⟩), rfl, fifoStep_act.2 ⟨p, hact, rfl⟩⟩

theorem exists_step_deliver {d : Udppacket} {rest : List Udppacket} {p : Greeter × List Udppacket}
    (hwire : n.wire t.peer = d :: rest) (htake : (n.node t).take (some d) ⟨true, []⟩ = some p) :
    ∃ n', HandshakeStep n n' :=
  ⟨_, .deliver t ⟨true, []⟩, rfl, fifoStep_deliver.2 ⟨d, rest, p, hwire, htake, rfl⟩⟩

/-- Until both have returned, one of them can go on. -/
theorem Flow.progress (h : Flow n) (hside : ∀ t, (n.node t).side = t) :
    ((∀ t, (n.node t).ctl = .returned true) ∧ ∀ t, n.wire t = []) ∨ ∃ n', HandshakeStep n n' := by
  obtain ⟨c, s, w, v, hc, hs, hw, hv, hflow⟩ := h
  cases hflow with
  | done =>
      refine .inl ⟨fun t => ?_, fun t => ?_⟩
      · cases t with
        | client => exact hc
        | server => exact hs
      · cases t with
        | client => exact hw
        | server => exact hv
  | begins =>
      right
      refine exists_step_run (t := .client) (p := (n.node .client).greet ⟨true, []⟩) ?_
      simp [Greeter.act, hside .client, hc]
  | @greets _ d hwaits =>
      right
      rcases hwaits with rfl | rfl
      · refine exists_step_run (t := .server) (p := ({ n.node .server with ctl := .recvFirst }, [])) ?_
        simp [Greeter.act, hside .server, hs]
      · refine exists_step_deliver (t := .server) (p := (n.node .server).greeted (some d) ⟨true, []⟩) hw ?_
        simp [Greeter.take, hs]
  | @answers d =>
      right
      refine exists_step_deliver (t := .client)
        (p := (n.node .client).answered true (some d) ⟨true, []⟩) hv ?_
      simp [Greeter.take, hc]
  | @confirms d =>
      right
      refine exists_step_deliver (t := .server)
        (p := (n.node .server).confirmed true true (some d)) hw ?_
      simp [Greeter.take, hs]

/-- The server leaves its `prev_Recv_Seq` as it was. -/
theorem prevRecvSeq_calm (h : Meets x y n) (hstep : HandshakeStep n n') :
    (n'.node .server).mem.prevRecvSeq = (n.node .server).mem.prevRecvSeq := by
  have hpart := h.server
  unfold ServerPart at hpart
  cases calmCase_of_step hstep with
  | @run t o p _ hact =>
      cases t with
      | client => rw [Net.emit_client_node]
      | server =>
          rw [Net.emit_node_self]
          cases acting_of_act hact with
          | greet _ hside => cases (h.side .server).symm.trans hside
          | listen _ _ _ hp => rw [hp]
  | @timeout t p _ hact =>
      cases t with
      | client => rw [Net.emit_client_node]
      | server =>
          rw [Net.emit_node_self]
          cases acting_of_act hact with
          | timeout _ _ hp => rw [hp]
  | @deliver t o d rest p _ _ htake =>
      rw [Net.setWire_node]
      cases t with
      | client => rw [Net.emit_client_node]
      | server =>
          rw [Net.emit_node_self]
          cases taking_of_take htake with
          | answered _ hctl => rw [hctl] at hpart; exact hpart.elim
          | greeted _ hp => rw [hp]; rfl
          | confirmed _ _ _ hp => rw [hp]; rfl

theorem flow_start (x y : Fin 256) (mem : Side → Members) (seqs : Side → Int × Int) :
    Flow (handshakeStart x y mem seqs) :=
  ⟨.start, .start, [], [], rfl, rfl, rfl, rfl, .begins (.inl rfl)⟩

theorem parity_cases (x : Int) : Greeter.parity x = 0 ∨ Greeter.parity x = 1 := by
  unfold Greeter.parity
  omega

/-- What the handshake leaves to the programs. -/
theorem atRest_of_meets (h : Meets x y n) (hdone : ∀ t, (n.node t).ctl = .returned true)
    (hprev : (n.node .server).mem.prevRecvSeq ≠ Greeter.parity x.val) {c : Client} {s : Server}
    (hmenu : c.at = .menu) (hloop : s.at = .loop) :
    AtRest c s (joint .client (menuStart (fun t => (n.node t).mem) c s)) := by
  have hclient := h.client
  have hserver := h.server
  unfold ClientPart at hclient
  unfold ServerPart at hserver
  rw [hdone .client] at hclient
  rw [hdone .server] at hserver
  obtain ⟨hsend, -, hfresh⟩ := hclient rfl
  obtain ⟨hsend', -⟩ := hserver rfl
  have hpeer : (3000 : Int) ≠ Greeter.parity y.val := by
    rcases parity_cases y.val with hy | hy <;> rw [hy] <;> decide
  refine ⟨hmenu, hloop, ⟨Greeter.parity x.val, Greeter.parity y.val, parity_cases _, parity_cases _,
    ⟨rfl, rfl, hsend, ?_⟩, .inl ⟨rfl, rfl, hsend', hprev⟩⟩, rfl, rfl⟩
  exact hfresh.symm ▸ hpeer

end Progress

/-- Over a calm network both sides report success with nothing left on the way, and the two programs can begin: they
are at rest with each other, unless the server's memory happened to hold the client's parity in `prev_Recv_Seq`. -/
theorem handshake_prepares (x y : Fin 256) (mem : Side → Members) (seqs : Side → Int × Int)
    (hprev : (mem .server).prevRecvSeq ≠ Greeter.parity x.val) (c : Client) (s : Server)
    (hmenu : c.at = .menu) (hloop : s.at = .loop) :
    Until HandshakeStep (fun _ => True)
      (fun n => (∀ t, (n.node t).ctl = .returned true) ∧ (∀ t, n.wire t = []) ∧
        AtRest c s (joint .client (menuStart (fun t => (n.node t).mem) c s)))
      (handshakeStart x y mem seqs) := by
  let inv := fun n : Net Greeter Udppacket =>
    Flow n ∧ Meets x y n ∧ (n.node .server).mem.prevRecvSeq = (mem .server).prevRecvSeq
  have hstart : inv (handshakeStart x y mem seqs) :=
    ⟨flow_start x y mem seqs, meets_start x y mem seqs, rfl⟩
  refine Until.of_backward (fun _ _ _ _ => trivial) (fun _ _ => trivial)
    (Until.of_rank rank ?_ ?_ hstart)
  · rintro n n' ⟨hflow, hmeets, hsame⟩ hstep
    obtain ⟨hflow', hless⟩ := hflow.calm hmeets.side hstep
    exact ⟨⟨hflow', hmeets.calm hstep, (prevRecvSeq_calm hmeets hstep).trans hsame⟩, hless⟩
  · rintro n ⟨hflow, hmeets, hsame⟩
    refine (hflow.progress hmeets.side).imp_left fun ⟨hdone, hempty⟩ => ⟨hdone, hempty, ?_⟩
    exact atRest_of_meets hmeets hdone (hsame ▸ hprev) hmenu hloop

theorem handshake_prepares_fresh :
    Until HandshakeStep (fun _ => True)
      (fun n => (∀ t, (n.node t).ctl = .returned true) ∧ (∀ t, n.wire t = []) ∧
        AtRest (sampleClient []) sampleServer
          (joint .client (menuStart (fun t => (n.node t).mem) (sampleClient []) sampleServer)))
      (handshakeStart 6 143 (fun _ => freshMembers) fun _ => (0, 0)) :=
  handshake_prepares 6 143 _ _ (by decide) _ _ rfl rfl

end Assign3
end FileTransfer
