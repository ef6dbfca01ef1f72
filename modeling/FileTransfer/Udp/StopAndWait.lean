import FileTransfer.Lib.GoBackN
import FileTransfer.Lib.Matching
import FileTransfer.Udp.Packet

/-!
# One direction of a stop-and-wait exchange

A sending function numbers its messages with one bit (`Send_Seq`), a receiving function remembers the
number of the packet it returned last (`prev_Recv_Seq`).  `View` is what the two ends and the two
wires of one direction look like, whatever else the endpoints do on the same socket.  `Link` says that
this view is a go-back-N exchange with window one, whose message `k` carries the bit of `start + k`;
its operations are what the functions of both builds do when

* a message is begun only while `Send_Seq` and the receiver's `prev_Recv_Seq` differ,
* the wait for an acknowledgement ends with the acknowledgement of `Send_Seq`,
* the receiver returns nothing but whole copies of messages.
-/

namespace FileTransfer
namespace Udp

/-- Where a sending function stands. -/
inductive Mode where
  /-- no message is under way -/
  | idle
  /-- the wait for the acknowledgement -/
  | waiting
  /-- after the wait, `Send_Seq` not yet changed -/
  | draining
  deriving DecidableEq

/-- Copies of messages on a wire. -/
def Datagram.isMessage (d : Datagram) : Bool :=
  match d.origin with
  | .message _ => true
  | _ => false

/-- The number that an acknowledgement acknowledges. -/
def Datagram.ackNumber (d : Datagram) : Option Int :=
  match d.origin with
  | .ack n => some n
  | _ => none

/-- One direction of the exchange. -/
structure View where
  mode : Mode
  sendSeq : Int
  /-- messages begun -/
  passed : List Message
  prevRecvSeq : Int
  /-- packets returned, with the origin of the datagrams -/
  returned : List (Udppacket × Origin)
  /-- copies of messages on the way, oldest first -/
  data : List Datagram
  /-- numbers of the acknowledgements on the way, oldest first -/
  acks : List Int

namespace View

variable (v : View)

/-- Number of messages that the sending function waits for no longer. -/
def confirmed : Nat :=
  match v.mode with
  | .waiting => v.passed.length - 1
  | _ => v.passed.length

def pass (m : Message) (d : Datagram) : View :=
  { v with mode := .waiting, passed := v.passed ++ [m], data := v.data ++ [d] }

def again (d : Datagram) : View := { v with data := v.data ++ [d] }
def setData (ds : List Datagram) : View := { v with data := ds }
def setAcks (as : List Int) : View := { v with acks := as }
def acknowledged (rest : List Int) : View := { v with mode := .draining, acks := rest }
def finish : View := { v with mode := .idle, sendSeq := 1 - v.sendSeq }
def repeatAck : View := { v with acks := v.acks ++ [v.prevRecvSeq] }

def accept (p : Udppacket) (o : Origin) (rest : List Datagram) : View :=
  { v with
    prevRecvSeq := p.seqNo
    returned := v.returned ++ [(p, o)]
    data := rest
    acks := v.acks ++ [p.seqNo] }

def reset : View := { v with sendSeq := 0 }

end View

/-- The bit that message `k` carries. -/
def bit (start k : Nat) : Int := ((start + k) % 2 : Nat)

theorem bit_zero_or_one (start k : Nat) : bit start k = 0 ∨ bit start k = 1 := by
  unfold bit
  omega

theorem bit_succ (start k : Nat) : bit start (k + 1) = 1 - bit start k := by
  unfold bit
  omega

theorem bit_succ_ne (start k : Nat) : bit start (k + 1) ≠ bit start k := by
  unfold bit
  omega

theorem mod_eq_of_bit_eq {start a b : Nat} (h : bit start a = bit start b) :
    (start + a) % 2 = (start + b) % 2 := by
  unfold bit at h
  omega

/-- `prev_Recv_Seq` after `e` messages, when it was `prev` before the first. -/
def lastNumber (prev : Int) (start : Nat) : Nat → Int
  | 0 => prev
  | e + 1 => bit start e

/-- The packet read from a datagram is the message. -/
def ReadsMessage (r : Udppacket × Origin) (m : Message) : Prop := m.IsIn r.1 ∧ r.2 = .message m

/-- The packet `p`, read from the datagram `d`, has the number and the bytes of the message that `d`
was cut from. -/
def Datagram.BringsMessage (d : Datagram) (p : Udppacket) : Prop :=
  match d.origin with
  | .message m => p.seqNo = d.pkt.seqNo ∧ m.IsIn p
  | _ => False

instance (d : Datagram) (p : Udppacket) : Decidable (d.BringsMessage p) := by
  unfold Datagram.BringsMessage
  split <;> infer_instance

/-- A packet reads as a message when it was cut from one, and nothing it needs was cut off. -/
theorem Datagram.BringsMessage.exists_message {d : Datagram} {p : Udppacket}
    (h : d.BringsMessage p) : ∃ m, d.origin = .message m ∧ p.seqNo = d.pkt.seqNo ∧ m.IsIn p := by
  unfold Datagram.BringsMessage at h
  split at h
  · rename_i m hm
    exact ⟨m, hm, h⟩
  · exact h.elim

/-- What was returned are the first of the messages passed, each one read from a copy of it, and a
sending function returned only for those. -/
structure InOrder (passed : List Message) (returned : List (Udppacket × Origin)) (completed : Nat) :
    Prop where
  reads : List.Forall₂ ReadsMessage returned (passed.take returned.length)
  completed_le : completed ≤ returned.length

/-- The datagram is a copy of message `k`. -/
def IsCopy (passed : List Message) (start k : Nat) (d : Datagram) : Prop :=
  ∃ m, passed[k]? = some m ∧ d.origin = .message m ∧ d.pkt = ⟨bit start k, m.data⟩

/-- The view `v` is the state `g` of a go-back-N exchange with window one. -/
structure LinkAt (prev : Int) (start : Nat) (g : GoBackN.State Message) (v : View) : Prop where
  inv : GoBackN.Inv 2 1 g
  submitted : g.submitted = v.passed
  base : g.base = v.confirmed
  prevRecvSeq : v.prevRecvSeq = lastNumber prev start g.expected
  first : v.passed ≠ [] → prev ≠ bit start 0
  returned : List.Forall₂ ReadsMessage v.returned (v.passed.take g.expected)
  data : List.Forall₂ (IsCopy v.passed start) g.data v.data
  acks : List.Forall₂ (fun e a => a = lastNumber prev start e) g.replies v.acks
  /-- the bit of the message under way, or a bit fit for the next one -/
  sendSeq : match v.mode with
    | .idle => (v.sendSeq = 0 ∨ v.sendSeq = 1) ∧ v.sendSeq ≠ v.prevRecvSeq
    | .waiting | .draining => ∃ k, v.passed.length = k + 1 ∧ v.sendSeq = bit start k

def Link (v : View) : Prop := ∃ prev start g, LinkAt prev start g v

/-! ## The beginning -/

theorem link_start {v : View} (hmode : v.mode = .idle) (hpassed : v.passed = [])
    (hreturned : v.returned = []) (hdata : v.data = []) (hacks : v.acks = [])
    (hbit : v.sendSeq = 0 ∨ v.sendSeq = 1) (hne : v.sendSeq ≠ v.prevRecvSeq) : Link v := by
  refine ⟨v.prevRecvSeq, 0, .init, .init (by decide), hpassed.symm, ?_, rfl, ?_, ?_, ?_, ?_, ?_⟩
  · simp only [View.confirmed, hmode, hpassed, GoBackN.State.init, List.length_nil]
  · exact fun hnot => absurd hpassed hnot
  · rw [hreturned, hpassed]
    exact .nil
  · rw [hdata]
    exact .nil
  · rw [hacks]
    exact .nil
  · rw [hmode]
    exact ⟨hbit, hne⟩

namespace LinkAt

variable {prev : Int} {start : Nat} {g : GoBackN.State Message} {v : View}

/-! ## What the link tells -/

/-- When nothing is under way, everything passed was accepted. -/
theorem expected_eq_length (h : LinkAt prev start g v) (hmode : v.mode ≠ .waiting) :
    g.expected = v.passed.length := by
  have hbase : g.base = v.passed.length := by
    rw [h.base, View.confirmed]
    cases hm : v.mode with
    | waiting => exact absurd hm hmode
    | idle => rfl
    | draining => rfl
  have hle := h.inv.expected_le
  rw [h.submitted] at hle
  have hlow := h.inv.base_le
  have hlow' := h.inv.low_le
  omega

theorem length_returned (h : LinkAt prev start g v) : v.returned.length = g.expected := by
  have hle := h.inv.expected_le
  rw [h.submitted] at hle
  rw [h.returned.length_eq, List.length_take]
  exact Nat.min_eq_left hle

/-- A bit that differs from the receiver's `prev_Recv_Seq` is the one of the next message. -/
theorem bit_of_ne (h : LinkAt prev start g v) (hmode : v.mode ≠ .waiting) (hpassed : v.passed ≠ [])
    {seq : Int} (hbit : seq = 0 ∨ seq = 1) (hne : seq ≠ v.prevRecvSeq) :
    seq = bit start v.passed.length := by
  have hexp := h.expected_eq_length hmode
  obtain ⟨k, hk⟩ : ∃ k, v.passed.length = k + 1 :=
    Nat.exists_eq_succ_of_ne_zero fun h0 => hpassed (List.length_eq_zero_iff.1 h0)
  rw [h.prevRecvSeq, hexp, hk] at hne
  have hlast := bit_zero_or_one start k
  rw [hk, bit_succ]
  simp only [lastNumber] at hne
  omega

/-- The numbers on the way that can still arrive: the expected one and the one before it. -/
theorem copy_near (h : LinkAt prev start g v) {k : Nat} (hk : k ∈ g.data) :
    k = g.expected ∨ k + 1 = g.expected := by
  have hnear := h.inv.data_near k hk
  have hlt := h.inv.data_lt k hk
  have hlen := h.inv.length_le
  have hbase := h.inv.base_le
  have hlow := h.inv.low_le
  omega

/-! ## The sending function -/

/-- A copy that is put on the way. -/
theorem transmit (h : LinkAt prev start g v) {k : Nat} {d : Datagram}
    (hk : v.passed.length = k + 1) (hd : IsCopy v.passed start k d) :
    LinkAt prev start (g.transmit [k]) (v.again d) := by
  have hsub : g.submitted.length = k + 1 := by rw [h.submitted, hk]
  refine { h with inv := h.inv.transmit ?_, data := ?_ }
  · intro n hn
    rw [List.mem_singleton] at hn
    omega
  · exact List.rel_append h.data (.cons hd .nil)

/-- The message under way is sent again. -/
theorem again (h : LinkAt prev start g v) {m : Message} {d : Datagram} (hmode : v.mode = .waiting)
    (hlast : v.passed.getLast? = some m) (hd : d.origin = .message m)
    (hpkt : d.pkt = ⟨v.sendSeq, m.data⟩) : ∃ g', LinkAt prev start g' (v.again d) := by
  have hseq := h.sendSeq
  rw [hmode] at hseq
  obtain ⟨k, hk, hbit⟩ := hseq
  have hget : v.passed[k]? = some m := by
    rw [List.getLast?_eq_getElem?, hk] at hlast
    exact hlast
  exact ⟨_, h.transmit hk ⟨m, hget, hd, by rw [hpkt, hbit]⟩⟩

/-- A new message, when `Send_Seq` is the bit of it. -/
theorem submit (h : LinkAt prev start g v) (hmode : v.mode = .idle) (m : Message)
    (hbit : v.sendSeq = bit start v.passed.length)
    (hfirst : prev ≠ bit start 0) :
    LinkAt prev start (g.submit m) { v with mode := .waiting, passed := v.passed ++ [m] } := by
  have hbase : g.base = v.passed.length := by
    rw [h.base, View.confirmed, hmode]
  have hsub := h.submitted
  have hlen : g.submitted.length = g.base := by rw [hsub, hbase]
  have hexp := h.inv.expected_le
  rw [hsub] at hexp
  refine { h with
    inv := h.inv.submit m (by omega), submitted := ?_, base := ?_, first := fun _ => hfirst,
    returned := ?_, data := ?_, sendSeq := ⟨v.passed.length, by simp, hbit⟩ }
  · simp only [GoBackN.State.submit, hsub]
  · simp only [GoBackN.State.submit, View.confirmed, hbase, List.length_append, List.length_singleton,
      Nat.add_sub_cancel]
  · simp only [GoBackN.State.submit]
    rw [List.take_append_of_le_length hexp]
    exact h.returned
  · refine h.data.imp fun k d hcopy => ?_
    obtain ⟨m', hget, hrest⟩ := hcopy
    have hlt : k < v.passed.length := (List.getElem?_eq_some_iff.1 hget).1
    exact ⟨m', by rw [List.getElem?_append_left hlt, hget], hrest⟩

/-- Before the first message any bit can be the first one. -/
theorem restart (h : LinkAt prev start g v) (hpassed : v.passed = []) (hmode : v.mode = .idle)
    (start' : Nat) : LinkAt prev start' g v := by
  have hsub : g.submitted = [] := h.submitted.trans hpassed
  have hexp : g.expected = 0 := by
    have := h.inv.expected_le
    rw [hsub] at this
    exact Nat.le_zero.1 this
  -- no message has been sent, so no copy is on the way
  have hdata : g.data = [] := by
    refine List.eq_nil_iff_forall_not_mem.2 fun k hk => ?_
    have := h.inv.data_lt k hk
    rw [hsub] at this
    exact Nat.not_lt_zero _ this
  have hsend := h.sendSeq
  rw [hmode] at hsend
  refine { h with
    prevRecvSeq := ?_, first := fun hnot => absurd hpassed hnot, data := ?_, acks := ?_,
    sendSeq := by rw [hmode]; exact hsend }
  · rw [h.prevRecvSeq, hexp]
    rfl
  · have hforall := h.data
    rw [hdata, List.forall₂_nil_left_iff] at hforall
    rw [hdata, hforall]
    exact .nil
  · -- every acknowledgement repeats the number from before the session
    have hzero : ∀ e ∈ g.replies, e = 0 :=
      fun e he => Nat.le_zero.1 (hexp ▸ h.inv.replies_le e he)
    refine ((List.forall₂_and_left _ _).2 ⟨hzero, h.acks⟩).imp fun e a hea => ?_
    obtain ⟨rfl, ha⟩ := hea
    exact ha

/-- A message is begun. -/
theorem pass (h : LinkAt prev start g v) (hmode : v.mode = .idle) {m : Message} {d : Datagram}
    (hd : d.origin = .message m) (hpkt : d.pkt = ⟨v.sendSeq, m.data⟩) :
    ∃ start' g', LinkAt prev start' g' (v.pass m d) := by
  have hseq := h.sendSeq
  rw [hmode] at hseq
  obtain ⟨hbit, hne⟩ := hseq
  have hnew : ∃ start', LinkAt prev start' g v ∧ v.sendSeq = bit start' v.passed.length ∧
      prev ≠ bit start' 0 := by
    by_cases hpassed : v.passed = []
    · -- the first message fixes the bits
      have hprev : v.prevRecvSeq = prev := by
        have hexp := h.expected_eq_length (by rw [hmode]; decide)
        rw [h.prevRecvSeq, hexp, hpassed]
        rfl
      refine ⟨v.sendSeq.toNat, h.restart hpassed hmode _, ?_, ?_⟩
      · rw [hpassed]
        unfold bit
        simp only [List.length_nil]
        omega
      · rw [← hprev]
        unfold bit
        omega
    · exact ⟨start, h, h.bit_of_ne (by rw [hmode]; decide) hpassed hbit hne, h.first hpassed⟩
  obtain ⟨start', h', hbit', hfirst⟩ := hnew
  have hsub := h'.submit hmode m hbit' hfirst
  refine ⟨start', _, hsub.transmit (List.length_append.trans rfl) ⟨m, ?_, hd, by rw [hpkt, hbit']⟩⟩
  simp

/-- The acknowledgement of `Send_Seq` ends the wait. -/
theorem acknowledged (h : LinkAt prev start g v) (hmode : v.mode = .waiting) {rest : List Int}
    (hacks : v.acks = v.sendSeq :: rest) : ∃ g', LinkAt prev start g' (v.acknowledged rest) := by
  have hseq := h.sendSeq
  rw [hmode] at hseq
  obtain ⟨k, hk, hbit⟩ := hseq
  have hbase : g.base = k := by
    rw [h.base, View.confirmed, hmode, hk]
    rfl
  have hpassed : v.passed ≠ [] := by
    intro h0
    rw [h0] at hk
    cases hk
  have hforall := h.acks
  rw [hacks] at hforall
  cases hrep : g.replies with
  | nil =>
      rw [hrep] at hforall
      cases hforall
  | cons e es =>
      rw [hrep] at hforall
      obtain ⟨hae, hes⟩ := List.forall₂_cons.1 hforall
      have hmem : e ∈ g.replies := by simp [hrep]
      have hlow := h.inv.replies_low e hmem
      have hle := h.inv.replies_le e hmem
      have hexp := h.inv.expected_le
      have hbl := h.inv.base_le
      rw [h.submitted] at hexp
      have hlast : e = k + 1 := by
        cases e with
        | zero =>
            -- nothing was accepted when this was sent, so it has the receiver's first number
            have hk0 : k = 0 := by omega
            subst hk0
            exact absurd (hae.symm.trans hbit) (h.first hpassed)
        | succ e =>
            have hmod := mod_eq_of_bit_eq (hae.symm.trans hbit)
            omega
      subst hlast
      have hfree : GoBackN.Inv 2 1 ((g.hear (k + 1) es).free (k + 1)) := by
        refine (h.inv.hear hrep).free ?_ (Nat.le_refl _)
        simp only [GoBackN.State.hear]
        omega
      refine ⟨_, { h with
        inv := hfree, base := ?_, acks := hes, sendSeq := ⟨k, hk, hbit⟩ }⟩
      simp only [GoBackN.State.hear, GoBackN.State.free, View.confirmed, View.acknowledged, hk]

/-- The sending function returns and changes its bit. -/
theorem finish (h : LinkAt prev start g v) (hmode : v.mode = .draining) :
    LinkAt prev start g v.finish := by
  have hexp := h.expected_eq_length (by rw [hmode]; decide)
  have hseq := h.sendSeq
  rw [hmode] at hseq
  obtain ⟨k, hk, hbit⟩ := hseq
  have hbase := h.base
  rw [View.confirmed, hmode] at hbase
  refine { h with base := hbase, sendSeq := ⟨?_, ?_⟩ }
  · have := bit_zero_or_one start k
    simp only [View.finish, hbit]
    omega
  · have hne := bit_succ_ne start k
    rw [bit_succ] at hne
    simp only [View.finish, hbit, h.prevRecvSeq, hexp, hk]
    exact hne

/-- The program sets the bit to zero. -/
theorem reset (h : LinkAt prev start g v) (hmode : v.mode = .idle)
    (hok : v.sendSeq = 0 ∨ v.prevRecvSeq ≠ 0) : LinkAt prev start g v.reset := by
  have hseq := h.sendSeq
  have hbase := h.base
  rw [hmode] at hseq
  refine { h with base := hbase, sendSeq := ?_ }
  simp only [View.reset, hmode]
  refine ⟨Or.inl trivial, ?_⟩
  rcases hok with h0 | h0
  · exact h0 ▸ hseq.2
  · exact h0.symm

/-! ## The wires -/

theorem setData (h : LinkAt prev start g v) {ds : List Datagram} (hds : ds.Sublist v.data) :
    ∃ g', LinkAt prev start g' (v.setData ds) := by
  obtain ⟨ns, hns, hforall⟩ := forall₂_of_sublist h.data hds
  exact ⟨_, { h with inv := h.inv.dropData hns, data := hforall }⟩

theorem setAcks (h : LinkAt prev start g v) {as : List Int} (has : as.Sublist v.acks) :
    ∃ g', LinkAt prev start g' (v.setAcks as) := by
  obtain ⟨es, hes, hforall⟩ := forall₂_of_sublist h.acks has
  exact ⟨_, { h with inv := h.inv.dropReplies hes, acks := hforall }⟩

/-! ## The receiving function -/

/-- The number returned last is acknowledged again. -/
theorem repeatAck (h : LinkAt prev start g v) :
    LinkAt prev start (g.reply 1) v.repeatAck := by
  refine { h with inv := h.inv.reply 1, acks := ?_ }
  exact List.rel_append h.acks (.cons h.prevRecvSeq .nil)

/-- A copy with a new number is the next message. -/
theorem accept (h : LinkAt prev start g v) {d : Datagram} {rest : List Datagram} {p : Udppacket}
    {m : Message} (hdata : v.data = d :: rest) (hm : d.origin = .message m) (hin : m.IsIn p)
    (hseq : p.seqNo = d.pkt.seqNo) (hne : p.seqNo ≠ v.prevRecvSeq) :
    v.mode = .waiting ∧ ∃ g', LinkAt prev start g' (v.accept p d.origin rest) := by
  have hforall := h.data
  rw [hdata] at hforall
  cases hg : g.data with
  | nil =>
      rw [hg] at hforall
      cases hforall
  | cons k ks =>
      rw [hg] at hforall
      obtain ⟨⟨m', hget, horigin, hpkt⟩, hks⟩ := List.forall₂_cons.1 hforall
      have hmm : m' = m := by
        rw [hm] at horigin
        exact (Origin.message.inj horigin).symm
      subst hmm
      have hmem : k ∈ g.data := by simp [hg]
      have hnum : p.seqNo = bit start k := by rw [hseq, hpkt]
      -- the copy has the number of the next message or of the one before it
      have hk : k = g.expected := by
        rcases h.copy_near hmem with hk | hk
        · exact hk
        · rw [hnum, h.prevRecvSeq, ← hk] at hne
          exact absurd rfl hne
      have hlt := h.inv.data_lt k hmem
      rw [h.submitted] at hlt
      constructor
      · -- a sender that does not wait has nothing unconfirmed on the way
        by_contra hmode
        have := h.expected_eq_length hmode
        omega
      · refine ⟨_, { h with
          inv := h.inv.accept hg (Nat.le_of_eq hk.symm), prevRecvSeq := hnum, returned := ?_,
          data := hks, acks := List.rel_append h.acks (.cons hnum .nil), sendSeq := ?_ }⟩
        · have htake : v.passed.take (k + 1) = v.passed.take g.expected ++ [m'] := by
            rw [← hk, List.take_add_one, hget]
            rfl
          simp only [GoBackN.State.accept, View.accept, htake]
          exact List.rel_append h.returned (.cons ⟨hin, horigin⟩ .nil)
        · have hmode : v.mode = .waiting := by
            by_contra hmode
            have := h.expected_eq_length hmode
            omega
          have hsend := h.sendSeq
          rw [hmode] at hsend
          simp only [View.accept, hmode]
          exact hsend

end LinkAt

namespace Link

variable {v : View}

theorem inOrder (h : Link v) {completed : Nat} (hle : completed ≤ v.confirmed) :
    InOrder v.passed v.returned completed := by
  obtain ⟨prev, start, g, hg⟩ := h
  have hlow : g.base ≤ g.expected := Nat.le_trans hg.inv.base_le hg.inv.low_le
  constructor
  · rw [hg.length_returned]
    exact hg.returned
  · rw [hg.length_returned]
    exact Nat.le_trans hle (hg.base ▸ hlow)

/-- The next message will not be taken for a repetition. -/
theorem sendSeq_ne (h : Link v) (hmode : v.mode = .idle) : v.sendSeq ≠ v.prevRecvSeq := by
  obtain ⟨prev, start, g, hg⟩ := h
  have hseq := hg.sendSeq
  rw [hmode] at hseq
  exact hseq.2

end Link

end Udp
end FileTransfer
