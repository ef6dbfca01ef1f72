import FileTransfer.Assign3.Turns

/-!
# A message over a calm network

What every run of a calm network makes of one call of `udplastsend`, when the other end takes the message.
Unlike a `Turn`, an exchange keeps account of a `Frame` at each end: its class, the numbers of the pairs and the
packets that were returned to it.  The receiver may go on before the sender has returned; `Quiet` lists what it
may do until then.

* `Exchange.leads` is the rule for a message, with `leads_answer` and `leads_listening` for what mostly follows;
* `Exchange.leads_late` lets the receiver reset its numbers before it listens.
-/

namespace FileTransfer
namespace Assign3

open Relation Udp

variable {π : Type*} {A : App π}

/-- Every run of a calm network comes to `P`. -/
abbrev Leads (A : App π) (P : Joint π → Prop) (J : Joint π) : Prop :=
  Until (JStep A) (fun _ => True) P J

theorem leads_swap {P : Joint π → Prop} {J : Joint π} (h : Leads A (fun J => P J.swap) J.swap) :
    Leads A P J :=
  until_swap.1 h

/-! ## What an end keeps -/

structure Frame where
  side : Side
  sendTempSeq : Int
  recTempSeq : Int
  returned : List (Udppacket × Origin)

namespace Frame

/-- After `udplastrecv` has returned a packet. -/
def heard (φ : Frame) (p : Udppacket) (o : Origin) : Frame :=
  { φ with returned := φ.returned ++ [(p, o)] }

/-- After the numbers of the pairs were set. -/
def reset (φ : Frame) : Reset → Frame
  | .putFileToServer | .putFileToClient => { φ with sendTempSeq := 0 }
  | .getFile => { φ with recTempSeq := 0 }

end Frame

def Endpoint.frame (e : Endpoint π) : Frame :=
  ⟨e.side, e.mem.sendTempSeq, e.mem.recTempSeq, e.hist.returned⟩

/-- The end stands at `ctl`, as in `Stands`, with this frame. -/
structure Placed (e : Endpoint π) (x : π) (ctl : Control) (a b : Int) (φ : Frame) : Prop
    extends Stands e x ctl a b where
  frame : e.frame = φ

/-- The end is in a call that sends `m`. -/
structure Speaking (e : Endpoint π) (x : π) (m : Message) (ctl : Control) (a b : Int) (φ : Frame) :
    Prop extends Sends e x m ctl a b where
  frame : e.frame = φ

/-- The end is idle, or waits in the receiving call that it makes. -/
inductive Resting (A : App π) (f : Endpoint π) (y : π) (b a : Int) (ψ : Frame) : Prop where
  | idle : Placed f y .idle b a ψ → Resting A f y b a ψ
  | listens : A.call y = some .udplastrecv → Placed f y .udplastrecv b a ψ → Resting A f y b a ψ
  | takesPairs : A.call y = some .udprecv → Placed f y .udprecvFirst b a ψ → Resting A f y b a ψ

/-- The first copy of a message; only the client's is always whole. -/
def firstCopy (s : Side) (m : Message) (a : Int) : Datagram where
  pkt := ⟨a, m.data⟩
  len :=
    match s with
    | .client => sizeofUdppacket
    | .server => if m.sendflag = 0 then sizeofUdppacket else m.sendflag
  origin := .message m

/-- `udplastrecv` reads the packet `p` from the datagram, whatever its buffer held. -/
def Brings (d : Datagram) (p : Udppacket) : Prop :=
  ∀ r : Udppacket, (recvfrom (r.clear bufferLength) sizeofUdppacket d).1 = p ∧
    0 < (recvfrom (r.clear bufferLength) sizeofUdppacket d).2

theorem firstCopy_plain (s : Side) {m : Message} (hm : m.sendflag = 0) (a : Int) :
    firstCopy s m a = copyOf m a := by
  cases s <;> simp [firstCopy, copyOf, Datagram.whole, hm]

theorem brings_copyOf (m : Message) (a : Int) : Brings (copyOf m a) ⟨a, m.data⟩ := by
  intro r
  have hread : recvfrom (r.clear bufferLength) sizeofUdppacket (copyOf m a) =
      (⟨a, m.data⟩, (sizeofUdppacket : Int)) := recvfrom_full _ rfl
  rw [hread]
  exact ⟨rfl, Int.natCast_pos.2 (by decide)⟩

section Ends

variable {e f : Endpoint π} {x y : π} {m : Message} {ctl : Control} {a b : Int} {φ ψ : Frame}
  {d : Datagram} {p : Udppacket}

theorem Placed.send (h : Placed e x .idle a b φ) (m : Message) :
    Speaking (e.begin A (.udplastsend m)).1 x m (.udplastsendWait m 0) a b φ ∧
      (e.begin A (.udplastsend m)).2 = [firstCopy φ.side m a] := by
  obtain ⟨⟨rfl, -, rfl, hprev⟩, rfl⟩ := h
  exact ⟨⟨⟨⟨rfl, rfl, rfl, hprev⟩, rfl⟩, rfl⟩, by cases hside : e.side <;>
    simp [Endpoint.begin, Endpoint.beginUdplastsend, Endpoint.lastFirst, Members.fillLast, hside,
      Endpoint.frame, firstCopy]⟩

theorem Speaking.again (h : Speaking e x m (.udplastsendWait m 0) a b φ) (hm : m.sendflag = 0) :
    Speaking (e.resendLast m 0).1 x m (.udplastsendWait m 1) a b φ ∧
      (e.resendLast m 0).2 = [firstCopy φ.side m a] := by
  obtain ⟨hsends, hcopy⟩ := h.toSends.again hm
  exact ⟨⟨hsends, h.frame⟩, by rw [hcopy, firstCopy_plain _ hm]⟩

theorem Speaking.acknowledged (h : Speaking e x m ctl a b φ) (d : Datagram) :
    Speaking (e.recvInLastWait d) x m .udplastsendDrain a b φ :=
  ⟨h.toSends.acknowledged d, h.frame⟩

theorem Speaking.finish (h : Speaking e x m ctl a b φ) (hbit : a = 0 ∨ a = 1) :
    Placed (e.finishUdplastsend A) (A.resume x (.udplastsend ⟨a, m.data⟩)) .idle (1 - a) b φ :=
  ⟨h.toSends.finish hbit, h.frame⟩

theorem Speaking.drain (h : Speaking e x m ctl a b φ) (hbit : a = 0 ∨ a = 1) (d : Datagram) :
    Placed (e.recvInLastDrain A d) (A.resume x (.udplastsend ⟨a, m.data⟩)) .idle (1 - a) b φ :=
  ⟨h.toSends.drain hbit d, h.frame⟩

theorem Placed.listen (h : Placed e x .idle a b φ) :
    Placed (e.begin A .udplastrecv).1 x .udplastrecv a b φ :=
  ⟨⟨h.app, rfl, h.sendSeq, h.prevRecvSeq⟩, h.frame⟩

theorem Placed.takePairs (h : Placed e x .idle a b φ) :
    Placed (e.begin A .udprecv).1 x .udprecvFirst a b φ :=
  ⟨⟨h.app, rfl, h.sendSeq, h.prevRecvSeq⟩, h.frame⟩

theorem Placed.reset (h : Placed e x .idle a b φ) (r : Reset) (ha : r = .putFileToServer → a = 0) :
    Placed (e.begin A (.reset r)).1 (A.resume x .done) .idle a b (φ.reset r) := by
  have hseq : (e.mem.reset r).sendSeq = a := by
    cases r with
    | putFileToServer => exact (ha rfl).symm
    | putFileToClient | getFile => exact h.sendSeq
  refine ⟨h.toStands.reset r hseq, ?_⟩
  rw [← h.frame]
  cases r <;> rfl

/-- A message that brings the expected number is acknowledged and returned. -/
theorem Placed.hear (h : Placed f y .udplastrecv b a ψ) (hbrings : Brings d p) (hseq : p.seqNo = a)
    (j : Junk) :
    Placed (f.recvInLast A j d).1 (A.resume y (.udplastrecv p)) .idle b (1 - a)
        (ψ.heard p d.origin) ∧
      ∃ d', (f.recvInLast A j d).2 = [d'] := by
  obtain ⟨hread, hpos⟩ := hbrings f.mem.recvmsg
  have hnew : a ≠ f.mem.prevRecvSeq := Ne.symm h.prevRecvSeq
  simp only [Endpoint.recvInLast, if_pos hpos, hread]
  refine ⟨?_, _, rfl⟩
  rw [Endpoint.udplastrecvLoop_new _ _ _ (by simpa [Members.answerLast, hseq] using hnew)]
  refine ⟨⟨?_, rfl, h.sendSeq, ?_⟩, ?_⟩
  · rw [← h.app]
    rfl
  · change p.seqNo ≠ 1 - a
    omega
  · rw [← h.frame]
    rfl

end Ends

/-! ## Going on alone

While the other end finishes its call, an end may begin calls of its own. -/

/-- What an end does without a datagram: in `F k` it makes at most `k` calls that send nothing, and then
waits, or sends and stands in `G`. -/
structure Quiet (A : App π) (F : Nat → Endpoint π → Prop) (G : Endpoint π → Prop) : Prop where
  timeout {k : Nat} {f : Endpoint π} : F k f → f.timeout A = none
  call {k : Nat} {f : Endpoint π} {c : Call} : F k f → f.nextCall A = some c →
    (∃ i < k, F i (f.begin A c).1 ∧ (f.begin A c).2 = []) ∨
      (G (f.begin A c).1 ∧ ∃ d, (f.begin A c).2 = [d])
  waits {f : Endpoint π} : G f → f.nextCall A = none

section Quiet

variable {F : Nat → Endpoint π → Prop} {G : Endpoint π → Prop} {e f : Endpoint π}
  {v : List Datagram} {J : Joint π}

theorem Quiet.own (hq : Quiet A F G) {k : Nat} (hf : F k f) (h : Own A ⟨f, e, v, []⟩ J) :
    (∃ i f', i < k ∧ F i f' ∧ J = ⟨f', e, v, []⟩) ∨ ∃ f' d, G f' ∧ J = ⟨f', e, v ++ [d], []⟩ := by
  cases h with
  | run hcall =>
      rcases hq.call hf hcall with ⟨i, hi, hF, hout⟩ | ⟨hG, d, hout⟩
      · refine .inl ⟨i, _, hi, hF, ?_⟩
        simp only [hout, List.append_nil]
      · refine .inr ⟨_, d, hG, ?_⟩
        simp only [hout]
  | timeout _ _ htime => cases (hq.timeout hf).symm.trans htime
  | deliver hv _ => cases hv

/-- With a datagram on its way to the other end, an end that waits stays. -/
theorem Quiet.own_waits (hq : Quiet A F G) (hf : G f) {d : Datagram} :
    ¬ Own A ⟨f, e, d :: v, []⟩ J := by
  intro h
  cases h with
  | run hcall => cases (hq.waits hf).symm.trans hcall
  | timeout hw _ _ => cases hw
  | deliver hv _ => cases hv

section Returns

variable {P : Joint π → Prop} {x : π} {m : Message} {a b : Int} {φ : Frame} (hq : Quiet A F G)
  (hbit : a = 0 ∨ a = 1)
  (hthen : ∀ e f, Placed e (A.resume x (.udplastsend ⟨a, m.data⟩)) .idle (1 - a) b φ →
    ((∃ k, F k f) ∨ G f) → Leads A P ⟨e, f, [], []⟩)

include hq hbit hthen

/-- An answer has come while the sender still waits behind its acknowledgement, and is read away. -/
theorem leads_of_read_away {d : Datagram} (he : Speaking e x m .udplastsendDrain a b φ) (hf : G f) :
    Leads A P ⟨e, f, [], [d]⟩ := by
  refine until_of_own trivial (.inl ⟨_, (own_drain he.ctl).2 (.inr ⟨_, _, rfl, rfl⟩)⟩) ?_ ?_
  · intro J h
    rcases (own_drain he.ctl).1 h with ⟨-, hv, -⟩ | ⟨d', v, hv, rfl⟩
    · cases hv
    · cases hv
      exact hthen _ _ (he.drain hbit d) (.inr hf)
  · intro J h
    exact absurd h (hq.own_waits hf)

/-- An answer has come behind the acknowledgement. -/
theorem leads_of_answered {r : Nat} {d d' : Datagram}
    (he : Speaking e x m (.udplastsendWait m r) a b φ) (hf : G f) :
    Leads A P ⟨e, f, [], [d, d']⟩ := by
  refine until_of_own trivial (.inl ⟨_, (own_wait he.ctl).2 (.inr ⟨_, _, rfl, rfl⟩)⟩) ?_ ?_
  · intro J h
    rcases (own_wait he.ctl).1 h with ⟨-, hv, -⟩ | ⟨d'', v, hv, rfl⟩
    · cases hv
    · cases hv
      exact leads_of_read_away hq hbit hthen (he.acknowledged d) hf
  · intro J h
    exact absurd h (hq.own_waits hf)

/-- The sender has its acknowledgement. -/
theorem leads_of_drain (he : Speaking e x m .udplastsendDrain a b φ) {k : Nat} (hf : F k f) :
    Leads A P ⟨e, f, [], []⟩ := by
  induction k using Nat.strong_induction_on generalizing f with
  | _ k ih =>
      refine until_of_own trivial (.inl ⟨_, (own_drain he.ctl).2 (.inl ⟨rfl, rfl, rfl⟩)⟩) ?_ ?_
      · intro J h
        rcases (own_drain he.ctl).1 h with ⟨-, -, rfl⟩ | ⟨d, v, hv, -⟩
        · exact hthen _ _ (he.finish hbit) (.inl ⟨k, hf⟩)
        · cases hv
      · intro J h
        rcases hq.own hf h with ⟨i, f', hi, hf', rfl⟩ | ⟨f', d, hf', rfl⟩
        · exact ih i hi hf'
        · exact leads_of_read_away hq hbit hthen he hf'

/-- The acknowledgement is on its way. -/
theorem leads_of_heard {r : Nat} {d : Datagram} (he : Speaking e x m (.udplastsendWait m r) a b φ)
    {k : Nat} (hf : F k f) : Leads A P ⟨e, f, [], [d]⟩ := by
  induction k using Nat.strong_induction_on generalizing f with
  | _ k ih =>
      refine until_of_own trivial (.inl ⟨_, (own_wait he.ctl).2 (.inr ⟨_, _, rfl, rfl⟩)⟩) ?_ ?_
      · intro J h
        rcases (own_wait he.ctl).1 h with ⟨-, hv, -⟩ | ⟨d', v, hv, rfl⟩
        · cases hv
        · cases hv
          exact leads_of_drain hq hbit hthen (he.acknowledged d) hf
      · intro J h
        rcases hq.own hf h with ⟨i, f', hi, hf', rfl⟩ | ⟨f', d', hf', rfl⟩
        · exact ih i hi hf'
        · exact leads_of_answered hq hbit hthen he hf'

end Returns
end Quiet

/-! ### What an end may do behind a call -/

section Kinds

variable {y z : π} {m : Message} {a b : Int} {ψ : Frame}

/-- It listens, or has nothing to do. -/
def Listening (A : App π) (y : π) (b a : Int) (ψ : Frame) (k : Nat) (f : Endpoint π) : Prop :=
  (k = 1 ∧ Placed f y .idle b a ψ) ∨
    (k = 0 ∧ ((A.call y = some .udplastrecv ∧ Placed f y .udplastrecv b a ψ) ∨
      (A.call y = some .udprecv ∧ Placed f y .udprecvFirst b a ψ)))

theorem Listening.resting {k : Nat} {f : Endpoint π} (h : Listening A y b a ψ k f) :
    Resting A f y b a ψ := by
  rcases h with ⟨-, h⟩ | ⟨-, ⟨hcall, h⟩ | ⟨hcall, h⟩⟩
  · exact .idle h
  · exact .listens hcall h
  · exact .takesPairs hcall h

theorem Placed.timeout_idle {f : Endpoint π} (h : Placed f y .idle b a ψ) : f.timeout A = none := by
  simp only [Endpoint.timeout, h.ctl]

theorem Placed.nextCall_idle {f : Endpoint π} (h : Placed f y .idle b a ψ) :
    f.nextCall A = A.call y := by
  simp only [Endpoint.nextCall, h.ctl, h.app]

theorem quiet_listening (hcall : ∀ c, A.call y = some c → c = .udplastrecv ∨ c = .udprecv) :
    Quiet A (Listening A y b a ψ) fun _ => False where
  timeout := by
    rintro k f (⟨-, h⟩ | ⟨-, ⟨-, h⟩ | ⟨-, h⟩⟩)
    · exact h.timeout_idle
    · simp only [Endpoint.timeout, h.ctl]
    · simp only [Endpoint.timeout, h.ctl]
  call := by
    rintro k f c (⟨rfl, h⟩ | ⟨-, ⟨-, h⟩ | ⟨-, h⟩⟩) hc
    · have hy : A.call y = some c := h.nextCall_idle.symm.trans hc
      refine .inl ⟨0, Nat.one_pos, .inr ⟨rfl, ?_⟩, ?_⟩
      · rcases hcall c hy with rfl | rfl
        · exact .inl ⟨hy, h.listen⟩
        · exact .inr ⟨hy, h.takePairs⟩
      · rcases hcall c hy with rfl | rfl <;> rfl
    · simp [Endpoint.nextCall, h.ctl] at hc
    · simp [Endpoint.nextCall, h.ctl] at hc
  waits := False.elim

/-- It answers with `m`. -/
def Answering (y : π) (b a : Int) (ψ : Frame) (k : Nat) (f : Endpoint π) : Prop :=
  k = 0 ∧ Placed f y .idle b a ψ

def Answered (y : π) (m : Message) (b a : Int) (ψ : Frame) (f : Endpoint π) : Prop :=
  Speaking f y m (.udplastsendWait m 0) b a ψ

theorem Answered.waits {f : Endpoint π} (h : Answered y m b a ψ f) : f.nextCall A = none := by
  simp only [Endpoint.nextCall, h.ctl]

theorem quiet_answering (hcall : A.call y = some (.udplastsend m)) :
    Quiet A (Answering y b a ψ) (Answered y m b a ψ) where
  timeout h := h.2.timeout_idle
  call := by
    rintro k f c ⟨-, h⟩ hc
    cases (h.nextCall_idle.symm.trans hc).symm.trans hcall
    obtain ⟨hspeaks, hcopy⟩ := h.send (A := A) m
    exact .inr ⟨hspeaks, _, hcopy⟩
  waits h := h.waits

/-- It resets its numbers, and answers with `m`. -/
def Restarting (y z : π) (b a : Int) (ψ ψ' : Frame) (k : Nat) (f : Endpoint π) : Prop :=
  (k = 1 ∧ Placed f y .idle b a ψ) ∨ (k = 0 ∧ Placed f z .idle b a ψ')

theorem quiet_restarting {r : Reset} (hreset : A.call y = some (.reset r))
    (hnext : A.resume y .done = z) (hbit : r = .putFileToServer → b = 0)
    (hcall : A.call z = some (.udplastsend m)) :
    Quiet A (Restarting y z b a ψ (ψ.reset r)) (Answered z m b a (ψ.reset r)) where
  timeout := by
    rintro k f (⟨-, h⟩ | ⟨-, h⟩)
    · exact h.timeout_idle
    · exact h.timeout_idle
  call := by
    rintro k f c (⟨rfl, h⟩ | ⟨rfl, h⟩) hc
    · cases (h.nextCall_idle.symm.trans hc).symm.trans hreset
      exact .inl ⟨0, Nat.one_pos, .inr ⟨rfl, hnext ▸ h.reset r hbit⟩, rfl⟩
    · cases (h.nextCall_idle.symm.trans hc).symm.trans hcall
      obtain ⟨hspeaks, hcopy⟩ := h.send (A := A) m
      exact .inr ⟨hspeaks, _, hcopy⟩
  waits h := h.waits

end Kinds

/-! ## A message -/

/-- The program `x` sends `m` with the number `a` to `y`, which reads the packet `p`. -/
structure Exchange (π : Type*) where
  x : π
  y : π
  m : Message
  p : Udppacket
  a : Int
  b : Int
  φ : Frame
  ψ : Frame
  bit : a = 0 ∨ a = 1

namespace Exchange

variable (A) (T : Exchange π)

/-- The sender and the receiver after their calls. -/
def x' : π := A.resume T.x (.udplastsend ⟨T.a, T.m.data⟩)

def y' : π := A.resume T.y (.udplastrecv T.p)

def ψ' : Frame := T.ψ.heard T.p (.message T.m)

def copy : Datagram := firstCopy T.φ.side T.m T.a

/-- The sender has not begun, or its message is on the way, or a whole message was read away. -/
inductive Speaks (e : Endpoint π) : List Datagram → Prop where
  | due : Placed e T.x .idle T.a T.b T.φ → Speaks e []
  | sent {r : Nat} : Speaking e T.x T.m (.udplastsendWait T.m r) T.a T.b T.φ → Speaks e [T.copy]
  | lost : T.m.sendflag = 0 → Speaking e T.x T.m (.udplastsendWait T.m 0) T.a T.b T.φ → Speaks e []

/-- The receiver has not taken the message. -/
structure Open (J : Joint π) : Prop where
  speaks : T.Speaks J.e J.w
  listens : Resting A J.f T.y T.b T.a T.ψ
  empty : J.v = []

/-- The programs make the two calls, and the message arrives as `p`. -/
structure Calls : Prop where
  speaks : A.call T.x = some (.udplastsend T.m)
  listens : A.call T.y = some .udplastrecv
  brings : Brings T.copy T.p
  number : T.p.seqNo = T.a

variable {A T} {P : Joint π → Prop} {J : Joint π} {e f : Endpoint π}

/-- A message without a length arrives as it was sent. -/
theorem calls_plain (hspeaks : A.call T.x = some (.udplastsend T.m))
    (hlistens : A.call T.y = some .udplastrecv) (hm : T.m.sendflag = 0)
    (hp : T.p = ⟨T.a, T.m.data⟩) : T.Calls A where
  speaks := hspeaks
  listens := hlistens
  brings := by
    rw [hp, copy, firstCopy_plain _ hm]
    exact brings_copyOf _ _
  number := by rw [hp]

/-- A step of the receiver alone, which begins to wait at most. -/
theorem resting_own (hcalls : T.Calls A) (hf : Resting A f T.y T.b T.a T.ψ) (h : Own A ⟨f, e, [], []⟩ J) :
    ∃ f', Placed f' T.y .udplastrecv T.b T.a T.ψ ∧ J = ⟨f', e, [], []⟩ := by
  cases hf with
  | listens _ hf =>
      obtain ⟨j, d, v, hv, -⟩ := (own_recv hf.ctl).1 h
      cases hv
  | takesPairs hcall _ => cases hcall.symm.trans hcalls.listens
  | idle hf =>
      obtain ⟨c, hc, rfl⟩ := (own_idle hf.ctl).1 h
      cases hc.symm.trans (hf.app.symm ▸ hcalls.listens)
      exact ⟨_, hf.listen, rfl⟩

/-! From the beginning every run comes to the acknowledgement. -/

section Open

variable (hcalls : T.Calls A)
  (hheard : ∀ e f d r, Speaking e T.x T.m (.udplastsendWait T.m r) T.a T.b T.φ →
    Placed f (T.y' A) .idle T.b (1 - T.a) T.ψ' → Leads A P ⟨e, f, [], [d]⟩)

include hcalls hheard

/-- The receiver waits, and the message is on its way. -/
theorem leads_of_waits {r : Nat} (he : Speaking e T.x T.m (.udplastsendWait T.m r) T.a T.b T.φ)
    (hf : Placed f T.y .udplastrecv T.b T.a T.ψ) : Leads A P ⟨e, f, [T.copy], []⟩ := by
  refine until_of_own trivial (.inr ⟨_, (own_recv hf.ctl).2 ⟨⟨[], []⟩, _, _, rfl, rfl⟩⟩) ?_ ?_
  · intro J h
    rcases (own_wait he.ctl).1 h with ⟨hw, -, -⟩ | ⟨d, v, hv, -⟩
    · cases hw
    · cases hv
  · intro J h
    obtain ⟨j, d, v, hv, rfl⟩ := (own_recv hf.ctl).1 h
    cases hv
    obtain ⟨hf', d, hd⟩ := hf.hear (A := A) hcalls.brings hcalls.number j
    rw [hd]
    exact hheard _ _ _ _ he hf'

theorem leads_of_sent {r : Nat} (he : Speaking e T.x T.m (.udplastsendWait T.m r) T.a T.b T.φ)
    (hf : Resting A f T.y T.b T.a T.ψ) : Leads A P ⟨e, f, [T.copy], []⟩ := by
  cases hf with
  | listens _ hf => exact leads_of_waits hcalls hheard he hf
  | takesPairs hcall _ => cases hcall.symm.trans hcalls.listens
  | idle hf =>
      -- a receiver that is about to wait begins to
      have hcall : A.call f.app = some .udplastrecv := hf.app.symm ▸ hcalls.listens
      refine until_of_own trivial (.inr ⟨_, (own_idle hf.ctl).2 ⟨_, hcall, rfl⟩⟩) ?_ ?_
      · intro J h
        rcases (own_wait he.ctl).1 h with ⟨hw, -, -⟩ | ⟨d, v, hv, -⟩
        · cases hw
        · cases hv
      · intro J h
        obtain ⟨c, hc, rfl⟩ := (own_idle hf.ctl).1 h
        cases hcall.symm.trans hc
        exact leads_of_waits hcalls hheard he (hf.listen (A := A))

theorem leads_of_lost (hm : T.m.sendflag = 0)
    (he : Speaking e T.x T.m (.udplastsendWait T.m 0) T.a T.b T.φ)
    (hf : Resting A f T.y T.b T.a T.ψ) : Leads A P ⟨e, f, [], []⟩ := by
  have hgo : ∀ f, ∃ J, Own A ⟨e, f, [], []⟩ J := fun f =>
    ⟨_, (own_wait he.ctl).2 (.inl ⟨rfl, rfl, rfl⟩)⟩
  -- nothing is on the way: the timeout fires, and the message is sent again
  have hagain : ∀ f, Resting A f T.y T.b T.a T.ψ → ∀ J, Own A ⟨e, f, [], []⟩ J → Leads A P J := by
    intro f hf J h
    rcases (own_wait he.ctl).1 h with ⟨-, -, rfl⟩ | ⟨d, v, hv, -⟩
    · obtain ⟨he', hcopy⟩ := he.again hm
      change Leads A P ⟨(e.resendLast T.m 0).1, f, (e.resendLast T.m 0).2, []⟩
      rw [hcopy]
      exact leads_of_sent hcalls hheard he' hf
    · cases hv
  refine until_of_own trivial (.inl (hgo f)) (hagain f hf) ?_
  intro J h
  obtain ⟨f', hf', rfl⟩ := resting_own hcalls hf h
  refine until_of_own trivial (.inl (hgo f')) (hagain f' (.listens hcalls.listens hf')) ?_
  intro J h
  obtain ⟨j, d, v, hv, -⟩ := (own_recv hf'.ctl).1 h
  cases hv

theorem leads_of_due (he : Placed e T.x .idle T.a T.b T.φ) (hf : Resting A f T.y T.b T.a T.ψ) :
    Leads A P ⟨e, f, [], []⟩ := by
  have hcall : A.call e.app = some (.udplastsend T.m) := he.app.symm ▸ hcalls.speaks
  have hgo : ∀ f, ∃ J, Own A ⟨e, f, [], []⟩ J := fun f =>
    ⟨_, (own_idle he.ctl).2 ⟨_, hcall, rfl⟩⟩
  -- the sender sends, whatever the receiver does
  have hsend : ∀ f, Resting A f T.y T.b T.a T.ψ → ∀ J, Own A ⟨e, f, [], []⟩ J → Leads A P J := by
    intro f hf J h
    obtain ⟨c, hc, rfl⟩ := (own_idle he.ctl).1 h
    cases hcall.symm.trans hc
    obtain ⟨he', hcopy⟩ := he.send (A := A) T.m
    change Leads A P ⟨(e.begin A (.udplastsend T.m)).1, f, (e.begin A (.udplastsend T.m)).2, []⟩
    rw [hcopy]
    exact leads_of_sent hcalls hheard he' hf
  refine until_of_own trivial (.inl (hgo f)) (hsend f hf) ?_
  intro J h
  obtain ⟨f', hf', rfl⟩ := resting_own hcalls hf h
  refine until_of_own trivial (.inl (hgo f')) (hsend f' (.listens hcalls.listens hf')) ?_
  intro J h
  obtain ⟨j, d, v, hv, -⟩ := (own_recv hf'.ctl).1 h
  cases hv

end Open

section Leads

variable {F : Nat → Endpoint π → Prop} {G : Endpoint π → Prop}

/-- The rule for a message: whatever the receiver does behind it, both calls return. -/
theorem leads (hcalls : T.Calls A) (hq : Quiet A F G)
    (hF : ∀ f, Placed f (T.y' A) .idle T.b (1 - T.a) T.ψ' → ∃ k, F k f)
    (hthen : ∀ e f, Placed e (T.x' A) .idle (1 - T.a) T.b T.φ → ((∃ k, F k f) ∨ G f) →
      Leads A P ⟨e, f, [], []⟩)
    (h : T.Open A J) : Leads A P J := by
  have hheard : ∀ e f d r, Speaking e T.x T.m (.udplastsendWait T.m r) T.a T.b T.φ →
      Placed f (T.y' A) .idle T.b (1 - T.a) T.ψ' → Leads A P ⟨e, f, [], [d]⟩ := by
    intro e f d r he hf
    obtain ⟨k, hk⟩ := hF f hf
    exact leads_of_heard hq T.bit hthen he hk
  obtain ⟨e, f, w, v⟩ := J
  obtain ⟨hspeaks, hlistens, hv⟩ := h
  cases hv
  cases hspeaks with
  | due he => exact leads_of_due hcalls hheard he hlistens
  | sent he => exact leads_of_sent hcalls hheard he hlistens
  | lost hm he => exact leads_of_lost hcalls hheard hm he hlistens

/-- The receiver has the message and listens on, or has nothing to do. -/
theorem leads_listening {x y : π} (h : T.Open A J) (hcalls : T.Calls A) (hx : T.x' A = x)
    (hy : T.y' A = y) (hnext : ∀ c, A.call y = some c → c = .udplastrecv ∨ c = .udprecv)
    (hthen : ∀ e f, Placed e x .idle (1 - T.a) T.b T.φ → Resting A f y T.b (1 - T.a) T.ψ' →
      Leads A P ⟨e, f, [], []⟩) : Leads A P J := by
  subst hx hy
  refine leads hcalls (quiet_listening hnext) (fun f hf => ⟨1, .inl ⟨rfl, hf⟩⟩) ?_ h
  rintro e f he (⟨k, hf⟩ | hf)
  · exact hthen e f he hf.resting
  · exact hf.elim

/-- A receiver that first sets its numbers listens then. -/
theorem leads_late {y₀ : π} {ψ₀ : Frame} {r : Reset} {w : List Datagram} (hcalls : T.Calls A)
    (hreset : A.call y₀ = some (.reset r)) (hnext : A.resume y₀ .done = T.y)
    (hbit : r = .putFileToServer → T.b = 0) (hψ : ψ₀.reset r = T.ψ)
    (hthen : ∀ J, T.Open A J → Leads A P J) (he : T.Speaks e w)
    (hf : Placed f y₀ .idle T.b T.a ψ₀) : Leads A P ⟨e, f, w, []⟩ := by
  have hcall : A.call f.app = some (.reset r) := hf.app.symm ▸ hreset
  -- the receiver sets its numbers, whatever the sender does
  have hgo : ∀ e w, ∃ J, Own A ⟨f, e, [], w⟩ J := fun e w =>
    ⟨_, (own_idle hf.ctl).2 ⟨_, hcall, rfl⟩⟩
  have hother : ∀ e w, T.Speaks e w → ∀ J, Own A ⟨f, e, [], w⟩ J → Leads A P J.swap := by
    intro e w he J h
    obtain ⟨c, hc, rfl⟩ := (own_idle hf.ctl).1 h
    cases hcall.symm.trans hc
    refine hthen _ ⟨he, .idle ?_, rfl⟩
    have hplaced := hf.reset (A := A) r hbit
    rwa [hnext, hψ] at hplaced
  have hsent : ∀ e r, Speaking e T.x T.m (.udplastsendWait T.m r) T.a T.b T.φ →
      Leads A P ⟨e, f, [T.copy], []⟩ := by
    intro e r he
    refine until_of_own trivial (.inr (hgo e _)) ?_ (hother e _ (.sent he))
    intro J h
    rcases (own_wait he.ctl).1 h with ⟨hw, -, -⟩ | ⟨d, v, hv, -⟩
    · cases hw
    · cases hv
  cases he with
  | due he =>
      refine until_of_own trivial (.inr (hgo e _)) ?_ (hother e _ (.due he))
      intro J h
      obtain ⟨c, hc, rfl⟩ := (own_idle he.ctl).1 h
      cases (he.app.symm ▸ hcalls.speaks : A.call e.app = _).symm.trans hc
      obtain ⟨he', hcopy⟩ := he.send (A := A) T.m
      change Leads A P ⟨(e.begin A (.udplastsend T.m)).1, f, (e.begin A (.udplastsend T.m)).2, []⟩
      rw [hcopy]
      exact hsent _ _ he'
  | sent he => exact hsent e _ he
  | lost hm he =>
      refine until_of_own trivial (.inr (hgo e _)) ?_ (hother e _ (.lost hm he))
      intro J h
      rcases (own_wait he.ctl).1 h with ⟨-, -, rfl⟩ | ⟨d, v, hv, -⟩
      · obtain ⟨he', hcopy⟩ := he.again hm
        change Leads A P ⟨(e.resendLast T.m 0).1, f, (e.resendLast T.m 0).2, []⟩
        rw [hcopy]
        exact hsent _ _ he'
      · cases hv

/-- A sender that first sets its numbers sends then. -/
theorem leads_early {x₀ : π} {φ₀ : Frame} {r : Reset} (hcalls : T.Calls A)
    (hreset : A.call x₀ = some (.reset r)) (hnext : A.resume x₀ .done = T.x)
    (hbit : r = .putFileToServer → T.a = 0) (hφ : φ₀.reset r = T.φ)
    (hthen : ∀ J, T.Open A J → Leads A P J) (he : Placed e x₀ .idle T.a T.b φ₀)
    (hf : Resting A f T.y T.b T.a T.ψ) : Leads A P ⟨e, f, [], []⟩ := by
  have hcall : A.call e.app = some (.reset r) := he.app.symm ▸ hreset
  have hgo : ∀ f, ∃ J, Own A ⟨e, f, [], []⟩ J := fun f => ⟨_, (own_idle he.ctl).2 ⟨_, hcall, rfl⟩⟩
  have hdue : ∀ f, Resting A f T.y T.b T.a T.ψ → ∀ J, Own A ⟨e, f, [], []⟩ J → Leads A P J := by
    intro f hf J h
    obtain ⟨c, hc, rfl⟩ := (own_idle he.ctl).1 h
    cases hcall.symm.trans hc
    refine hthen _ ⟨.due ?_, hf, rfl⟩
    have hplaced := he.reset (A := A) r hbit
    rwa [hnext, hφ] at hplaced
  refine until_of_own trivial (.inl (hgo f)) (hdue f hf) ?_
  intro J h
  -- the receiver begins to wait before
  obtain ⟨f', hf', rfl⟩ := resting_own hcalls hf h
  refine until_of_own trivial (.inl (hgo f')) (hdue f' (.listens hcalls.listens hf')) ?_
  intro J h
  obtain ⟨j, d, v, hv, -⟩ := (own_recv hf'.ctl).1 h
  cases hv

/-! The exchange that follows another one. -/

variable {x y : π} {m : Message}

/-- A message without a length. -/
def say (x y : π) (m : Message) (a b : Int) (φ ψ : Frame) (bit : a = 0 ∨ a = 1) : Exchange π :=
  ⟨x, y, m, ⟨a, m.data⟩, a, b, φ, ψ, bit⟩

/-- The receiver answers: the sender of the first message is idle, and may set its numbers next. -/
theorem leads_answer (h : T.Open A J) (hcalls : T.Calls A) (hx : T.y' A = x) (hm : m.sendflag = 0)
    (hspeaks : A.call x = some (.udplastsend m)) (hbit : T.b = 0 ∨ T.b = 1) {ψ : Frame}
    (hthen : ∀ e f, Placed e (T.x' A) .idle (1 - T.a) T.b T.φ →
      (say x y m T.b (1 - T.a) T.ψ' ψ hbit).Speaks f [] → Leads A P ⟨e, f, [], []⟩) : Leads A P J := by
  subst hx
  refine leads hcalls (quiet_answering hspeaks) (fun f hf => ⟨0, rfl, hf⟩) ?_ h
  rintro e f he (⟨k, -, hf⟩ | hf)
  · exact hthen e f he (.due hf)
  · exact hthen e f he (.lost hm hf)

/-- What comes after the answer comes after the message. -/
theorem leads_say (h : T.Open A J) (hcalls : T.Calls A) (hx : T.y' A = x) (hy : T.x' A = y)
    (hm : m.sendflag = 0) (hspeaks : A.call x = some (.udplastsend m)) (hbit : T.b = 0 ∨ T.b = 1)
    (hthen : ∀ J, (say x y m T.b (1 - T.a) T.ψ' T.φ hbit).Open A J →
      Leads A (fun J => P J.swap) J) : Leads A P J := by
  refine leads_answer (y := y) (ψ := T.φ) h hcalls hx hm hspeaks hbit ?_
  intro e f he hf
  exact leads_swap (hthen _ ⟨hf, .idle (hy ▸ he), rfl⟩)

/-- The same when the sender of the first message sets its numbers before it listens. -/
theorem leads_say_late {y₀ : π} {r : Reset} (h : T.Open A J) (hcalls : T.Calls A)
    (hx : T.y' A = x) (hy : T.x' A = y₀) (hreset : A.call y₀ = some (.reset r)) (hnext : A.resume y₀ .done = y)
    (hr : r ≠ .putFileToServer) (hm : m.sendflag = 0) (hspeaks : A.call x = some (.udplastsend m))
    (hlistens : A.call y = some .udplastrecv) (hbit : T.b = 0 ∨ T.b = 1)
    (hthen : ∀ J, (say x y m T.b (1 - T.a) T.ψ' (T.φ.reset r) hbit).Open A J →
      Leads A (fun J => P J.swap) J) : Leads A P J := by
  refine leads_answer (y := y) (ψ := T.φ.reset r) h hcalls hx hm hspeaks hbit ?_
  intro e f he hf
  have hcalls' : (say x y m T.b (1 - T.a) T.ψ' (T.φ.reset r) hbit).Calls A :=
    calls_plain hspeaks hlistens hm rfl
  exact leads_swap (leads_late hcalls' hreset hnext (fun h => absurd h hr) rfl hthen hf (hy ▸ he))

/-- The sender goes on with another message. -/
theorem leads_again (h : T.Open A J) (hcalls : T.Calls A) (hx : T.x' A = x) (hy : T.y' A = y)
    (hlistens : A.call y = some .udplastrecv) (hbit : 1 - T.a = 0 ∨ 1 - T.a = 1)
    (hthen : ∀ J, (say x y m (1 - T.a) T.b T.φ T.ψ' hbit).Open A J → Leads A P J) :
    Leads A P J := by
  refine leads_listening h hcalls hx hy
    (fun c hc => .inl (Option.some.inj (hc.symm.trans hlistens))) fun e f he hf => ?_
  exact hthen _ ⟨.due he, hf, rfl⟩

end Leads
end Exchange

end Assign3
end FileTransfer
