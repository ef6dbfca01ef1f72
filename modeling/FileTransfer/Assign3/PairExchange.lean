import FileTransfer.Assign3.Exchange
import FileTransfer.Assign3.PairTransfer

/-!
# A chunk over a calm network

What every run of a calm network makes of one call of `udpsend`, when the other end calls `udprecv`: the two
halves arrive, both acknowledgements come back, and `udpsend` returns when nothing follows them.
-/

namespace FileTransfer
namespace Assign3

open Udp

variable {π : Type*} {A : App π}

/-- The steps of an end that waits. -/
theorem own_busy {J J' : Joint π} (hctl : J.e.ctl ≠ .idle) (h : Own A J J') :
    (J.w = [] ∧ J.v = [] ∧ ∃ p, J.e.timeout A = some p ∧ J' = ⟨p.1, J.f, p.2, []⟩) ∨
      ∃ d v j p, J.v = d :: v ∧ J.e.packet A j d = some p ∧ J' = ⟨p.1, J.f, J.w ++ p.2, v⟩ := by
  cases h with
  | run hcall => exact absurd (nextCall_idle hcall) hctl
  | timeout hw hv h => exact .inl ⟨hw, hv, _, h, rfl⟩
  | deliver hv h => exact .inr ⟨_, _, _, _, hv, h, rfl⟩

/-- The sender is in `udpsend`, with the halves of `chunk` in its packets. -/
structure Pairing (e : Endpoint π) (x : π) (chunk : Buffer) (ctl : Control) (a b : Int)
    (φ : Frame) : Prop extends Placed e x ctl a b φ where
  first : e.mem.sendmsg.seqNo = φ.sendTempSeq
  second : e.mem.sendmsg2.seqNo = φ.sendTempSeq + 1
  halves : joinHalves e.mem.sendmsg e.mem.sendmsg2 = chunk

/-- The receiver has read the first half. -/
structure Halfway (f : Endpoint π) (y : π) (p : Udppacket) (b a : Int) (ψ : Frame) : Prop
    extends Placed f y (.udprecvSecond sizeofUdppacket) b a ψ where
  recvmsg : f.mem.recvmsg = p

/-- The datagram acknowledges the half with this number. -/
def AcksHalf (n : Int) (d : Datagram) : Prop :=
  d.len = sizeofUdppacket ∧ d.pkt.data.bytes.take 1 = ascii "A" ∧ d.pkt.seqNo = n

/-- The program `x` sends `chunk` in a pair to `y`. -/
structure PairExchange (π : Type*) where
  x : π
  y : π
  chunk : Buffer
  a : Int
  b : Int
  φ : Frame
  ψ : Frame

section Pair

variable {e f : Endpoint π} {x y : π} {chunk : Buffer} {ctl : Control} {a b n : Int} {φ ψ : Frame}
  {d : Datagram} {r : Nat} {s1 s2 : Bool}

theorem AcksHalf.readFirst (h : AcksHalf n d) (x : Members) {cap : Nat} (hcap : 5 ≤ cap) :
    acknowledges (x.readFirst cap d).recvmsg n = true := by
  obtain ⟨hlen, hA, hn⟩ := h
  have hmin : 5 ≤ min d.len cap := Nat.le_min.2 ⟨by rw [hlen]; decide, hcap⟩
  have hone : 1 ≤ (d.pkt.data.bytes.take (min d.len cap - 4)).length := by
    rw [List.length_take, d.pkt.data.length_eq]
    exact Nat.le_min.2 ⟨by omega, by decide⟩
  refine acknowledges_iff.2 ⟨?_, ?_⟩
  · simp only [Members.readFirst, recvfrom, Udppacket.overlay]
    rw [Buffer.take_overlay _ hone (by decide), List.take_take, Nat.min_eq_left (by omega)]
    exact hA
  · rw [← hn]
    exact Udppacket.overlay_seqNo _ _ (by omega)

theorem AcksHalf.readSecond (h : AcksHalf n d) (x : Members) :
    acknowledges (x.readSecond d).recvmsg2 n = true := by
  have hread : (x.readSecond d).recvmsg2 = d.pkt := by
    rw [Members.readSecond, recvfrom_full _ h.1]
  rw [hread]
  exact acknowledges_iff.2 h.2

/-- `udpsend` fills the two packets and sends them. -/
theorem Placed.sendPair (h : Placed e x .idle a b φ) (chunk : Buffer) :
    Pairing (e.begin A (.udpsend chunk)).1 x chunk (.udpsendFirst 0 false false) a b φ ∧
      (e.begin A (.udpsend chunk)).2 = (e.begin A (.udpsend chunk)).1.mem.pair := by
  have htemp : e.mem.sendTempSeq = φ.sendTempSeq := by
    rw [← h.frame]
    rfl
  refine ⟨⟨⟨⟨h.app, rfl, h.sendSeq, h.prevRecvSeq⟩, h.frame⟩, htemp, ?_, ?_⟩, rfl⟩
  · rw [← htemp]
    rfl
  · refine joinHalves_eq ?_ ?_
    · change (e.mem.fillPair chunk).sendmsg.data.bytes.take packetLength = _
      rw [Members.fillPair, take_fill _ _ (Nat.le_of_eq (length_take_half chunk).symm) (by decide),
        List.take_take, Nat.min_self]
    · change (e.mem.fillPair chunk).sendmsg2.data.bytes.take packetLength = _
      rw [Members.fillPair, take_fill _ _ (Nat.le_of_eq (length_drop_half chunk).symm) (by decide)]
      exact List.take_of_length_le (Nat.le_of_eq (length_drop_half chunk))

theorem five_le_firstCap (e : Endpoint π) : 5 ≤ e.firstCap := by
  unfold Endpoint.firstCap
  split <;> decide

/-- The two acknowledgements end the first loop of `udpsend`. -/
theorem Pairing.ackFirst (h : Pairing e x chunk (.udpsendFirst r s1 s2) a b φ)
    (hd : AcksHalf φ.sendTempSeq d) :
    Pairing (e.recvInFirst r s1 s2 d) x chunk (.udpsendSecond r true s2) a b φ := by
  have hack : acknowledges (e.mem.readFirst e.firstCap d).recvmsg
      (e.mem.readFirst e.firstCap d).sendmsg.seqNo = true := by
    change acknowledges _ e.mem.sendmsg.seqNo = true
    rw [h.first]
    exact hd.readFirst _ (five_le_firstCap e)
  refine ⟨⟨⟨h.app, ?_, h.sendSeq, h.prevRecvSeq⟩, h.frame⟩, h.first, h.second, h.halves⟩
  simp only [Endpoint.recvInFirst, hack, Bool.or_true]

theorem Pairing.ackSecond (h : Pairing e x chunk (.udpsendSecond r true s2) a b φ)
    (hd : AcksHalf (φ.sendTempSeq + 1) d) :
    Pairing (e.recvInSecond r true s2 d) x chunk (.drainFirst true true) a b φ := by
  have hack : acknowledges (e.mem.readSecond d).recvmsg2 (e.mem.readSecond d).sendmsg2.seqNo =
      true := by
    change acknowledges _ e.mem.sendmsg2.seqNo = true
    rw [h.second]
    exact hd.readSecond _
  have hloop : e.recvInSecond r true s2 d =
      { e with mem := e.mem.readSecond d, ctl := .drainFirst true true } := by
    simp only [Endpoint.recvInSecond, hack, Bool.or_true, Endpoint.udpsendLoop]
    rfl
  rw [hloop]
  exact ⟨⟨⟨h.app, rfl, h.sendSeq, h.prevRecvSeq⟩, h.frame⟩, h.first, h.second, h.halves⟩

theorem Pairing.finish (h : Pairing e x chunk ctl a b φ) :
    Placed (e.finishUdpsend A) (A.resume x (.udpsend chunk)) .idle a b
      { φ with sendTempSeq := φ.sendTempSeq + 2 } := by
  refine ⟨⟨?_, rfl, h.sendSeq, h.prevRecvSeq⟩, ?_⟩
  · rw [← h.app, ← h.halves]
    rfl
  · rw [← h.frame]
    rfl

/-- The receiver reads the first half. -/
theorem Placed.readHalf (h : Placed f y .udprecvFirst b a ψ) (p : Udppacket) :
    Halfway (f.recvInPairFirst (.whole p .pair)) y p b a ψ := by
  have hread : recvfrom (f.mem.recvmsg.clear packetLength) sizeofUdppacket (.whole p .pair) =
      (p, (sizeofUdppacket : Int)) := recvfrom_full _ rfl
  simp only [Endpoint.recvInPairFirst, hread]
  exact ⟨⟨⟨h.app, rfl, h.sendSeq, h.prevRecvSeq⟩, h.frame⟩, rfl⟩

theorem acksHalf_fill (p : Udppacket) (n : Int) (junk : List Byte) (o : Origin) :
    AcksHalf n (.whole (Members.fill p n ((ackData "ACK" n junk).take packetLength)) o) := by
  have hA : (ackData "ACK" n junk).take packetLength =
      65 :: ((ackData "ACK" n junk).take packetLength).tail := rfl
  refine ⟨rfl, ?_, rfl⟩
  change (Members.fill p n _).data.bytes.take 1 = _
  rw [take_fill _ _ (by rw [hA]; simp) (by decide), hA]
  rfl

/-- The receiver reads the second half, acknowledges both and returns the chunk. -/
theorem Halfway.readHalf {p q : Udppacket} (h : Halfway f y p b a ψ) (j : Junk)
    (hp : p.seqNo = ψ.recTempSeq) (hq : q.seqNo = ψ.recTempSeq + 1) :
    Placed (f.recvInPairSecond A j sizeofUdppacket (.whole q .pair)).1
        (A.resume y (.udprecv (some (joinHalves p q)))) .idle b a
        { ψ with recTempSeq := ψ.recTempSeq + 2 } ∧
      ∃ d d', AcksHalf ψ.recTempSeq d ∧ AcksHalf (ψ.recTempSeq + 1) d' ∧
        (f.recvInPairSecond A j sizeofUdppacket (.whole q .pair)).2 = [d, d'] := by
  have hread : recvfrom (f.mem.recvmsg2.clear packetLength) sizeofUdppacket (.whole q .pair) =
      (q, (sizeofUdppacket : Int)) := recvfrom_full _ rfl
  have hpos : (0 : Int) < (sizeofUdppacket : Int) := Int.natCast_pos.2 (by decide)
  have hrec : f.mem.recTempSeq = ψ.recTempSeq := by
    rw [← h.frame]
    rfl
  have hfirst : f.mem.recvmsg.seqNo = ψ.recTempSeq := h.recvmsg ▸ hp
  simp only [Endpoint.recvInPairSecond, hread]
  rw [if_pos ⟨hpos, hpos⟩, Endpoint.answerPair]
  dsimp only
  rw [if_pos ⟨hfirst.trans hrec.symm, hq.trans (by rw [hrec])⟩]
  refine ⟨⟨⟨?_, rfl, h.sendSeq, h.prevRecvSeq⟩, ?_⟩, _, _, ?_, ?_, rfl⟩
  · rw [← h.app, ← h.recvmsg]
    rfl
  · rw [← h.frame]
    rfl
  · rw [← hfirst]
    exact acksHalf_fill _ _ _ _
  · rw [← hq]
    exact acksHalf_fill _ _ _ _

end Pair

namespace PairExchange

variable (A) (T : PairExchange π)

def x' : π := A.resume T.x (.udpsend T.chunk)

def y' : π := A.resume T.y (.udprecv (some T.chunk))

def φ' : Frame := { T.φ with sendTempSeq := T.φ.sendTempSeq + 2 }

def ψ' : Frame := { T.ψ with recTempSeq := T.ψ.recTempSeq + 2 }

/-- The programs make the two calls, and agree on the number of the pair. -/
structure Calls : Prop where
  sends : A.call T.x = some (.udpsend T.chunk)
  takes : A.call T.y = some .udprecv
  agree : T.ψ.recTempSeq = T.φ.sendTempSeq

variable {A T} {P : Joint π → Prop} {e f : Endpoint π} {F : Nat → Endpoint π → Prop} {r : Nat}
  {s2 : Bool} {d d' : Datagram}

/-! ### Back to the sender -/

section Back

variable (hq : Quiet A F fun _ => False)
  (hthen : ∀ e f, Placed e (T.x' A) .idle T.a T.b T.φ' → (∃ k, F k f) → Leads A P ⟨e, f, [], []⟩)

include hq hthen

theorem leads_of_drain (he : Pairing e T.x T.chunk (.drainFirst true true) T.a T.b T.φ) {k : Nat}
    (hf : F k f) : Leads A P ⟨e, f, [], []⟩ := by
  have hctl : e.ctl ≠ .idle := by simp [he.ctl]
  have htime : e.timeout A = some (e.finishUdpsend A, []) := by simp only [Endpoint.timeout, he.ctl]
  induction k using Nat.strong_induction_on generalizing f with
  | _ k ih =>
      refine until_of_own trivial (.inl ⟨_, .timeout rfl rfl htime⟩) ?_ ?_
      · intro J h
        rcases own_busy hctl h with ⟨-, -, p, hp, rfl⟩ | ⟨d, v, j, p, hv, -, -⟩
        · cases hp.symm.trans htime
          exact hthen _ _ he.finish ⟨k, hf⟩
        · cases hv
      · intro J h
        rcases hq.own hf h with ⟨i, f', hi, hf', rfl⟩ | ⟨f', d, hf', -⟩
        · exact ih i hi hf'
        · exact hf'.elim

theorem leads_of_second (he : Pairing e T.x T.chunk (.udpsendSecond r true s2) T.a T.b T.φ)
    (hd : AcksHalf (T.φ.sendTempSeq + 1) d) {k : Nat} (hf : F k f) : Leads A P ⟨e, f, [], [d]⟩ := by
  have hctl : e.ctl ≠ .idle := by simp [he.ctl]
  have hpacket : ∀ j d, e.packet A j d = some (e.recvInSecond r true s2 d, []) := by
    intro j d
    simp only [Endpoint.packet, he.ctl]
  induction k using Nat.strong_induction_on generalizing f with
  | _ k ih =>
      refine until_of_own trivial (.inl ⟨_, .deliver rfl (hpacket ⟨[], []⟩ _)⟩) ?_ ?_
      · intro J h
        rcases own_busy hctl h with ⟨-, hv, -⟩ | ⟨d, v, j, p, hv, hp, rfl⟩
        · cases hv
        · cases hv
          cases hp.symm.trans (hpacket j d)
          exact leads_of_drain hq hthen (he.ackSecond hd) hf
      · intro J h
        rcases hq.own hf h with ⟨i, f', hi, hf', rfl⟩ | ⟨f', d, hf', -⟩
        · exact ih i hi hf'
        · exact hf'.elim

/-- Both acknowledgements are on their way. -/
theorem leads_of_first (he : Pairing e T.x T.chunk (.udpsendFirst r false s2) T.a T.b T.φ)
    (hd : AcksHalf T.φ.sendTempSeq d) (hd' : AcksHalf (T.φ.sendTempSeq + 1) d') {k : Nat}
    (hf : F k f) : Leads A P ⟨e, f, [], [d, d']⟩ := by
  have hctl : e.ctl ≠ .idle := by simp [he.ctl]
  have hpacket : ∀ j d, e.packet A j d = some (e.recvInFirst r false s2 d, []) := by
    intro j d
    simp only [Endpoint.packet, he.ctl]
  induction k using Nat.strong_induction_on generalizing f with
  | _ k ih =>
      refine until_of_own trivial (.inl ⟨_, .deliver rfl (hpacket ⟨[], []⟩ _)⟩) ?_ ?_
      · intro J h
        rcases own_busy hctl h with ⟨-, hv, -⟩ | ⟨d, v, j, p, hv, hp, rfl⟩
        · cases hv
        · cases hv
          cases hp.symm.trans (hpacket j d)
          exact leads_of_second hq hthen (he.ackFirst hd) hd' hf
      · intro J h
        rcases hq.own hf h with ⟨i, f', hi, hf', rfl⟩ | ⟨f', d, hf', -⟩
        · exact ih i hi hf'
        · exact hf'.elim

end Back

/-! ### To the receiver -/

/-- With its pair on the way the sender stays. -/
theorem sender_stays {J : Joint π} {w : List Datagram}
    (he : Pairing e T.x T.chunk (.udpsendFirst 0 false false) T.a T.b T.φ) :
    ¬ Own A ⟨e, f, d :: w, []⟩ J := by
  intro h
  rcases own_busy (by simp [he.ctl]) h with ⟨hw, -⟩ | ⟨d, v, j, p, hv, -⟩
  · cases hw
  · cases hv

section Forth

variable (hcalls : T.Calls A)
  (hback : ∀ e f d d', Pairing e T.x T.chunk (.udpsendFirst 0 false false) T.a T.b T.φ →
    AcksHalf T.φ.sendTempSeq d → AcksHalf (T.φ.sendTempSeq + 1) d' →
    Placed f (T.y' A) .idle T.b T.a T.ψ' → Leads A P ⟨e, f, [], [d, d']⟩)

include hcalls hback

theorem leads_of_halfway (he : Pairing e T.x T.chunk (.udpsendFirst 0 false false) T.a T.b T.φ)
    (hf : Halfway f T.y e.mem.sendmsg T.b T.a T.ψ) :
    Leads A P ⟨e, f, [.whole e.mem.sendmsg2 .pair], []⟩ := by
  have hpacket : ∀ j d, f.packet A j d = some (f.recvInPairSecond A j sizeofUdppacket d) := by
    intro j d
    simp only [Endpoint.packet, hf.ctl]
  refine until_of_own trivial (.inr ⟨_, .deliver rfl (hpacket ⟨[], []⟩ _)⟩) ?_ ?_
  · intro J h
    exact absurd h (sender_stays he)
  · intro J h
    rcases own_busy (by simp [hf.ctl]) h with ⟨-, hv, -⟩ | ⟨d, v, j, p, hv, hp, rfl⟩
    · cases hv
    · cases hv
      cases hp.symm.trans (hpacket j _)
      obtain ⟨hf', d, d', hd, hd', hout⟩ := hf.readHalf (A := A) j
        (he.first.trans hcalls.agree.symm) (he.second.trans (by rw [hcalls.agree]))
      rw [he.halves] at hf'
      rw [hout]
      rw [hcalls.agree] at hd hd'
      exact hback _ _ _ _ he hd hd' hf'

theorem leads_of_pair (he : Pairing e T.x T.chunk (.udpsendFirst 0 false false) T.a T.b T.φ)
    (hf : Resting A f T.y T.b T.a T.ψ) : Leads A P ⟨e, f, e.mem.pair, []⟩ := by
  have hwaits : ∀ f, Placed f T.y .udprecvFirst T.b T.a T.ψ → Leads A P ⟨e, f, e.mem.pair, []⟩ := by
    intro f hf
    have hpacket : ∀ j d, f.packet A j d = some (f.recvInPairFirst d, []) := by
      intro j d
      simp only [Endpoint.packet, hf.ctl]
    refine until_of_own trivial (.inr ⟨_, .deliver rfl (hpacket ⟨[], []⟩ _)⟩) ?_ ?_
    · intro J h
      exact absurd h (sender_stays he)
    · intro J h
      rcases own_busy (by simp [hf.ctl]) h with ⟨-, hv, -⟩ | ⟨d, v, j, p, hv, hp, rfl⟩
      · cases hv
      · cases hv
        cases hp.symm.trans (hpacket j _)
        exact leads_of_halfway hcalls hback he (hf.readHalf _)
  cases hf with
  | takesPairs _ hf => exact hwaits f hf
  | listens hcall _ => cases hcall.symm.trans hcalls.takes
  | idle hf =>
      have hcall : A.call f.app = some .udprecv := hf.app.symm ▸ hcalls.takes
      refine until_of_own trivial (.inr ⟨_, (own_idle hf.ctl).2 ⟨_, hcall, rfl⟩⟩) ?_ ?_
      · intro J h
        exact absurd h (sender_stays he)
      · intro J h
        obtain ⟨c, hc, rfl⟩ := (own_idle hf.ctl).1 h
        cases hcall.symm.trans hc
        exact hwaits _ (hf.takePairs (A := A))

theorem leads_of_due (he : Placed e T.x .idle T.a T.b T.φ) (hf : Resting A f T.y T.b T.a T.ψ) :
    Leads A P ⟨e, f, [], []⟩ := by
  have hcall : A.call e.app = some (.udpsend T.chunk) := he.app.symm ▸ hcalls.sends
  have hgo : ∀ f, ∃ J, Own A ⟨e, f, [], []⟩ J := fun f =>
    ⟨_, (own_idle he.ctl).2 ⟨_, hcall, rfl⟩⟩
  have hsend : ∀ f, Resting A f T.y T.b T.a T.ψ → ∀ J, Own A ⟨e, f, [], []⟩ J → Leads A P J := by
    intro f hf J h
    obtain ⟨c, hc, rfl⟩ := (own_idle he.ctl).1 h
    cases hcall.symm.trans hc
    obtain ⟨he', hpair⟩ := he.sendPair (A := A) T.chunk
    change Leads A P ⟨(e.begin A (.udpsend T.chunk)).1, f, (e.begin A (.udpsend T.chunk)).2, []⟩
    rw [hpair]
    exact leads_of_pair hcalls hback he' hf
  refine until_of_own trivial (.inl (hgo f)) (hsend f hf) ?_
  intro J h
  -- a receiver that waits has nothing to take
  cases hf with
  | idle hf =>
      obtain ⟨c, hc, rfl⟩ := (own_idle hf.ctl).1 h
      cases hc.symm.trans (hf.app.symm ▸ hcalls.takes)
      have hf' := Resting.takesPairs hcalls.takes (hf.takePairs (A := A))
      refine until_of_own trivial (.inl (hgo _)) (hsend _ hf') ?_
      intro J h
      rcases own_busy (by simp [Endpoint.begin]) h with ⟨-, -, p, hp, -⟩ | ⟨d, v, j, p, hv, -⟩
      · cases hp
      · cases hv
  | listens hcall _ => cases hcall.symm.trans hcalls.takes
  | takesPairs _ hf =>
      rcases own_busy (by simp [hf.ctl]) h with ⟨-, -, p, hp, -⟩ | ⟨d, v, j, p, hv, -⟩
      · simp [Endpoint.timeout, hf.ctl] at hp
      · cases hv

end Forth

/-- The rule for a chunk: it arrives whole, and both calls return. -/
theorem leads (hcalls : T.Calls A) (hq : Quiet A F fun _ => False)
    (hF : ∀ f, Placed f (T.y' A) .idle T.b T.a T.ψ' → ∃ k, F k f)
    (hthen : ∀ e f, Placed e (T.x' A) .idle T.a T.b T.φ' → (∃ k, F k f) → Leads A P ⟨e, f, [], []⟩)
    (he : Placed e T.x .idle T.a T.b T.φ) (hf : Resting A f T.y T.b T.a T.ψ) :
    Leads A P ⟨e, f, [], []⟩ := by
  refine leads_of_due hcalls ?_ he hf
  intro e f d d' he hd hd' hf
  obtain ⟨k, hk⟩ := hF f hf
  exact leads_of_first hq hthen he hd hd' hk

end PairExchange
end Assign3
end FileTransfer
