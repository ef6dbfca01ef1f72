import FileTransfer.Lib.Run
import Mathlib.Tactic.Ring
import FileTransfer.Sample3.EndpointSpec

/-!
# A stream of datagrams at the receiver

One call of `sock_recvfrom` in data mode, and the datagrams that arrive while it lasts.  Each request
packet has an absolute index, of which the wire carries five bits; the call sees the number alone.
`Stream` records every datagram with the packets sent in answer, in the order of arrival.
-/

namespace FileTransfer
namespace Sample3

/-- A datagram that arrives.  `index` is the absolute index of a request packet. -/
structure Incoming where
  index : Int
  d : Datagram

/-- What became of a datagram. -/
structure Record where
  arrival : Incoming
  replies : List Datagram
  accepted : Bool

/-- The datagrams whose payload was handed over, in order. -/
def accepted (rs : List Record) : List Incoming := (rs.filter (·.accepted)).map (·.arrival)

/-- Their payloads, one after the other. -/
def payloads (rs : List Record) : List Byte := (accepted rs).flatMap fun a => a.d.pkt.data.bytes

/-- An endpoint and the datagrams it has taken in. -/
structure Stream (π : Type*) where
  e : Endpoint π
  records : List Record

/-- `lib_recvfrom` returns a packet, or times out. -/
def Stream.step {π : Type*} (A : App π) (s : Stream π) : Option Incoming → Option (Stream π)
  | none => (s.e.timeout A .reliable).map fun p => { s with e := p.1 }
  | some a => (s.e.packet A .reliable a.d).map fun p =>
      { e := p.1
        records := s.records ++
          [⟨a, p.2, decide (Event.handed a.d ∈ p.1.log.drop s.e.log.length)⟩] }

/-- The absolute index the receiver expects when it has accepted the packets in `rs`. -/
def expected (start : Int) (rs : List Record) : Int := start + (accepted rs).length

/-- A request packet carries its index modulo 32, and lies less than 32 away from the one expected. -/
def InWindow {π : Type*} (start : Int) (s : Stream π) : Option Incoming → Prop
  | none => True
  | some a => a.d.pkt.ackType = .request →
      (a.d.pkt.seq.val : Int) = a.index % 32 ∧
        -32 < a.index - expected start s.records ∧ a.index - expected start s.records < 32

/-- One answer, of this type and with this number. -/
def IsAnswer (type : AckType) (n : Int) (out : List Datagram) : Prop :=
  ∃ x, out = [x] ∧ x.pkt.ackType = type ∧ (x.pkt.seq.val : Int) = n

/-- What becomes of a datagram that arrives where the index `next` is expected. -/
structure Record.Right (next : Int) (r : Record) : Prop where
  /-- the packet accepted is the one expected, and it gets one `ACKTYPE_ACK` with its number -/
  ack : r.accepted = true → r.arrival.d.pkt.ackType = .request ∧ r.arrival.index = next ∧
    IsAnswer .ack r.arrival.d.pkt.seq.val r.replies
  /-- every other request packet gets one `ACKTYPE_NACK` with the number expected -/
  nack : r.accepted = false → r.arrival.d.pkt.ackType = .request →
    r.arrival.index ≠ next ∧ IsAnswer .nack (next % 32) r.replies
  /-- no other packet is answered with either -/
  control : r.arrival.d.pkt.ackType ≠ .request → r.accepted = false ∧
    ∀ x ∈ r.replies, x.pkt.ackType ≠ .ack ∧ x.pkt.ackType ≠ .nack

/-- The call is still waiting with the bytes `buf` in the buffer, or has returned with them. -/
def Endpoint.Holds {π : Type*} (A : App π) (L : Int) (buf : List Byte) (e : Endpoint π) : Prop :=
  (∃ left, 0 < left ∧ left = L - buf.length ∧ e.ctl = .sockRecvfrom left buf .program) ∨
    ((buf.length : Int) = L ∧ ∃ e' : Endpoint π, e = e'.finish A (.received 0 buf))

section

variable {π : Type*} {A : App π} {e : Endpoint π} {left : Int} {got : List Byte} {k : RecvCaller}

/-- `sock_recvfrom` takes a datagram in, with a `lib_sendto` that works. -/
theorem recvInData_reliable (e : Endpoint π) (left : Int) (got : List Byte) (k : RecvCaller)
    (d : Datagram) :
    let t := e.lib.syncLastSeq d.pkt
    let log := e.log ++ if e.lib.lastSeq = -1 then [Event.synced d] else []
    (d.pkt.ackType = .request ∧ d.pkt.seq = seqField (t.lastSeq + 1) ∧
        e.recvInData A .reliable left got k d =
          (({ e with
              lib := { t with lastSeq := UInt32.ofNat d.pkt.seq.val }
              log := log ++ [.acked d, .handed d] } : Endpoint π).recvLoop A (left - bufferLength)
                (got ++ d.pkt.data.bytes.take (min left bufferLength).toNat) k,
            [SockLib.ackPacket (t.lastSeq + 1) .ack])) ∨
      (d.pkt.ackType = .request ∧ d.pkt.seq ≠ seqField (t.lastSeq + 1) ∧
        e.recvInData A .reliable left got k d =
          (({ e with lib := t, log := log } : Endpoint π).recvLoop A left got k,
            [SockLib.ackPacket (t.lastSeq + 1) .nack])) ∨
      (d.pkt.ackType = .handshake ∧
        e.recvInData A .reliable left got k d = (e.recvLoop A left got k, [e.lib.handshakeAck])) ∨
      (d.pkt.ackType ≠ .request ∧ d.pkt.ackType ≠ .handshake ∧
        ∃ out, e.recvInData A .reliable left got k d =
            (({ e with lib := t, log := log } : Endpoint π).recvLoop A left got k, out) ∧
          ∀ x ∈ out, x.pkt.ackType = .sack) := by
  dsimp only
  have hsend : ∀ a : Datagram, (libSendto .reliable [] a).1 = [a] := fun a => rfl
  by_cases hhs : d.pkt.ackType = .handshake
  · exact Or.inr (Or.inr (Or.inl ⟨hhs, by simp [Endpoint.recvInData, hhs, hsend]⟩))
  · -- as in `recvInData_cases`, with an answer that always arrives at the socket
    rcases SockLib.chkSeqEx_cases e.lib d.pkt with
      ⟨hreq, hseq, hchk⟩ | ⟨hreq, hseq, hchk⟩ | ⟨hsack, hchk⟩ | ⟨hreq, -, hchk⟩
    · exact Or.inl ⟨hreq, hseq.symm, by simp [Endpoint.recvInData, hhs, hchk, hsend]⟩
    · exact Or.inr (Or.inl ⟨hreq, Ne.symm hseq, by simp [Endpoint.recvInData, hhs, hchk, hsend]⟩)
    · refine Or.inr (Or.inr (Or.inr ⟨by rw [hsack]; simp, hhs,
        [SockLib.ackPacket ((e.lib.syncLastSeq d.pkt).lastSeq + 1) .sack], ?_, ?_⟩))
      · simp [Endpoint.recvInData, hhs, hchk, hsend]
      · intro x hx
        rw [List.mem_singleton.1 hx]
        rfl
    · exact Or.inr (Or.inr (Or.inr ⟨hreq, hhs, [],
        by simp [Endpoint.recvInData, hhs, hchk], by simp⟩))

/-- `recvLoop` of a call that is not finished goes back to the wait. -/
theorem recvLoop_pos (h : 0 < left) (e : Endpoint π) :
    e.recvLoop A left got k = { e with ctl := .sockRecvfrom left got k } := by
  simp [Endpoint.recvLoop, h]

/-! ## The records -/

theorem accepted_snoc (rs : List Record) (r : Record) :
    accepted (rs ++ [r]) = accepted rs ++ if r.accepted then [r.arrival] else [] := by
  cases hr : r.accepted <;> simp [accepted, hr]

theorem expected_snoc (start : Int) (rs : List Record) (r : Record) :
    expected start (rs ++ [r]) = expected start rs + if r.accepted then 1 else 0 := by
  unfold expected
  rw [accepted_snoc]
  cases r.accepted
  · simp
  · simp only [if_true, List.length_append, List.length_singleton]
    omega

theorem payloads_snoc (rs : List Record) (r : Record) :
    payloads (rs ++ [r]) = payloads rs ++ if r.accepted then r.arrival.d.pkt.data.bytes else [] := by
  unfold payloads
  rw [accepted_snoc]
  cases r.accepted <;> simp

/-- The records of a stream are right when the old ones are and the last one is. -/
theorem right_snoc {start : Int} {rs : List Record} {r : Record}
    (hrs : ∀ pre r post, rs = pre ++ r :: post → r.Right (expected start pre))
    (hr : r.Right (expected start rs)) :
    ∀ pre r' post, rs ++ [r] = pre ++ r' :: post → r'.Right (expected start pre) := by
  intro pre r' post heq
  rcases List.eq_nil_or_concat post with rfl | ⟨post', x, rfl⟩
  · -- the record asked for is the last one
    obtain ⟨rfl, hlast⟩ := List.append_inj' heq rfl
    cases hlast
    exact hr
  · have hsplit : rs ++ [r] = (pre ++ r' :: post') ++ [x] := by simpa using heq
    exact hrs pre r' post' (List.append_inj' hsplit rfl).1

/-! ## One datagram -/

/-- What holds at every point of the call. -/
structure StreamInv (A : App π) (L start : Int) (s : Stream π) : Prop where
  lastSeq : s.e.lib.lastSeq.toNat < 32
  next : ((s.e.lib.lastSeq.toNat : Int) + 1) % 32 = expected start s.records % 32
  indices : (accepted s.records).map (·.index) =
    (List.range (accepted s.records).length).map fun i : Nat => start + i
  right : ∀ pre r post, s.records = pre ++ r :: post → r.Right (expected start pre)
  holds : s.e.Holds A L ((payloads s.records).take L.toNat)

theorem lastSeq_set {s : SockLib} (h : s.lastSeq.toNat < 32) : s.lastSeq ≠ -1 := by
  intro hunset
  rw [hunset] at h
  exact absurd h (by decide)

/-- A record that accepts nothing and leaves the endpoint as it was. -/
theorem StreamInv.refused {L start : Int} {s : Stream π} {r : Record} (h : StreamInv A L start s)
    (hr : r.accepted = false) (hright : r.Right (expected start s.records)) :
    StreamInv A L start { s with records := s.records ++ [r] } := by
  have hacc : accepted (s.records ++ [r]) = accepted s.records := by
    rw [accepted_snoc, hr]
    simp
  have hpay : payloads (s.records ++ [r]) = payloads s.records := by
    rw [payloads_snoc, hr]
    simp
  have hexp : expected start (s.records ++ [r]) = expected start s.records := by
    unfold expected
    rw [hacc]
  constructor
  · exact h.lastSeq
  · rw [hexp]
    exact h.next
  · simp only [hacc]
    exact h.indices
  · exact right_snoc h.right hright
  · rw [hpay]
    exact h.holds

/-- The number of a request in the window is the expected one just when its index is. -/
theorem inWindow_seq {s : Stream π} {L start : Int} {a : Incoming} (h : StreamInv A L start s)
    (hwin : InWindow start s (some a)) (hreq : a.d.pkt.ackType = .request) :
    a.d.pkt.seq = seqField (s.e.lib.lastSeq + 1) ↔ a.index = expected start s.records := by
  obtain ⟨hnum, hlow, hhigh⟩ := hwin hreq
  have hnext := h.next
  have hfield := seqField_add_one s.e.lib.lastSeq
  constructor
  · intro heq
    rw [← heq] at hfield
    omega
  · intro heq
    apply Fin.ext
    rw [hfield]
    omega

/-- The answer of `chk_seqEx` carries the number expected. -/
theorem StreamInv.isAnswer {s : Stream π} {L start : Int} (h : StreamInv A L start s)
    (type : AckType) :
    IsAnswer type (expected start s.records % 32)
      [SockLib.ackPacket (s.e.lib.lastSeq + 1) type] := by
  refine ⟨_, rfl, rfl, ?_⟩
  rw [SockLib.ackPacket_seq, seqField_add_one, ← h.next]
  omega

/-- The buffer after one more packet. -/
theorem take_payload {p b : List Byte} {L : Int} (hp : (p.length : Int) ≤ L)
    (hb : b.length = bufferLength) :
    (p ++ b).take L.toNat = p ++ b.take (min (L - p.length) bufferLength).toNat := by
  rw [List.take_append, List.take_of_length_le (by omega)]
  congr 1
  by_cases hfull : L - p.length < bufferLength
  · congr 1
    omega
  · -- the whole data field fits
    rw [List.take_of_length_le (by omega), List.take_of_length_le (by omega)]

/-- The buffer with one more packet is full, or the call waits on. -/
theorem holds_recvLoop {L : Int} {p b : List Byte} (e : Endpoint π) (hpos : 0 < L - p.length)
    (hb : b.length = bufferLength) :
    (e.recvLoop A (L - p.length - bufferLength)
      (p ++ b.take (min (L - p.length) bufferLength).toNat) .program).Holds A L
      ((p ++ b).take L.toNat) := by
  rw [take_payload (by omega) hb]
  have hpiece : (p ++ b.take (min (L - p.length) bufferLength).toNat).length =
      p.length + (min (L - p.length) bufferLength).toNat := by
    rw [List.length_append, List.length_take]
    omega
  unfold Endpoint.recvLoop
  split
  · exact Or.inl ⟨_, by assumption, by rw [hpiece]; omega, rfl⟩
  · exact Or.inr ⟨by rw [hpiece]; omega, _, rfl⟩

/-- The packet expected is accepted and acknowledged. -/
theorem StreamInv.accept {L start : Int} {e e' : Endpoint π} {records : List Record} {a : Incoming}
    {out : List Datagram} (h : StreamInv A L start ⟨e, records⟩)
    (hwin : InWindow start ⟨e, records⟩ (some a)) (hreq : a.d.pkt.ackType = .request)
    (hseq : a.d.pkt.seq = seqField (e.lib.lastSeq + 1))
    (hlast : e'.lib.lastSeq.toNat = a.d.pkt.seq.val)
    (hholds : e'.Holds A L ((payloads records ++ a.d.pkt.data.bytes).take L.toNat))
    (hout : out = [SockLib.ackPacket (e.lib.lastSeq + 1) .ack]) :
    StreamInv A L start ⟨e', records ++ [⟨a, out, true⟩]⟩ := by
  have hindex : a.index = expected start records := (inWindow_seq h hwin hreq).1 hseq
  have hacc : accepted (records ++ [⟨a, out, true⟩]) = accepted records ++ [a] :=
    accepted_snoc records ⟨a, out, true⟩
  have hexp : expected start (records ++ [⟨a, out, true⟩]) = expected start records + 1 :=
    expected_snoc start records ⟨a, out, true⟩
  have hpay : payloads (records ++ [⟨a, out, true⟩]) = payloads records ++ a.d.pkt.data.bytes :=
    payloads_snoc records ⟨a, out, true⟩
  obtain ⟨hnum, -, -⟩ := hwin hreq
  constructor
  · rw [hlast]
    exact a.d.pkt.seq.isLt
  · rw [hlast, hexp, hnum, hindex]
    omega
  · simp only [hacc, List.map_append, List.map_cons, List.map_nil, List.length_append,
      List.length_singleton, List.range_succ, h.indices]
    rw [hindex]
    rfl
  · refine right_snoc h.right ⟨fun _ => ⟨hreq, hindex, ?_⟩, by simp, fun hn => absurd hreq hn⟩
    refine ⟨_, hout, rfl, ?_⟩
    rw [SockLib.ackPacket_seq, hseq]
  · rw [hpay]
    exact hholds

/-- A datagram arrives while the call waits. -/
theorem streamInv_arrival {L start : Int} {s s' : Stream π} {a : Incoming}
    (h : StreamInv A L start s) (hwin : InWindow start s (some a))
    (hstep : s.step A (some a) = some s') : StreamInv A L start s' := by
  have hset := lastSeq_set h.lastSeq
  obtain ⟨e, records⟩ := s
  obtain ⟨⟨e', out⟩, hpacket, rfl⟩ := Option.map_eq_some_iff.1 hstep
  rcases h.holds with ⟨left, hpos, hleft, hctl⟩ | ⟨-, e₀, he₀⟩
  swap
  · -- a call that has returned takes nothing in
    dsimp only at he₀
    rw [he₀] at hpacket
    cases hpacket
  dsimp only at hctl hleft hset
  have hbuf : (payloads records).take L.toNat = payloads records := by
    refine List.take_of_length_le ?_
    rw [List.length_take] at hleft
    omega
  rw [hbuf] at hctl hleft
  have hsame : ({ e with ctl := .sockRecvfrom left (payloads records) .program } : Endpoint π) = e := by
    rw [← hctl]
  have hrecv : e.recvInData A .reliable left (payloads records) .program a.d = (e', out) := by
    simpa only [Endpoint.packet, hctl, Option.some.injEq] using hpacket
  -- a packet that is refused leaves the endpoint at the wait it came from
  have hrefused : e' = e.recvLoop A left (payloads records) .program →
      Record.Right (expected start records) ⟨a, out, false⟩ →
      StreamInv A L start ⟨e', records ++
        [⟨a, out, decide (Event.handed a.d ∈ e'.log.drop e.log.length)⟩]⟩ := by
    intro hloop hright
    rw [recvLoop_pos hpos, hsame] at hloop
    rw [hloop, List.drop_length]
    exact h.refused rfl hright
  have hcases := recvInData_reliable (A := A) e left (payloads records) .program a.d
  simp only [hrecv, SockLib.syncLastSeq_of_ne hset, hset, if_false, List.append_nil,
    Prod.mk.injEq] at hcases
  rcases hcases with ⟨hreq, hseq, he', hout⟩ | ⟨hreq, hseq, he', hout⟩ | ⟨hhs, he', hout⟩ |
    ⟨hreq, -, _, ⟨he', rfl⟩, hout⟩
  · -- the packet expected
    set e₁ : Endpoint π := { e with
      lib := { e.lib with lastSeq := UInt32.ofNat a.d.pkt.seq.val }
      log := e.log ++ [.acked a.d, .handed a.d] } with he₁
    have hmoves : Endpoint.Moves A e₁ e' := he' ▸ Endpoint.moves_recvLoop _ _ _
    have hhanded : Event.handed a.d ∈ e'.log.drop e.log.length := by
      obtain ⟨rest, hrest⟩ := hmoves.log_grows
      have hlog : e'.log = e.log ++ ([.acked a.d, .handed a.d] ++ rest) := by
        rw [← hrest, he₁]
        simp
      rw [hlog, List.drop_left]
      simp
    rw [decide_eq_true hhanded]
    refine h.accept hwin hreq hseq ?_ ?_ hout
    · rw [hmoves.lib]
      exact toNat_ofNat_seq _
    · rw [he', hleft]
      exact holds_recvLoop e₁ (hleft ▸ hpos) a.d.pkt.data.length_eq
  -- another number, a handshake packet, or no request
  · refine hrefused he' ⟨by simp, fun _ _ => ⟨?_, ?_⟩,
      fun hn => absurd hreq hn⟩
    · intro hindex
      exact hseq ((inWindow_seq h hwin hreq).2 hindex)
    · rw [hout]
      exact h.isAnswer .nack
  · refine hrefused he' ⟨by simp, fun _ hr => ?_, fun _ => ⟨rfl, ?_⟩⟩
    · rw [hhs] at hr
      cases hr
    · intro x hx
      rw [hout] at hx
      rw [List.mem_singleton.1 hx]
      simp [SockLib.handshakeAck, UdpPacket.zero]
  · refine hrefused he' ⟨by simp, fun _ hr => absurd hr hreq, fun _ => ⟨rfl, ?_⟩⟩
    intro x hx
    rw [hout x hx]
    simp

theorem streamInv_step {L start : Int} {s s' : Stream π} {ev : Option Incoming}
    (h : StreamInv A L start s) (hwin : InWindow start s ev) (hstep : s.step A ev = some s') :
    StreamInv A L start s' := by
  cases ev with
  | some a => exact streamInv_arrival h hwin hstep
  | none =>
      obtain ⟨p, htime, rfl⟩ := Option.map_eq_some_iff.1 hstep
      have hholds := h.holds
      rcases h.holds with ⟨left, hpos, -, hctl⟩ | ⟨-, e₀, he₀⟩
      · -- the call goes back to the same wait
        have hp : p.1 = s.e := by
          simp only [Endpoint.timeout, hctl, Option.some.injEq] at htime
          rw [← htime, recvLoop_pos hpos, ← hctl]
        exact ⟨by rw [hp]; exact h.lastSeq, by rw [hp]; exact h.next, h.indices, h.right,
          by rw [hp]; exact hholds⟩
      · rw [he₀] at htime
        cases htime

end

/-! ## The whole stream -/

/-- While `sock_recvfrom` is called for `L` bytes, the packets it accepts have consecutive indices from
the expected one on, each datagram is answered rightly, `lastSeq` stays a sequence number, and the
buffer holds the first `L` bytes of the payloads accepted. -/
theorem stream_accepted {π : Type*} (A : App π) (e : Endpoint π) (L start : Int)
    (arrivals : List (Option Incoming)) (s : Stream π) (hctl : e.ctl = .sockRecvfrom L [] .program)
    (hL : 1 ≤ L) (hseq : e.lib.lastSeq.toNat < 32)
    (hstart : start % 32 = ((e.lib.lastSeq.toNat : Int) + 1) % 32)
    (hrun : Run (Stream.step A) (InWindow start) ⟨e, []⟩ arrivals s) :
    (accepted s.records).map (·.index) =
        ((List.range (accepted s.records).length).map fun i : Nat => start + i) ∧
      (∀ pre r post, s.records = pre ++ r :: post → r.Right (expected start pre)) ∧
      s.e.lib.lastSeq.toNat < 32 ∧
      s.e.Holds A L ((payloads s.records).take L.toNat) := by
  have hinit : StreamInv A L start ⟨e, []⟩ := by
    refine ⟨hseq, ?_, rfl, by simp, Or.inl ⟨L, by omega, by simp [payloads, accepted], ?_⟩⟩
    · simp only [expected, accepted, List.filter_nil, List.map_nil, List.length_nil]
      omega
    · simpa [payloads, accepted] using hctl
  have hinv := hrun.invariant (fun _ _ _ hi hw hs => streamInv_step hi hw hs) hinit
  exact ⟨hinv.indices, hinv.right, hinv.lastSeq, hinv.holds⟩

/-- A program that calls nothing more. -/
def noCalls : App Unit where
  call _ := none
  resume u _ := u

/-- A receiver that waits in `sock_recvfrom`. -/
def waitsFor (lastSeq : UInt32) (left : Int) : Endpoint Unit where
  lib := { SockLib.zero with lastSeq := lastSeq, wSize := 4 }
  ctl := .sockRecvfrom left [] .program
  app := ()
  log := []

/-- A request packet with this index. -/
def requestIncoming (index : Int) (l : List Byte) : Incoming :=
  ⟨index, ⟨⟨⟨(index % 32).toNat % 32, Nat.mod_lt _ (by decide)⟩, .request, .ofBytes l⟩, .window⟩⟩

instance {π : Type*} (start : Int) (s : Stream π) (ev : Option Incoming) :
    Decidable (InWindow start s ev) :=
  match ev with
  | none => inferInstanceAs (Decidable True)
  | some a => inferInstanceAs (Decidable (a.d.pkt.ackType = .request →
      (a.d.pkt.seq.val : Int) = a.index % 32 ∧
        -32 < a.index - expected start s.records ∧ a.index - expected start s.records < 32))

/-- A packet too early, a leftover acknowledgement and a timeout around the wrap from 31 to 0. -/
def wrapArrivals : List (Option Incoming) :=
  [some (requestIncoming 64 [1]), some ⟨0, SockLib.ackPacket 7 .ack⟩, some (requestIncoming 63 [2]), none,
    some (requestIncoming 63 [2]), some (requestIncoming 64 [3])]

theorem stream_accepted_wrap :
    ∃ s, Run (Stream.step noCalls) (InWindow 63) ⟨waitsFor 30 1025, []⟩ wrapArrivals s ∧
      (accepted s.records).map (·.index) = [63, 64] ∧ s.e.lib.lastSeq.toNat < 32 ∧
      s.e.Holds noCalls 1025 ((payloads s.records).take 1025) := by
  have hexec : ∃ s, Run (Stream.step noCalls) (InWindow 63) ⟨waitsFor 30 1025, []⟩ wrapArrivals s ∧
      (accepted s.records).length = 2 := exists_run_of_exec (by decide +kernel)
  obtain ⟨s, hrun, hlen⟩ := hexec
  have h := stream_accepted noCalls (waitsFor 30 1025) 1025 63 wrapArrivals s rfl (by decide)
    (by decide) (by decide) hrun
  refine ⟨s, hrun, ?_, h.2.2⟩
  rw [h.1, hlen]
  rfl

/-! ## The first packet after `udp_init` -/

/-- The receiver takes the datagrams in one after the other. -/
def Endpoint.takeIn {π : Type*} (A : App π) : Endpoint π → List Datagram → Option (Endpoint π) :=
  exec fun e d => (e.packet A .reliable d).map Prod.fst

/-- The request packet `d` is accepted next, and the number after its own is expected then. -/
def Endpoint.Accepts {π : Type*} (A : App π) (e : Endpoint π) (d : Datagram) : Prop :=
  ∃ p, e.packet A .reliable d = some p ∧ Event.handed d ∈ p.1.log.drop e.log.length ∧
    seqField (p.1.lib.lastSeq + 1) = d.pkt.seq + 1

section

variable {π : Type*} {A : App π} {e : Endpoint π} {left : Int} {got : List Byte} {k : RecvCaller}

theorem seqField_ofNat_succ (n : SeqNum) : seqField (UInt32.ofNat n.val + 1) = n + 1 := by
  apply Fin.ext
  rw [seqField_add_one, toNat_ofNat_seq, Fin.val_add]
  rfl

/-- `sock_recvfrom` drops an acknowledgement, but an unset `lastSeq` is taken from it. -/
theorem packet_control (hctl : e.ctl = .sockRecvfrom left got k) (hleft : 0 < left) {c : Datagram}
    (hc : c.pkt.ackType = .ack ∨ c.pkt.ackType = .nack) :
    ∃ e', e.packet A .reliable c = some (e', []) ∧ e'.ctl = e.ctl ∧
      e'.lib = e.lib.syncLastSeq c.pkt := by
  have hchk : e.lib.chkSeqEx c.pkt = (e.lib.syncLastSeq c.pkt, none, false) := by
    rcases hc with hc | hc <;> simp [SockLib.chkSeqEx, hc]
  have hhs : c.pkt.ackType ≠ .handshake := by
    rcases hc with hc | hc <;> simp [hc]
  have hpacket : e.packet A .reliable c =
      some ((({ e with
        lib := e.lib.syncLastSeq c.pkt
        log := e.log ++ if e.lib.lastSeq = -1 then [Event.synced c] else [] } :
          Endpoint π).recvLoop A left got k), []) := by
    simp [Endpoint.packet, hctl, Endpoint.recvInData, hhs, hchk]
  refine ⟨_, hpacket, ?_, ?_⟩
  · rw [recvLoop_pos hleft, hctl]
  · rw [recvLoop_pos hleft]

/-- Once `lastSeq` is set, acknowledgements change nothing. -/
theorem takeIn_controls (hctl : e.ctl = .sockRecvfrom left got k) (hleft : 0 < left)
    (hset : e.lib.lastSeq ≠ -1) {cs : List Datagram}
    (hcs : ∀ c ∈ cs, c.pkt.ackType = .ack ∨ c.pkt.ackType = .nack) :
    ∃ e', e.takeIn A cs = some e' ∧ e'.ctl = e.ctl ∧ e'.lib = e.lib := by
  induction cs generalizing e with
  | nil => exact ⟨e, rfl, rfl, rfl⟩
  | cons c cs ih =>
      obtain ⟨e₁, hpacket, hctl₁, hlib₁⟩ := packet_control (A := A) hctl hleft (hcs c (by simp))
      rw [SockLib.syncLastSeq_of_ne hset] at hlib₁
      obtain ⟨e', htake, hctl', hlib'⟩ := ih (hctl₁.trans hctl) (by rw [hlib₁]; exact hset)
        fun x hx => hcs x (List.mem_cons_of_mem c hx)
      refine ⟨e', ?_, hctl'.trans hctl₁, hlib'.trans hlib₁⟩
      simpa [Endpoint.takeIn, exec, hpacket] using htake

/-- Which request packets are accepted. -/
theorem accepts_iff (hctl : e.ctl = .sockRecvfrom left got k) {d : Datagram}
    (hreq : d.pkt.ackType = .request) (hleft : 0 < left) :
    e.Accepts A d ↔ d.pkt.seq = seqField ((e.lib.syncLastSeq d.pkt).lastSeq + 1) := by
  have hpacket : e.packet A .reliable d = some (e.recvInData A .reliable left got k d) := by
    simp only [Endpoint.packet, hctl]
  rcases recvInData_reliable (A := A) e left got k d with
    ⟨-, hseq, hp⟩ | ⟨-, hseq, hp⟩ | ⟨hhs, -⟩ | ⟨hnot, -⟩
  · refine iff_of_true ⟨_, hpacket, ?_, ?_⟩ hseq
    · rw [hp]
      obtain ⟨rest, hrest⟩ := (Endpoint.moves_recvLoop (A := A) (e := { e with
        lib := { e.lib.syncLastSeq d.pkt with lastSeq := UInt32.ofNat d.pkt.seq.val }
        log := e.log ++ (if e.lib.lastSeq = -1 then [Event.synced d] else []) ++
          [.acked d, .handed d] }) (left - bufferLength)
        (got ++ d.pkt.data.bytes.take (min left bufferLength).toNat) k).log_grows
      dsimp only at hrest ⊢
      rw [← hrest, List.append_assoc, List.append_assoc, List.drop_left]
      simp
    · rw [hp]
      dsimp only
      rw [(Endpoint.moves_recvLoop _ _ _).lib]
      exact seqField_ofNat_succ _
  · refine iff_of_false ?_ hseq
    rintro ⟨p, hp', hmem, -⟩
    rw [hpacket, hp] at hp'
    cases hp'
    -- nothing but the synchronisation is added to the history
    rw [recvLoop_pos hleft] at hmem
    dsimp only at hmem
    rw [List.drop_left] at hmem
    split at hmem <;> simp at hmem
  · rw [hreq] at hhs
    cases hhs
  · exact absurd hreq hnot

/-- The first datagram that `sock_recvfrom` takes in with an unset `lastSeq` decides: a request packet
is accepted just when no acknowledgement comes before it, or the first one carries its number. -/
theorem synchronises_iff (A : App π) (e : Endpoint π) (left : Int) (got : List Byte) (k : RecvCaller)
    (hctl : e.ctl = .sockRecvfrom left got k) (hleft : 0 < left) (hunset : e.lib.lastSeq = -1)
    (cs : List Datagram) (hcs : ∀ c ∈ cs, c.pkt.ackType = .ack ∨ c.pkt.ackType = .nack)
    (d : Datagram) (hreq : d.pkt.ackType = .request) :
    (∃ e', e.takeIn A cs = some e' ∧ e'.Accepts A d) ↔ ∀ c ∈ cs.head?, c.pkt.seq = d.pkt.seq := by
  -- the first acknowledgement sets `last_seq`, and those after it change nothing
  cases cs with
  | nil =>
      refine iff_of_true ⟨e, rfl, (accepts_iff hctl hreq hleft).2 ?_⟩ (by simp)
      exact (SockLib.syncLastSeq_of_eq hunset).symm
  | cons c cs =>
      obtain ⟨e₁, hpacket, hctl₁, hlib₁⟩ := packet_control (A := A) hctl hleft (hcs c (by simp))
      have hnext : seqField (e₁.lib.lastSeq + 1) = c.pkt.seq := by
        rw [hlib₁]
        exact SockLib.syncLastSeq_of_eq hunset
      have hset : e₁.lib.lastSeq ≠ -1 := by
        rw [hlib₁]
        simp only [SockLib.syncLastSeq, hunset, if_true]
        exact ofNat_seq_ne _
      obtain ⟨e', htake, hctl', hlib'⟩ := takeIn_controls (A := A) (hctl₁.trans hctl) hleft hset
        fun x hx => hcs x (List.mem_cons_of_mem c hx)
      have htake' : e.takeIn A (c :: cs) = some e' := by
        simpa [Endpoint.takeIn, exec, hpacket] using htake
      have haccepts := accepts_iff (A := A) (hctl'.trans (hctl₁.trans hctl)) hreq hleft
      rw [hlib', SockLib.syncLastSeq_of_ne hset, hnext] at haccepts
      constructor
      · rintro ⟨e'', htake'', hacc⟩
        rw [htake'] at htake''
        cases htake''
        simpa using (haccepts.1 hacc).symm
      · intro hhead
        exact ⟨e', htake', haccepts.2 (hhead c rfl).symm⟩

end

/-- A leftover acknowledgement of packet 0 does no harm to packet 0. -/
theorem synchronises_iff_leftover :
    ∃ e', (waitsFor (-1) 8).takeIn noCalls [SockLib.ackPacket 0 .nack, SockLib.ackPacket 5 .ack] =
      some e' ∧ e'.Accepts noCalls (requestIncoming 0 [1]).d :=
  (synchronises_iff noCalls (waitsFor (-1) 8) 8 [] .program rfl (by decide) rfl _ (by decide) _ rfl).2
    (by decide)

/-- A leftover acknowledgement of packet 5, and the first packet of the response is refused. -/
theorem leftover_refused :
    ¬ ∃ e', (waitsFor (-1) 8).takeIn noCalls [SockLib.ackPacket 5 .ack] = some e' ∧
      e'.Accepts noCalls (requestIncoming 0 [1]).d := by
  rintro ⟨e', htake, hacc⟩
  have hctl : e'.ctl = .sockRecvfrom 8 [] .program ∧ e'.lib.lastSeq = 4 := by
    have hexec : (waitsFor (-1) 8).takeIn noCalls [SockLib.ackPacket 5 .ack] =
        some { waitsFor 4 8 with log := [.synced (SockLib.ackPacket 5 .ack)] } := rfl
    rw [hexec] at htake
    cases htake
    exact ⟨rfl, rfl⟩
  have hseq := (accepts_iff hctl.1 rfl (by decide)).1 hacc
  rw [SockLib.syncLastSeq_of_ne (by rw [hctl.2]; decide), hctl.2] at hseq
  exact absurd hseq (by decide)

end Sample3
end FileTransfer
