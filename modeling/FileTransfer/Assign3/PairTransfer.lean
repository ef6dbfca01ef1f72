import FileTransfer.Assign3.Endpoint
import Mathlib.Data.List.Basic

/-!
# The paired-packet protocol delivers chunks in order

`udpsend` splits a chunk into two halves with consecutive numbers, and `udprecv` joins the two packets
it reads when their numbers are the two it expects.  The network may lose, duplicate, delay and reorder
datagrams.  The invariant has three parts:

* every data packet ever sent carries the half that its number names, of a chunk passed to `udpsend`;
* an acknowledgement of a number is on the way only when the receiver has accepted that number;
* `slideid1` is set only by such an acknowledgement, and `udpsend` returns only after it was set.

The second half's acknowledgement and `slideid2` play no part in it.
-/

namespace FileTransfer
namespace Assign3

open Udp

/-! ## The two programs -/

/-- The loops around the calls: the sender has these chunks left, the receiver has got these and retries. -/
inductive Transfer where
  | sender (rest : List Buffer)
  | receiver (got : List Buffer)

def transferApp : App Transfer where
  call
    | .sender [] => none
    | .sender (c :: _) => some (.udpsend c)
    | .receiver _ => some .udprecv
  resume
    | .sender rest, .udpsend _ => .sender rest.tail
    | .receiver got, .udprecv (some chunk) => .receiver (got ++ [chunk])
    | x, _ => x

/-- The transfer of `chunks` from `s` to its peer begins: both sides have reset their pair numbers. -/
def transferStart (s : Side) (chunks : List Buffer) (mem : Side → Members) :
    Net (Endpoint Transfer) Datagram where
  node t :=
    if t = s then ⟨t, { mem t with sendTempSeq := 0 }, .idle, .sender chunks, .empty⟩
    else ⟨t, { mem t with recTempSeq := 0 }, .idle, .receiver [], .empty⟩
  wire _ := []

/-! ## Packets of a transfer -/

/-- The packet holds the half of the chunk `j` that its number names. -/
def IsHalf (chunks : List Buffer) (j : Nat) (p : Udppacket) : Prop :=
  ∃ c, chunks[j]? = some c ∧
    (p.seqNo = 2 * j ∧ p.data.bytes.take packetLength = c.bytes.take packetLength ∨
      p.seqNo = 2 * j + 1 ∧ p.data.bytes.take packetLength = c.bytes.drop packetLength)

/-- The packet acknowledges only numbers below `rec`. -/
def AcksBelow (rec : Int) (p : Udppacket) : Prop :=
  p.data.bytes.take 1 = ascii "A" → p.seqNo < rec

theorem AcksBelow.mono {rec rec' : Int} {p : Udppacket} (h : AcksBelow rec p) (hle : rec ≤ rec') :
    AcksBelow rec' p :=
  fun hA => Int.lt_of_lt_of_le (h hA) hle

theorem acknowledges_iff {p : Udppacket} {n : Int} :
    acknowledges p n = true ↔ p.data.bytes.take 1 = ascii "A" ∧ p.seqNo = n := by
  simp only [acknowledges, Bool.and_eq_true, decide_eq_true_eq]

theorem length_take_half (b : Buffer) : (b.bytes.take packetLength).length = packetLength := by
  rw [List.length_take, b.length_eq]
  rfl

theorem length_drop_half (b : Buffer) : (b.bytes.drop packetLength).length = packetLength := by
  rw [List.length_drop, b.length_eq]
  rfl

theorem take_fill (p : Udppacket) (n : Int) {l : List Byte} {k : Nat} (hl : k ≤ l.length)
    (hk : k ≤ bufferLength) : (Members.fill p n l).data.bytes.take k = l.take k :=
  Buffer.take_overlay _ hl hk

/-- A list of first chunks and the chunk behind them. -/
theorem snoc_prefix {l chunks : List Buffer} {c : Buffer} (h : l <+: chunks)
    (hc : chunks[l.length]? = some c) : l ++ [c] <+: chunks := by
  obtain ⟨rest, rfl⟩ := h
  rw [List.getElem?_append_right (Nat.le_refl _), Nat.sub_self, ← List.head?_eq_getElem?] at hc
  obtain ⟨tl, rfl⟩ := List.head?_eq_some_iff.1 hc
  exact ⟨tl, by simp⟩

/-- Two halves of one chunk make that chunk. -/
theorem joinHalves_eq {p q : Udppacket} {c : Buffer}
    (hp : p.data.bytes.take packetLength = c.bytes.take packetLength)
    (hq : q.data.bytes.take packetLength = c.bytes.drop packetLength) : joinHalves p q = c := by
  have hwhole : c.bytes.take packetLength ++ c.bytes.drop packetLength = c.bytes :=
    List.take_append_drop _ _
  rw [joinHalves, hp, hq, hwhole, Buffer.ofBytes_bytes]

/-- What the outer waits of `udpsend` see of a packet that was sent whole. -/
theorem acknowledges_readFirst {x : Members} {d : Datagram} {cap : Nat} {n : Int}
    (hlen : d.len = sizeofUdppacket) (hcap : 5 ≤ cap)
    (h : acknowledges (x.readFirst cap d).recvmsg n = true) :
    d.pkt.data.bytes.take 1 = ascii "A" ∧ d.pkt.seqNo = n := by
  obtain ⟨hA, hn⟩ := acknowledges_iff.1 h
  have hmin : 5 ≤ min d.len cap := Nat.le_min.2 ⟨by rw [hlen]; decide, hcap⟩
  have hone : 1 ≤ (d.pkt.data.bytes.take (min d.len cap - 4)).length := by
    rw [List.length_take, d.pkt.data.length_eq]
    exact Nat.le_min.2 ⟨by omega, by decide⟩
  constructor
  · simp only [Members.readFirst, recvfrom, Udppacket.overlay] at hA
    rw [Buffer.take_overlay _ hone (by decide), List.take_take, Nat.min_eq_left (by omega)] at hA
    exact hA
  · rw [← hn]
    exact (Udppacket.overlay_seqNo _ _ (by omega)).symm

/-! ## The sender -/

/-- `udpsend` is busy with the chunk `hist.chunksSent`, and `slideid1` is set only when the receiver,
which expects the number `rec`, has accepted it. -/
structure Busy (chunks : List Buffer) (rec : Int) (e : Endpoint Transfer) (slideid1 : Bool) :
    Prop where
  passed : e.hist.chunks.length = e.hist.chunksSent + 1
  seqNo : e.mem.sendmsg.seqNo = 2 * e.hist.chunksSent
  first : IsHalf chunks e.hist.chunksSent e.mem.sendmsg
  second : IsHalf chunks e.hist.chunksSent e.mem.sendmsg2
  slideid1 : slideid1 = true → 2 * e.hist.chunksSent < rec

/-- What the sender knows in each wait. -/
def SenderKnows (chunks : List Buffer) (rec : Int) (e : Endpoint Transfer) : Control → Prop
  | .idle => e.hist.chunks.length = e.hist.chunksSent
  | .udpsendFirst _ slideid1 _ | .udpsendSecond _ slideid1 _ => Busy chunks rec e slideid1
  | .drainFirst slideid1 _ | .drainSecond slideid1 _ => Busy chunks rec e slideid1 ∧ slideid1 = true
  | _ => False

structure SendSide (chunks : List Buffer) (rec : Int) (e : Endpoint Transfer) : Prop where
  app_eq : e.app = .sender (chunks.drop e.hist.chunksSent)
  passed : e.hist.chunks <+: chunks
  sendTempSeq : e.mem.sendTempSeq = 2 * e.hist.chunksSent
  sent_le : 2 * e.hist.chunksSent ≤ rec
  knows : SenderKnows chunks rec e e.ctl

/-- A step of the sender: what it sends are halves of chunks passed so far. -/
structure SendStep (chunks : List Buffer) (rec : Int) (e : Endpoint Transfer)
    (p : Endpoint Transfer × List Datagram) : Prop where
  side : SendSide chunks rec p.1
  grows : e.hist.chunks.length ≤ p.1.hist.chunks.length
  out : ∀ d ∈ p.2, d.len = sizeofUdppacket ∧ ∃ j < p.1.hist.chunks.length, IsHalf chunks j d.pkt

section Sender

variable {chunks : List Buffer} {rec rec' : Int} {e : Endpoint Transfer} {s1 s2 : Bool}

theorem Busy.mono (h : Busy chunks rec e s1) (hle : rec ≤ rec') : Busy chunks rec' e s1 :=
  { h with slideid1 := fun hs => Int.lt_of_lt_of_le (h.slideid1 hs) hle }

theorem SendSide.mono (h : SendSide chunks rec e) (hle : rec ≤ rec') : SendSide chunks rec' e := by
  have hknows := h.knows
  refine { h with sent_le := Int.le_trans h.sent_le hle, knows := ?_ }
  cases hctl : e.ctl <;> rw [hctl] at hknows
  case idle => exact hknows
  case udpsendFirst => exact Busy.mono hknows hle
  case udpsendSecond => exact Busy.mono hknows hle
  case drainFirst => exact ⟨hknows.1.mono hle, hknows.2⟩
  case drainSecond => exact ⟨hknows.1.mono hle, hknows.2⟩
  all_goals exact hknows

/-- The pair that a busy sender sends again. -/
theorem Busy.pair (h : Busy chunks rec e s1) :
    ∀ d ∈ e.mem.pair, d.len = sizeofUdppacket ∧ ∃ j < e.hist.chunks.length, IsHalf chunks j d.pkt := by
  have hlt : e.hist.chunksSent < e.hist.chunks.length := by
    rw [h.passed]
    exact Nat.lt_succ_self _
  intro d hd
  simp only [Members.pair, List.mem_cons, List.not_mem_nil, or_false] at hd
  rcases hd with rfl | rfl
  · exact ⟨rfl, _, hlt, h.first⟩
  · exact ⟨rfl, _, hlt, h.second⟩

/-- The end of a pass of the first loop. -/
theorem SendSide.udpsendLoop (h : SendSide chunks rec e) (hb : Busy chunks rec e s1)
    (arrived : Bool) (r : Nat) : SendSide chunks rec (e.udpsendLoop arrived r s1 s2) := by
  unfold Endpoint.udpsendLoop
  split
  · exact { h with knows := { hb with } }
  · rename_i hexit
    have hboth : s1 = true ∧ s2 = true := by
      by_contra hnot
      exact hexit (Or.inr hnot)
    exact { h with knows := ⟨{ hb with }, hboth.1⟩ }

/-- `udpsend` returns after the receiver has accepted the chunk. -/
theorem SendSide.finishUdpsend (h : SendSide chunks rec e) (hb : Busy chunks rec e true)
    (heven : ∃ k : Int, rec = 2 * k) : SendSide chunks rec (e.finishUdpsend transferApp) := by
  obtain ⟨k, rfl⟩ := heven
  have hlt := hb.slideid1 rfl
  refine ⟨?_, h.passed, ?_, ?_, hb.passed⟩
  · simp only [Endpoint.finishUdpsend, Endpoint.finish, transferApp, h.app_eq, List.tail_drop]
  · simp only [Endpoint.finishUdpsend, Endpoint.finish, h.sendTempSeq]
    omega
  · simp only [Endpoint.finishUdpsend, Endpoint.finish]
    omega

/-- The end of a pass of the second loop. -/
theorem SendSide.drainLoop (h : SendSide chunks rec e) (hb : Busy chunks rec e true)
    (heven : ∃ k : Int, rec = 2 * k) (s2 : Bool) :
    SendSide chunks rec (e.drainLoop transferApp true s2) := by
  unfold Endpoint.drainLoop
  split
  · exact { h with knows := ⟨{ hb with }, rfl⟩ }
  · exact h.finishUdpsend hb heven

/-- `udpsend` takes the next chunk. -/
theorem SendSide.beginUdpsend {c : Buffer} {cs : List Buffer} (h : SendSide chunks rec e)
    (hidle : e.hist.chunks.length = e.hist.chunksSent)
    (hnext : chunks.drop e.hist.chunksSent = c :: cs) :
    SendStep chunks rec e (e.beginUdpsend c) := by
  have hget : chunks[e.hist.chunksSent]? = some c := by
    rw [← List.head?_drop, hnext, List.head?_cons]
  have hfirst : IsHalf chunks e.hist.chunksSent (e.mem.fillPair c).sendmsg := by
    refine ⟨c, hget, Or.inl ⟨h.sendTempSeq, ?_⟩⟩
    rw [Members.fillPair, take_fill _ _ (Nat.le_of_eq (length_take_half c).symm) (by decide),
      List.take_take,
      Nat.min_self]
  have hsecond : IsHalf chunks e.hist.chunksSent (e.mem.fillPair c).sendmsg2 := by
    refine ⟨c, hget, Or.inr ⟨by rw [← h.sendTempSeq]; rfl, ?_⟩⟩
    rw [Members.fillPair, take_fill _ _ (Nat.le_of_eq (length_drop_half c).symm) (by decide)]
    exact List.take_of_length_le (Nat.le_of_eq (length_drop_half c))
  have hbusy : Busy chunks rec (e.beginUdpsend c).1 false :=
    { passed := by simp [Endpoint.beginUdpsend, hidle]
      seqNo := h.sendTempSeq
      first := hfirst
      second := hsecond
      slideid1 := fun hf => nomatch hf }
  have hpassed : e.hist.chunks ++ [c] <+: chunks := snoc_prefix h.passed (hidle ▸ hget)
  refine ⟨⟨h.app_eq, hpassed, h.sendTempSeq, h.sent_le, hbusy⟩, ?_, hbusy.pair⟩
  simp [Endpoint.beginUdpsend]

/-- The outer waits read a datagram: `slideid1` may be set. -/
theorem Busy.readFirst {d : Datagram} {cap : Nat} (hb : Busy chunks rec e s1)
    (hlen : d.len = sizeofUdppacket) (hd : AcksBelow rec d.pkt) (hcap : 5 ≤ cap)
    (ctl : Control) :
    Busy chunks rec { e with mem := e.mem.readFirst cap d, ctl := ctl }
      (s1 || acknowledges (e.mem.readFirst cap d).recvmsg e.mem.sendmsg.seqNo) := by
  refine { hb with slideid1 := fun hset => ?_ }
  rcases Bool.or_eq_true_iff.1 hset with hs | hack
  · exact hb.slideid1 hs
  · have hread := acknowledges_readFirst hlen hcap hack
    calc
      (2 * e.hist.chunksSent : Int) = d.pkt.seqNo := by rw [hread.2, hb.seqNo]
      _ < rec := hd hread.1

/-- Every step of the sender's own keeps its side of the invariant. -/
theorem SendSide.act {i : Act} {p : Endpoint Transfer × List Datagram}
    (h : SendSide chunks rec e) (heven : ∃ k : Int, rec = 2 * k)
    (hact : (machine transferApp).act e i = some p) : SendStep chunks rec e p := by
  have hknows := h.knows
  cases i with
  | run =>
      simp only [machine, Endpoint.nextCall, Option.map_eq_some_iff] at hact
      obtain ⟨c, hcall, rfl⟩ := hact
      cases hctl : e.ctl <;> rw [hctl] at hcall hknows
      -- a chunk is left, or the program is through
      case idle =>
        cases hnext : chunks.drop e.hist.chunksSent with
        | nil => simp [transferApp, h.app_eq, hnext] at hcall
        | cons c' cs =>
            have hc : Call.udpsend c' = c := by
              simpa [transferApp, h.app_eq, hnext] using hcall
            subst hc
            exact h.beginUdpsend hknows hnext
      all_goals cases hcall
  | timeout =>
      simp only [machine, Endpoint.timeout] at hact
      cases hctl : e.ctl <;> rw [hctl] at hact hknows <;>
        simp only [Option.some.injEq, reduceCtorEq] at hact
      -- both halves are sent again
      case udpsendFirst r s1 s2 =>
        subst hact
        refine ⟨h.udpsendLoop hknows false (r + 1), ?_, ?_⟩
        · simp only [Endpoint.udpsendLoop]
          split <;> exact Nat.le_refl _
        · simp only [Endpoint.udpsendLoop]
          split <;> exact Busy.pair hknows
      case udpsendSecond r s1 s2 =>
        subst hact
        refine ⟨h.udpsendLoop hknows true r, ?_, fun d hd => nomatch hd⟩
        simp only [Endpoint.udpsendLoop]
        split <;> exact Nat.le_refl _
      -- the second loop ends, and `udpsend` returns
      case drainFirst s1 s2 =>
        subst hact
        refine ⟨h.finishUdpsend (hknows.2 ▸ hknows.1) heven, Nat.le_refl _, fun d hd => nomatch hd⟩
      case drainSecond s1 s2 =>
        subst hact
        obtain ⟨hb, rfl⟩ := hknows
        refine ⟨h.drainLoop hb heven false, ?_, fun d hd => nomatch hd⟩
        simp only [Endpoint.drainLoop]
        split <;> exact Nat.le_refl _
      all_goals exact hknows.elim

/-- Every datagram that arrives at the sender keeps its side of the invariant. -/
theorem SendSide.recv {j : Junk} {d : Datagram} {p : Endpoint Transfer × List Datagram}
    (h : SendSide chunks rec e) (heven : ∃ k : Int, rec = 2 * k)
    (hlen : d.len = sizeofUdppacket) (hd : AcksBelow rec d.pkt)
    (hrecv : (machine transferApp).recv e j d = some p) : SendStep chunks rec e p := by
  have hknows := h.knows
  -- a half that is cut keeps its number and its first byte
  have hcaps : 5 ≤ e.firstCap ∧ 5 ≤ e.drainCap := by
    unfold Endpoint.firstCap Endpoint.drainCap
    cases e.side <;> decide
  simp only [machine, Endpoint.packet] at hrecv
  cases hctl : e.ctl <;> rw [hctl] at hrecv hknows <;>
    simp only [Option.some.injEq, reduceCtorEq] at hrecv
  case udpsendFirst r s1 s2 =>
    subst hrecv
    refine ⟨{ h with knows := ?_ }, Nat.le_refl _, fun d hd => nomatch hd⟩
    exact Busy.readFirst hknows hlen hd hcaps.1 _
  -- `slideid2` is set without a promise: nothing depends on it
  case udpsendSecond r s1 s2 =>
    subst hrecv
    have hside : SendSide chunks rec { e with mem := e.mem.readSecond d } :=
      { h with knows := by rw [hctl]; exact { hknows with } }
    refine ⟨hside.udpsendLoop { hknows with } true r, ?_, fun d hd => nomatch hd⟩
    simp only [Endpoint.recvInSecond, Endpoint.udpsendLoop]
    split <;> exact Nat.le_refl _
  -- `slideid1` is set already
  case drainFirst s1 s2 =>
    subst hrecv
    obtain ⟨hb, rfl⟩ := hknows
    refine ⟨{ h with knows := ?_ }, Nat.le_refl _, fun d hd => nomatch hd⟩
    exact ⟨Busy.readFirst hb hlen hd hcaps.2 _, Bool.true_or _⟩
  case drainSecond s1 s2 =>
    subst hrecv
    obtain ⟨hb, rfl⟩ := hknows
    have hside : SendSide chunks rec { e with mem := e.mem.readSecond d } :=
      { h with knows := by rw [hctl]; exact ⟨{ hb with }, rfl⟩ }
    refine ⟨hside.drainLoop { hb with } heven _, ?_, fun d hd => nomatch hd⟩
    simp only [Endpoint.recvInDrainSecond, Endpoint.drainLoop]
    split <;> exact Nat.le_refl _
  all_goals exact hknows.elim

end Sender

/-! ## The receiver -/

/-- The receiver has accepted the first chunks, and all of them were passed to `udpsend`. -/
structure RecvSide (chunks : List Buffer) (passed : Nat) (e : Endpoint Transfer) : Prop where
  app_eq : e.app = .receiver e.hist.chunksAccepted
  recTempSeq : e.mem.recTempSeq = 2 * e.hist.chunksAccepted.length
  accepted : e.hist.chunksAccepted <+: chunks
  accepted_le : e.hist.chunksAccepted.length ≤ passed
  ctl : e.ctl = .idle ∨ e.ctl = .udprecvFirst ∨
    ∃ n, e.ctl = .udprecvSecond n ∧ ∃ j < passed, IsHalf chunks j e.mem.recvmsg

/-- A step of the receiver: what it sends acknowledges only numbers it has accepted. -/
structure RecvStep (chunks : List Buffer) (passed : Nat) (e : Endpoint Transfer)
    (p : Endpoint Transfer × List Datagram) : Prop where
  side : RecvSide chunks passed p.1
  grows : e.mem.recTempSeq ≤ p.1.mem.recTempSeq
  out : ∀ d ∈ p.2, d.len = sizeofUdppacket ∧ AcksBelow p.1.mem.recTempSeq d.pkt

section Receiver

variable {chunks : List Buffer} {passed passed' : Nat} {e : Endpoint Transfer}

theorem RecvSide.mono (h : RecvSide chunks passed e) (hle : passed ≤ passed') :
    RecvSide chunks passed' e := by
  refine { h with accepted_le := Nat.le_trans h.accepted_le hle, ctl := ?_ }
  rcases h.ctl with hidle | hfirst | ⟨n, hsecond, j, hj, hhalf⟩
  · exact Or.inl hidle
  · exact Or.inr (Or.inl hfirst)
  · exact Or.inr (Or.inr ⟨n, hsecond, j, Nat.lt_of_lt_of_le hj hle, hhalf⟩)

/-- A refusal does not look like an acknowledgement. -/
theorem acksBelow_nak (p : Udppacket) (n m rec : Int) (junk : List Byte) :
    AcksBelow rec (Members.fill p n ((ackData "NAK" m junk).take packetLength)) := by
  intro hA
  have hN : (ackData "NAK" m junk).take packetLength = 78 :: ((ackData "NAK" m junk).take
      packetLength).tail := rfl
  rw [take_fill _ _ (by rw [hN]; simp) (by decide), hN] at hA
  exact absurd hA (by simp [ascii])

/-- A pair with the two expected numbers is the next chunk. -/
theorem RecvSide.next_chunk {x : Members} {i j : Nat} (h : RecvSide chunks passed e)
    (hi : IsHalf chunks i x.recvmsg) (hj : IsHalf chunks j x.recvmsg2)
    (hseq : x.recvmsg.seqNo = e.mem.recTempSeq) (hseq2 : x.recvmsg2.seqNo = e.mem.recTempSeq + 1) :
    i = e.hist.chunksAccepted.length ∧
      e.hist.chunksAccepted ++ [joinHalves x.recvmsg x.recvmsg2] <+: chunks := by
  rw [h.recTempSeq] at hseq hseq2
  obtain ⟨c, hc, hfirst | hsecond⟩ := hi
  · obtain ⟨c', hc', hfirst' | hsecond'⟩ := hj
    · omega
    · have hieq : i = e.hist.chunksAccepted.length := by omega
      have hjeq : j = i := by omega
      subst hjeq
      have hcc : c' = c := Option.some.inj (hc'.symm.trans hc)
      subst hcc
      rw [joinHalves_eq hfirst.2 hsecond'.2]
      exact ⟨hieq, snoc_prefix h.accepted (hieq ▸ hc)⟩
  · omega

/-- Both acknowledgements of a pair have the numbers of the pair. -/
theorem acksBelow_answerBoth {x : Members} {rec : Int} (j : Junk) (h : x.recvmsg.seqNo < rec)
    (h2 : x.recvmsg2.seqNo < rec) :
    ∀ d ∈ [Datagram.whole (x.answerBoth "ACK" j).sendmsg .pairAck,
        .whole (x.answerBoth "ACK" j).sendmsg2 .pairAck],
      d.len = sizeofUdppacket ∧ AcksBelow rec d.pkt := by
  intro d hd
  simp only [List.mem_cons, List.not_mem_nil, or_false] at hd
  rcases hd with rfl | rfl
  · exact ⟨rfl, fun _ => h⟩
  · exact ⟨rfl, fun _ => h2⟩

/-- `udprecv` has read a pair of packets of the transfer. -/
theorem RecvSide.answerPair {i j : Nat} (h : RecvSide chunks passed e) (o : Junk) (hlt : i < passed)
    (hi : IsHalf chunks i e.mem.recvmsg) (hj : IsHalf chunks j e.mem.recvmsg2) :
    RecvStep chunks passed e (e.answerPair transferApp o) := by
  have hgot : ∀ chunk, transferApp.resume e.app (.udprecv (some chunk)) =
      .receiver (e.hist.chunksAccepted ++ [chunk]) := by
    intro chunk
    rw [h.app_eq]
    rfl
  have hnull : transferApp.resume e.app (.udprecv none) = .receiver e.hist.chunksAccepted := by
    rw [h.app_eq]
    rfl
  unfold Endpoint.answerPair
  dsimp only
  split
  · -- the next pair
    rename_i hseq
    have hnext := h.next_chunk hi hj hseq.1 hseq.2
    have hlen := h.recTempSeq
    refine ⟨⟨hgot _, ?_, hnext.2, ?_, Or.inl rfl⟩, ?_, ?_⟩
    · simp only [Endpoint.finish, Members.answerBoth, List.length_append, List.length_singleton, hlen]
      omega
    · simp only [Endpoint.finish, List.length_append, List.length_singleton, ← hnext.1]
      omega
    · simp only [Endpoint.finish, Members.answerBoth]
      omega
    · -- the number expected is already two higher
      refine acksBelow_answerBoth o ?_ ?_
      · change e.mem.recvmsg.seqNo < e.mem.recTempSeq + 2
        rw [hseq.1]
        exact Int.lt_add_of_pos_right _ (by decide)
      · change e.mem.recvmsg2.seqNo < e.mem.recTempSeq + 2
        rw [hseq.2]
        exact Int.add_lt_add_left (by decide) _
  · split
    · -- the pair before it
      rename_i hseq
      refine ⟨⟨hnull, h.recTempSeq, h.accepted, h.accepted_le, Or.inl rfl⟩, Int.le_refl _, ?_⟩
      refine acksBelow_answerBoth o ?_ ?_
      · change e.mem.recvmsg.seqNo < e.mem.recTempSeq
        rw [hseq.1]
        exact Int.sub_lt_self _ (by decide)
      · change e.mem.recvmsg2.seqNo < e.mem.recTempSeq
        rw [hseq.2]
        exact Int.sub_lt_self _ (by decide)
    · -- neither: the texts say `NAK`
      refine ⟨⟨hnull, h.recTempSeq, h.accepted, h.accepted_le, Or.inl rfl⟩, Int.le_refl _, ?_⟩
      intro d hd
      simp only [List.mem_cons, List.not_mem_nil, or_false] at hd
      rcases hd with rfl | rfl
      · exact ⟨rfl, acksBelow_nak _ _ _ _ _⟩
      · exact ⟨rfl, acksBelow_nak _ _ _ _ _⟩

theorem RecvSide.act {i : Act} {p : Endpoint Transfer × List Datagram}
    (h : RecvSide chunks passed e) (hact : (machine transferApp).act e i = some p) :
    RecvStep chunks passed e p := by
  rcases h.ctl with hctl | hctl | ⟨n, hctl, -⟩ <;> cases i <;>
    simp only [machine, Endpoint.nextCall, Endpoint.timeout, hctl, h.app_eq, transferApp,
      Option.map_some, Option.map_none, Option.some.injEq, reduceCtorEq] at hact
  subst hact
  exact ⟨{ h with ctl := Or.inr (Or.inl rfl) }, Int.le_refl _, fun d hd => nomatch hd⟩

/-- Every packet of the transfer that arrives at the receiver keeps its side of the invariant. -/
theorem RecvSide.recv {o : Junk} {d : Datagram} {i : Nat} {p : Endpoint Transfer × List Datagram}
    (h : RecvSide chunks passed e) (hlen : d.len = sizeofUdppacket) (hlt : i < passed)
    (hd : IsHalf chunks i d.pkt) (hrecv : (machine transferApp).recv e o d = some p) :
    RecvStep chunks passed e p := by
  rcases h.ctl with hctl | hctl | ⟨n, hctl, j, hj, hhalf⟩ <;>
    simp only [machine, Endpoint.packet, hctl, Option.some.injEq, reduceCtorEq] at hrecv
  · -- the first half is kept until the second one is read
    subst hrecv
    refine ⟨{ h with ctl := Or.inr (Or.inr ⟨_, rfl, i, hlt, ?_⟩) }, Int.le_refl _,
      fun d hd => nomatch hd⟩
    simp only [Endpoint.recvInPairFirst, recvfrom_full _ hlen]
    exact hd
  · subst hrecv
    simp only [Endpoint.recvInPairSecond, recvfrom_full _ hlen]
    have h' : RecvSide chunks passed { e with mem := { e.mem with recvmsg2 := d.pkt } } :=
      { h with ctl := Or.inr (Or.inr ⟨n, hctl, j, hj, hhalf⟩) }
    split
    · exact { h'.answerPair o hj hhalf hd with }
    · exact ⟨{ h with ctl := Or.inr (Or.inl rfl) }, Int.le_refl _, fun d hd => nomatch hd⟩

end Receiver

/-! ## The network -/

/-- The invariant of a transfer. -/
structure Transfers (s : Side) (chunks : List Buffer) (n : Net (Endpoint Transfer) Datagram) :
    Prop where
  sender : SendSide chunks (n.node s.peer).mem.recTempSeq (n.node s)
  receiver : RecvSide chunks (n.node s).hist.chunks.length (n.node s.peer)
  data : ∀ d ∈ n.wire s, d.len = sizeofUdppacket ∧
    ∃ j < (n.node s).hist.chunks.length, IsHalf chunks j d.pkt
  acks : ∀ d ∈ n.wire s.peer, d.len = sizeofUdppacket ∧
    AcksBelow (n.node s.peer).mem.recTempSeq d.pkt

section Transfer

variable {s : Side} {chunks : List Buffer} {n n' : Net (Endpoint Transfer) Datagram}

theorem Transfers.even (h : Transfers s chunks n) :
    ∃ k : Int, (n.node s.peer).mem.recTempSeq = 2 * k :=
  ⟨_, h.receiver.recTempSeq⟩

theorem Transfers.of_sendStep {p : Endpoint Transfer × List Datagram} (h : Transfers s chunks n)
    (hp : SendStep chunks (n.node s.peer).mem.recTempSeq (n.node s) p) :
    Transfers s chunks (n.emit s p) := by
  refine ⟨?_, ?_, ?_, ?_⟩
  · simpa using hp.side
  · simpa using h.receiver.mono hp.grows
  · intro d hd
    simp only [Net.emit_wire_self, List.mem_append, Net.emit_node_self] at hd ⊢
    rcases hd with hd | hd
    · obtain ⟨hlen, j, hj, hhalf⟩ := h.data d hd
      exact ⟨hlen, j, Nat.lt_of_lt_of_le hj hp.grows, hhalf⟩
    · exact hp.out d hd
  · simpa using h.acks

theorem Transfers.of_recvStep {p : Endpoint Transfer × List Datagram} (h : Transfers s chunks n)
    (hp : RecvStep chunks (n.node s).hist.chunks.length (n.node s.peer) p) :
    Transfers s chunks (n.emit s.peer p) := by
  refine ⟨?_, ?_, ?_, ?_⟩
  · rw [Net.peer_emit_node, Net.emit_node_self]
    exact h.sender.mono hp.grows
  · rw [Net.peer_emit_node, Net.emit_node_self]
    exact hp.side
  · rw [Net.peer_emit_node, Net.peer_emit_wire]
    exact h.data
  · intro d hd
    simp only [Net.emit_wire_self, List.mem_append, Net.emit_node_self] at hd ⊢
    rcases hd with hd | hd
    · obtain ⟨hlen, hacks⟩ := h.acks d hd
      exact ⟨hlen, hacks.mono hp.grows⟩
    · exact hp.out d hd

/-- Every event keeps the invariant. -/
theorem Transfers.step {ev : BagEvent Act Junk} (h : Transfers s chunks n)
    (hstep : bagStep (machine transferApp) n ev = some n') : Transfers s chunks n' := by
  cases ev with
  | act t i =>
      obtain ⟨p, hact, rfl⟩ := bagStep_act.1 hstep
      rcases Side.eq_or_eq_peer s t with rfl | rfl
      · exact h.of_sendStep (h.sender.act h.even hact)
      · exact h.of_recvStep (h.receiver.act hact)
  | deliver t k o =>
      obtain ⟨d, p, hd, hrecv, rfl⟩ := bagStep_deliver.1 hstep
      have hmem := List.mem_of_getElem? hd
      rcases Side.eq_or_eq_peer s t with rfl | rfl
      · obtain ⟨hlen, hacks⟩ := h.acks d hmem
        exact h.of_sendStep (h.sender.recv h.even hlen hacks hrecv)
      · rw [Side.peer_peer] at hmem
        obtain ⟨hlen, j, hj, hhalf⟩ := h.data d hmem
        exact h.of_recvStep (h.receiver.recv hlen hj hhalf hrecv)

theorem transfers_start (s : Side) (chunks : List Buffer) (mem : Side → Members) :
    Transfers s chunks (transferStart s chunks mem) where
  sender := by
    simp only [transferStart, if_pos, if_neg (Side.peer_ne s)]
    exact ⟨rfl, List.nil_prefix, rfl, Int.le_refl _, rfl⟩
  receiver := by
    simp only [transferStart, if_pos, if_neg (Side.peer_ne s)]
    exact ⟨rfl, rfl, List.nil_prefix, Nat.le_refl _, Or.inl rfl⟩
  data := fun d hd => nomatch hd
  acks := fun d hd => nomatch hd

theorem SendSide.passed_le {rec : Int} {e : Endpoint Transfer} (h : SendSide chunks rec e) :
    e.hist.chunks.length ≤ e.hist.chunksSent + 1 := by
  have hknows := h.knows
  cases hctl : e.ctl <;> rw [hctl] at hknows
  case idle => exact Nat.le_trans (Nat.le_of_eq hknows) (Nat.le_succ _)
  case udpsendFirst => exact Nat.le_of_eq (Busy.passed hknows)
  case udpsendSecond => exact Nat.le_of_eq (Busy.passed hknows)
  case drainFirst => exact Nat.le_of_eq hknows.1.passed
  case drainSecond => exact Nat.le_of_eq hknows.1.passed
  all_goals exact hknows.elim

/-- In every state that a transfer reaches, the results of `udprecv` are the first of the chunks that
were passed to `udpsend`, `rec_temp_seq` counts them, and `udpsend` has returned for every one of them
but possibly the last, and for no other.  The receiving loop has got these results, and the sending one has
the other chunks left. -/
theorem chunks_in_order (s : Side) (chunks : List Buffer) (mem : Side → Members)
    {evs : List (BagEvent Act Junk)} {n : Net (Endpoint Transfer) Datagram}
    (hrun : Run (bagStep (machine transferApp)) anyStep (transferStart s chunks mem) evs n) :
    (n.node s.peer).hist.chunksAccepted <+: (n.node s).hist.chunks ∧
      (n.node s).hist.chunks <+: chunks ∧
      (n.node s.peer).mem.recTempSeq = 2 * (n.node s.peer).hist.chunksAccepted.length ∧
      (n.node s).hist.chunksSent ≤ (n.node s.peer).hist.chunksAccepted.length ∧
      (n.node s.peer).hist.chunksAccepted.length ≤ (n.node s).hist.chunksSent + 1 ∧
      (n.node s.peer).app = .receiver (n.node s.peer).hist.chunksAccepted ∧
      (n.node s).app = .sender (chunks.drop (n.node s).hist.chunksSent) := by
  have hinv : Transfers s chunks n :=
    hrun.invariant (fun _ _ _ h _ hstep => h.step hstep) (transfers_start s chunks mem)
  have hle := hinv.receiver.accepted_le
  have hrec := hinv.receiver.recTempSeq
  have hsent := hinv.sender.sent_le
  refine ⟨?_, hinv.sender.passed, hrec, ?_, ?_, hinv.receiver.app_eq, hinv.sender.app_eq⟩
  · exact List.prefix_of_prefix_length_le hinv.receiver.accepted hinv.sender.passed hle
  · omega
  · exact Nat.le_trans hle hinv.sender.passed_le

/-- The chunk whose halves are the datagrams `k` and `k + 1` is sent and acknowledged. -/
def chunkEvents (k : Nat) : List (BagEvent Act Junk) :=
  [.act .client .run, .act .server .run, .deliver .server k ⟨[], []⟩, .deliver .server (k + 1) ⟨[], []⟩,
    .deliver .client k ⟨[], []⟩, .deliver .client (k + 1) ⟨[], []⟩, .act .client .timeout]

/-- Zeros everywhere. -/
def zeroPacket : Udppacket := ⟨0, .ofBytes []⟩

def zeroMembers : Members := ⟨zeroPacket, zeroPacket, zeroPacket, zeroPacket, 0, 0, 0, 0, 0, 0⟩

theorem chunks_in_order_twice :
    ∃ n, Run (bagStep (machine transferApp)) anyStep
        (transferStart .client [.ofBytes [1], .ofBytes [2]] fun _ => zeroMembers)
        (chunkEvents 0 ++ chunkEvents 2) n ∧
      (n.node .client).hist.chunksSent = 2 ∧
      (n.node .server).hist.chunksAccepted <+: (n.node .client).hist.chunks := by
  have hex : ∃ n, Run (bagStep (machine transferApp)) anyStep
      (transferStart .client [.ofBytes [1], .ofBytes [2]] fun _ => zeroMembers)
      (chunkEvents 0 ++ chunkEvents 2) n ∧ (n.node .client).hist.chunksSent = 2 :=
    exists_run_of_exec_any (by decide +kernel)
  obtain ⟨n, hrun, hsent⟩ := hex
  exact ⟨n, hrun, hsent, (chunks_in_order .client _ _ hrun).1⟩

end Transfer

end Assign3
end FileTransfer
