import FileTransfer.Sample3.ReceiverStream

/-!
# Splitting a message into fragments

`sock_sendto` hands a message to `udp_sendto` in fragments of `BUFFER_LENGTH` bytes, and `sock_recvfrom`
puts them together.  The splitter moves its pointer to `buf + BUFFER_LENGTH` after every fragment, the
receiver advances by `BUFFER_LENGTH`; `fragments_round_trip_iff` says which messages survive.
-/

namespace FileTransfer
namespace Sample3

/-- `sizeof(UDPPACKET)` -/
def sizeofUdpPacket : Int := 1032

/-- The data field after `memmove(pudp->data, p, BUFFER_LENGTH)`; `mem` is the memory from `buf` on. -/
def Payload.read (mem : Nat → Byte) (p : Nat) : Payload where
  bytes := (List.range bufferLength).map fun i => mem (p + i)
  length_eq := by simp

/-- What comes of one pass of the loop of `udp_sendto`: `lib_sendto` fails, or `lib_recvfrom` returns. -/
inductive Attempt where
  | sendFails
  | timeout
  | error
  | packet (udp : UdpPacket)

namespace SockLib

/-- `udp_sendto`: the object, the result and the attempts not made; `none` while it waits. -/
def udpSendto (s : SockLib) (handshake : Bool) :
    Nat → List Attempt → Option (SockLib × Int × List Attempt)
  -- the retries are used up, and `ret` is that of the last timeout
  | 0, as => some (s, 0, as)
  | _ + 1, [] => none
  | _ + 1, .sendFails :: as => some (s, -1, as)
  | retryCnt + 1, .timeout :: as => udpSendto s handshake retryCnt as
  | _ + 1, .error :: as => some (s, -1, as)
  | _ + 1, .packet udp :: as =>
      if handshake then some ({ s with hsData := .ofPayload udp.data }, sizeofUdpPacket, as)
      else if udp.seq ≠ seqField (s.seq - 1) then some (s, -1, as)
      else some (s, sizeofUdpPacket, as)

/-- The loop of `sock_sendto`, with `left` bytes to go and `p` at the next one; `out` are the packets
handed to `udp_sendto` so far. -/
def sockSendtoLoop (mem : Nat → Byte) (handshake : Bool) (s : SockLib) (left : Int) (p : Nat)
    (out : List UdpPacket) (as : List Attempt) : Option (SockLib × List UdpPacket × Int) :=
  if 0 < left then
    let (s, udp) := s.addUdpheader (.read mem p)
    let udp := if handshake then { udp with ackType := .handshake } else udp
    match s.udpSendto handshake 1000 as with
    | none => none
    | some (s, r, as) =>
        if r ≤ 0 then some (s, out ++ [udp], -1)
        -- `p = buf + BUFFER_LENGTH`
        else sockSendtoLoop mem handshake s (left - bufferLength) bufferLength (out ++ [udp]) as
  -- a negative rest counts as `0`
  else some (s, out, 0)
termination_by left.toNat
decreasing_by
  have hb : (bufferLength : Int) = 1024 := rfl
  omega

/-- `sock_sendto(buf, length, handshake)` -/
def sockSendto (s : SockLib) (mem : Nat → Byte) (length : Int) (handshake : Bool)
    (as : List Attempt) : Option (SockLib × List UdpPacket × Int) :=
  sockSendtoLoop mem handshake s length 0 [] as

/-- `sock_recvfrom` expects the packet with this number, or takes any packet for the first one. -/
def Expects (s : SockLib) (seq : UInt32) : Prop :=
  s.lastSeq = -1 ∨ seqField (s.lastSeq + 1) = seqField seq

end SockLib

/-- The number of fragments of a message. -/
def fragmentCount (L : Nat) : Nat := (L + (bufferLength - 1)) / bufferLength

/-- Every fragment is delivered, and its acknowledgement comes back at the first attempt. -/
def Acked (s : SockLib) (n : Nat) (as : List Attempt) : Prop :=
  ∀ i < n, ∃ udp, as[i]? = some (.packet udp) ∧ udp.seq = seqField (s.seq + UInt32.ofNat i)

/-- The message in `mem[0..L)` survives: `sock_sendto` succeeds with `ceil(L / BUFFER_LENGTH)` fragments,
fragment `i` carries the bytes from `BUFFER_LENGTH * i` on, and the receiver `e`, which waits for `L` bytes,
returns the message. -/
def RoundTrip {π : Type*} (A : App π) (s : SockLib) (mem : Nat → Byte) (L : Nat) (as : List Attempt)
    (e : Endpoint π) (site : Site) : Prop :=
  ∃ s' frags, s.sockSendto mem L false as = some (s', frags, 0) ∧ frags.length = fragmentCount L ∧
    (∀ i udp, frags[i]? = some udp → ∀ k < bufferLength, bufferLength * i + k < L →
      udp.data.bytes[k]? = some (mem (bufferLength * i + k))) ∧
    ∃ e', e.takeIn A (frags.map fun udp => ⟨udp, site⟩) = some e' ∧
      e'.log.getLast? = some (.returned (.received 0 ((List.range L).map mem)))

/-! ## The fragments -/

/-- `n` fragments with numbers from `seq` on, the first of them read at `p`. -/
def fragments (mem : Nat → Byte) : UInt32 → Nat → Nat → List UdpPacket
  | _, _, 0 => []
  | seq, p, n + 1 =>
      ⟨seqField seq, .request, .read mem p⟩ :: fragments mem (seq + 1) bufferLength n

/-- Where the `j`-th byte of the message is read. -/
def source (p j : Nat) : Nat := if j < bufferLength then p + j else bufferLength + j % bufferLength

section

variable {mem : Nat → Byte} {s : SockLib} {seq : UInt32} {p n left : Nat} {as : List Attempt}

theorem length_fragments : (fragments mem seq p n).length = n := by
  induction n generalizing seq p with
  | zero => rfl
  | succ n ih => simp [fragments, ih]

/-- Where the `i`-th fragment is read. -/
theorem getElem_fragments {i : Nat} {udp : UdpPacket} (h : (fragments mem seq p n)[i]? = some udp) :
    udp.data = .read mem (if i = 0 then p else bufferLength) := by
  induction n generalizing seq p i with
  | zero => simp [fragments] at h
  | succ n ih =>
      cases i with
      | zero =>
          simp only [fragments, List.getElem?_cons_zero, Option.some.injEq] at h
          rw [← h]
          rfl
      | succ i =>
          have hrest : (fragments mem (seq + 1) bufferLength n)[i]? = some udp := by
            simpa [fragments] using h
          simpa using ih hrest

/-- The first fragment is read at `p`, and the second one where every later one is. -/
theorem source_add (j : Nat) : source p (bufferLength + j) = source bufferLength j := by
  unfold source
  generalize bufferLength = b
  rw [if_neg (by omega), Nat.add_mod_left]
  split
  · rename_i hj
    rw [Nat.mod_eq_of_lt hj]
  · rfl

/-- The first two fragments are read where their bytes are. -/
theorem source_second {j : Nat} (hj : j < 2 * bufferLength) : source 0 j = j := by
  have hb : bufferLength = 1024 := rfl
  unfold source
  rw [hb] at hj ⊢
  split
  · exact Nat.zero_add j
  · omega

theorem source_third {j : Nat} (hj : 2 * bufferLength ≤ j) :
    source 0 j = bufferLength + j % bufferLength := by
  have hge : ¬ j < bufferLength := by omega
  exact if_neg hge

/-- The bytes of the `i`-th fragment. -/
theorem source_fragment {i k : Nat} (hk : k < bufferLength) :
    (if i = 0 then 0 else bufferLength) + k = source 0 (bufferLength * i + k) := by
  unfold source
  cases i with
  | zero => simp [hk]
  | succ i =>
      have hge : ¬ bufferLength * (i + 1) + k < bufferLength := by
        rw [Nat.mul_succ]
        omega
      rw [if_neg hge, if_neg (Nat.succ_ne_zero i), Nat.mul_add_mod, Nat.mod_eq_of_lt hk]

/-- The bytes of a message split after the first fragment. -/
theorem range_source : (List.range left).map (fun j => mem (source p j)) =
    (List.range (min left bufferLength)).map (fun j => mem (p + j)) ++
      (List.range (left - bufferLength)).map (fun j => mem (source bufferLength j)) := by
  have hfirst : ∀ j < bufferLength, source p j = p + j := by
    intro j hj
    simp [source, hj]
  by_cases hle : left ≤ bufferLength
  · rw [Nat.min_eq_left hle, Nat.sub_eq_zero_of_le hle, List.range_zero, List.map_nil,
      List.append_nil]
    refine List.map_congr_left fun j hj => ?_
    rw [hfirst j (lt_of_lt_of_le (List.mem_range.1 hj) hle)]
  · obtain ⟨m, rfl⟩ := Nat.exists_eq_add_of_le (Nat.le_of_not_le hle)
    have hhead : (List.range bufferLength).map (fun j => mem (source p j)) =
        (List.range bufferLength).map (fun j => mem (p + j)) :=
      List.map_congr_left fun j hj => by rw [hfirst j (List.mem_range.1 hj)]
    calc
      (List.range (bufferLength + m)).map (fun j => mem (source p j)) =
          (List.range bufferLength).map (fun j => mem (source p j)) ++
            (List.range m).map (fun j => mem (source p (bufferLength + j))) := by
        rw [List.range_add, List.map_append, List.map_map]
        rfl
      _ = (List.range bufferLength).map (fun j => mem (p + j)) ++
            (List.range m).map (fun j => mem (source bufferLength j)) := by
        simp only [hhead, source_add]
      _ = _ := by rw [Nat.min_eq_right (Nat.le_add_right _ _), Nat.add_sub_cancel_left]

theorem take_read (k : Nat) :
    (Payload.read mem p).bytes.take k = (List.range (min k bufferLength)).map fun i => mem (p + i) := by
  simp only [Payload.read, ← List.map_take, List.take_range]

/-! ## The splitter -/

theorem udpSendto_acked {udp : UdpPacket} (hseq : udp.seq = seqField (s.seq - 1)) (retryCnt : Nat) :
    s.udpSendto false (retryCnt + 1) (.packet udp :: as) = some (s, sizeofUdpPacket, as) := by
  simp [SockLib.udpSendto, hseq]

/-- With every fragment acknowledged the loop hands over one fragment for every `BUFFER_LENGTH` bytes or
part of them. -/
theorem sockSendtoLoop_acked (left : Int) (p : Nat) (hmore : left ≤ 1024 * n)
    (hless : 1024 * n < left + 1024) (hacks : Acked s n as) (out : List UdpPacket) :
    ∃ s', s.sockSendtoLoop mem false left p out as =
      some (s', out ++ fragments mem s.seq p n, 0) := by
  have hb : (bufferLength : Int) = 1024 := rfl
  induction n generalizing s left p out as with
  | zero =>
      refine ⟨s, ?_⟩
      rw [SockLib.sockSendtoLoop, if_neg (by omega), fragments, List.append_nil]
  | succ n ih =>
      obtain ⟨udp, has, hseq⟩ := hacks 0 (Nat.succ_pos n)
      cases as with
      | nil => cases has
      | cons a as =>
          cases has
          -- the acknowledgement carries the number the fragment has just been given
          have hsend : (s.addUdpheader (.read mem p)).1.udpSendto false 1000 (.packet udp :: as) =
              some ((s.addUdpheader (.read mem p)).1, sizeofUdpPacket, as) :=
            udpSendto_acked (by simpa using hseq) 999
          have hrest : Acked (s.addUdpheader (.read mem p)).1 n as := by
            intro i hi
            obtain ⟨udp, has, hseq⟩ := hacks (i + 1) (Nat.succ_lt_succ hi)
            refine ⟨udp, by simpa using has, ?_⟩
            have hnext : s.seq + UInt32.ofNat (i + 1) = s.seq + 1 + UInt32.ofNat i := by
              rw [UInt32.ofNat_add, UInt32.add_comm (UInt32.ofNat i), ← UInt32.add_assoc]
              rfl
            rw [hseq, hnext]
            rfl
          obtain ⟨s', hloop⟩ := ih (left - 1024) bufferLength (by omega) (by omega) hrest
            (out ++ [(s.addUdpheader (.read mem p)).2])
          refine ⟨s', ?_⟩
          rw [SockLib.sockSendtoLoop, if_pos (by omega)]
          simp only [Bool.false_eq_true, if_false, hsend, hb]
          rw [if_neg (by decide), hloop, List.append_assoc]
          rfl

end

/-! ## The receiver -/

section

variable {π : Type*} {A : App π} {e : Endpoint π} {mem : Nat → Byte} {seq : UInt32} {p n : Nat}
  {got : List Byte}

/-- The expected packet arrives: its bytes are taken, and the next number is expected. -/
theorem recvInData_expected (left : Int) (got : List Byte) (udp : UdpPacket)
    (hexp : e.lib.Expects seq) (hseq : udp.seq = seqField seq) (htype : udp.ackType = .request)
    (site : Site) :
    ∃ e₁ : Endpoint π, e₁.app = e.app ∧ e₁.lib.Expects (seq + 1) ∧
      (e.recvInData A .reliable left got .program ⟨udp, site⟩).1 =
        e₁.recvLoop A (left - bufferLength)
          (got ++ udp.data.bytes.take (min left bufferLength).toNat) .program := by
  have hnext : udp.seq = seqField ((e.lib.syncLastSeq udp).lastSeq + 1) := by
    rcases hexp with hunset | hexp
    · exact (SockLib.syncLastSeq_of_eq hunset).symm
    · -- an unset `lastSeq` is set so that the packet comes next
      by_cases hunset : e.lib.lastSeq = -1
      · exact (SockLib.syncLastSeq_of_eq hunset).symm
      · rw [SockLib.syncLastSeq_of_ne hunset, hseq, hexp]
  rcases recvInData_reliable (A := A) e left got .program ⟨udp, site⟩ with
    ⟨-, -, hstep⟩ | ⟨-, hne, -⟩ | ⟨hhs, -⟩ | ⟨hreq, -⟩
  · rw [hstep]
    refine ⟨_, ?_, ?_, rfl⟩
    · rfl
    refine Or.inr ?_
    simp only
    rw [seqField_ofNat_succ, hseq]
    apply Fin.ext
    rw [seqField_add_one, Fin.val_add]
    simp [seqField]
  · exact absurd hnext hne
  · rw [htype] at hhs
    cases hhs
  · exact absurd htype hreq

theorem takeIn_cons {left : Int} {k : RecvCaller} (hctl : e.ctl = .sockRecvfrom left got k)
    (d : Datagram) (ds : List Datagram) :
    e.takeIn A (d :: ds) = (e.recvInData A .reliable left got k d).1.takeIn A ds := by
  simp [Endpoint.takeIn, exec, Endpoint.packet, hctl]

/-- The next fragment is appended, and the call goes on with the rest. -/
theorem takeIn_fragment {left : Nat} (mem : Nat → Byte) (p : Nat)
    (hctl : e.ctl = .sockRecvfrom left got .program) (hexp : e.lib.Expects seq) (site : Site)
    (ds : List Datagram) :
    ∃ e₁ : Endpoint π, e₁.lib.Expects (seq + 1) ∧
      e.takeIn A (⟨⟨seqField seq, .request, .read mem p⟩, site⟩ :: ds) =
        (e₁.recvLoop A ((left : Int) - bufferLength)
          (got ++ (List.range (min left bufferLength)).map fun i => mem (p + i))
          .program).takeIn A ds := by
  obtain ⟨e₁, -, hexp₁, hstep⟩ := recvInData_expected (A := A) left got
    ⟨seqField seq, .request, .read mem p⟩ hexp rfl rfl site
  have htake : (Payload.read mem p).bytes.take (min (left : Int) bufferLength).toNat =
      (List.range (min left bufferLength)).map fun i => mem (p + i) := by
    rw [take_read]
    congr 2
    omega
  refine ⟨e₁, hexp₁, ?_⟩
  rw [takeIn_cons hctl, hstep, htake]

/-- The receiver takes the fragments in and returns the bytes at their sources. -/
theorem takeIn_fragments {left : Nat} (mem : Nat → Byte) (p : Nat)
    (hctl : e.ctl = .sockRecvfrom left got .program) (hexp : e.lib.Expects seq) (hpos : 0 < left) (hmore : left ≤ 1024 * n)
    (hless : 1024 * n < left + 1024) (site : Site) :
    ∃ e', e.takeIn A ((fragments mem seq p n).map fun udp => ⟨udp, site⟩) = some e' ∧
      e'.log.getLast? = some (.returned
        (.received 0 (got ++ (List.range left).map fun j => mem (source p j)))) := by
  have hb : bufferLength = 1024 := rfl
  induction n generalizing e seq p left got with
  | zero => omega
  | succ n ih =>
      obtain ⟨e₁, hexp₁, htake⟩ := takeIn_fragment (A := A) mem p hctl hexp site
        ((fragments mem (seq + 1) bufferLength n).map fun udp => ⟨udp, site⟩)
      rw [fragments, List.map_cons, htake, range_source, ← List.append_assoc]
      by_cases hlast : left ≤ bufferLength
      · -- the call returns with this fragment, and there is no other
        have hn : n = 0 := by omega
        have hloop : ¬ (0 : Int) < (left : Int) - bufferLength := by omega
        subst hn
        refine ⟨_, rfl, ?_⟩
        unfold Endpoint.recvLoop
        rw [if_neg hloop, Nat.sub_eq_zero_of_le hlast, List.range_zero, List.map_nil, List.append_nil]
        simp [Endpoint.finish]
      · have hloop : (0 : Int) < (left : Int) - bufferLength := by omega
        have hcast : (left : Int) - bufferLength = ((left - bufferLength : Nat) : Int) := by omega
        rw [recvLoop_pos hloop, hcast]
        exact ih bufferLength rfl hexp₁ (by omega) (by omega) (by omega)

end

/-! ## Which messages survive -/

section

variable {π : Type*} {A : App π} {s : SockLib} {mem : Nat → Byte} {L : Nat} {as : List Attempt}
  {e : Endpoint π} {site : Site}

theorem fragmentCount_spec (L : Nat) :
    L ≤ 1024 * fragmentCount L ∧ 1024 * fragmentCount L < L + 1024 := by
  have hcount : fragmentCount L = (L + 1023) / 1024 := rfl
  rw [hcount]
  omega

/-- The message that arrives consists of the bytes at their sources. -/
theorem roundTrip_sent (mem : Nat → Byte) (site : Site) (hL : 1 ≤ L) (hacks : Acked s (fragmentCount L) as)
    (hctl : e.ctl = .sockRecvfrom L [] .program) (hexp : e.lib.Expects s.seq) :
    (∃ s', s.sockSendto mem L false as =
        some (s', fragments mem s.seq 0 (fragmentCount L), 0)) ∧
      ∃ e', e.takeIn A ((fragments mem s.seq 0 (fragmentCount L)).map fun udp => ⟨udp, site⟩) =
          some e' ∧
        e'.log.getLast? = some (.returned
          (.received 0 ((List.range L).map fun j => mem (source 0 j)))) := by
  obtain ⟨hmore, hless⟩ := fragmentCount_spec L
  refine ⟨?_, ?_⟩
  · exact sockSendtoLoop_acked L 0 (by omega) (by omega) hacks []
  · simpa using takeIn_fragments mem 0 hctl hexp hL hmore hless site

theorem RoundTrip.source (hL : 1 ≤ L) (hacks : Acked s (fragmentCount L) as)
    (hctl : e.ctl = .sockRecvfrom L [] .program) (hexp : e.lib.Expects s.seq)
    (h : RoundTrip A s mem L as e site) : ∀ j < L, mem j = mem (source 0 j) := by
  obtain ⟨⟨s₁, hsend⟩, e₁, htake, hlast⟩ := roundTrip_sent (A := A) mem site hL hacks hctl hexp
  obtain ⟨s', frags, hsend', -, -, e', htake', hlast'⟩ := h
  rw [hsend] at hsend'
  cases hsend'
  rw [htake] at htake'
  cases htake'
  rw [hlast] at hlast'
  simp only [Option.some.injEq, Event.returned.injEq, Ret.received.injEq, true_and,
    List.map_inj_left, List.mem_range] at hlast'
  intro j hj
  exact (hlast' j hj).symm

theorem roundTrip_of_source (hL : 1 ≤ L) (hacks : Acked s (fragmentCount L) as)
    (hctl : e.ctl = .sockRecvfrom L [] .program) (hexp : e.lib.Expects s.seq)
    (h : ∀ j < L, mem j = mem (source 0 j)) : RoundTrip A s mem L as e site := by
  obtain ⟨⟨s₁, hsend⟩, e₁, htake, hlast⟩ := roundTrip_sent (A := A) mem site hL hacks hctl hexp
  have hbytes : ((List.range L).map fun j => mem (Sample3.source 0 j)) = (List.range L).map mem :=
    List.map_congr_left fun j hj => (h j (List.mem_range.1 hj)).symm
  rw [hbytes] at hlast
  refine ⟨s₁, _, hsend, length_fragments, ?_, e₁, htake, hlast⟩
  intro i udp hudp k hk hlt
  rw [getElem_fragments hudp, h _ hlt]
  -- the byte is the `k`-th one of a fragment read at its source
  have hread : ∀ p, (Payload.read mem p).bytes[k]? = some (mem (p + k)) := by
    intro p
    simp [Payload.read, hk]
  rw [hread]
  congr 2
  exact source_fragment hk

/-- With every fragment delivered and acknowledged, a message survives exactly when each byte from the
third fragment on equals the byte at its place in the second one. -/
theorem fragments_round_trip_iff (hL : 1 ≤ L) (hacks : Acked s (fragmentCount L) as)
    (hctl : e.ctl = .sockRecvfrom L [] .program) (hexp : e.lib.Expects s.seq) :
    RoundTrip A s mem L as e site ↔
      ∀ j, 2 * bufferLength ≤ j → j < L → mem j = mem (bufferLength + j % bufferLength) := by
  constructor
  · intro h j hj hlt
    rw [h.source hL hacks hctl hexp j hlt, source_third hj]
  · intro h
    refine roundTrip_of_source hL hacks hctl hexp ?_
    intro j hlt
    by_cases hj : 2 * bufferLength ≤ j
    · rw [source_third hj]
      exact h j hj hlt
    · rw [source_second (Nat.lt_of_not_le hj)]

end

/-- The acknowledgements of the first three packets of an object. -/
def threeAcks : List Attempt :=
  [.packet (SockLib.ackPacket 0 .ack).pkt, .packet (SockLib.ackPacket 1 .ack).pkt,
    .packet (SockLib.ackPacket 2 .ack).pkt]

theorem acked_threeAcks (w : Nat) : Acked (SockLib.zero.udpInit w) (fragmentCount 2049) threeAcks := by
  intro i hi
  match i, hi with
  | 0, _ => exact ⟨(SockLib.ackPacket 0 .ack).pkt, rfl, rfl⟩
  | 1, _ => exact ⟨(SockLib.ackPacket 1 .ack).pkt, rfl, rfl⟩
  | 2, _ => exact ⟨(SockLib.ackPacket 2 .ack).pkt, rfl, rfl⟩
  | n + 3, h =>
      have h3 : n + 3 < 3 := h
      omega

/-- Equal bytes survive. -/
theorem fragments_round_trip_constant :
    RoundTrip noCalls (SockLib.zero.udpInit 7) (fun _ => 7) 2049 threeAcks (waitsFor (-1) 2049)
      .window :=
  (fragments_round_trip_iff (by decide) (acked_threeAcks 7) rfl (Or.inl rfl)).2 fun _ _ _ => rfl

/-- The last byte of a message of `2 * BUFFER_LENGTH + 1` bytes is lost. -/
theorem third_fragment_lost :
    ¬ RoundTrip noCalls (SockLib.zero.udpInit 7) (fun i => if i < 2048 then 0 else 1) 2049 threeAcks
      (waitsFor (-1) 2049) .window := by
  intro h
  have hbyte := h.source (by decide) (acked_threeAcks 7) rfl (Or.inl rfl) 2048 (by decide)
  rw [source_third (by decide)] at hbyte
  exact absurd hbyte (by decide)

end Sample3
end FileTransfer
