import FileTransfer.Sample3.SenderSteps

/-!
# The receiver of a link refines the go-back-N receiver

`RecvPart` relates the receiving endpoint to the abstract state: `lastSeq + 1` is the expected number,
counted from `start`, modulo 32.  A packet that reaches the endpoint is accepted, answered, or ignored
there as in `FileTransfer.GoBackN`.
-/

namespace FileTransfer
namespace Sample3

/-- The payloads an endpoint has handed to its program. -/
def handedData (log : List Event) : List Payload :=
  log.filterMap fun
    | .handed d => some d.pkt.data
    | _ => none

@[simp] theorem handedData_append (l₁ l₂ : List Event) :
    handedData (l₁ ++ l₂) = handedData l₁ ++ handedData l₂ := by
  simp [handedData]

@[simp] theorem handedData_nil : handedData [] = [] := rfl

section

variable (l : List Event) (d : Datagram)

@[simp] theorem handedData_cons_handed :
    handedData (.handed d :: l) = d.pkt.data :: handedData l := rfl
@[simp] theorem handedData_cons_acked : handedData (.acked d :: l) = handedData l := rfl
@[simp] theorem handedData_cons_synced : handedData (.synced d :: l) = handedData l := rfl

end

theorem handedData_of_local {evs : List Event} (h : ∀ ev ∈ evs, ev.IsLocal) :
    handedData evs = [] := by
  simp only [handedData, List.filterMap_eq_nil_iff]
  intro ev hev
  cases ev <;> first | rfl | exact absurd (h _ hev) (by simp [Event.IsLocal])

section

variable {π : Type*}

structure RecvPart (start : Nat) (g : GoBackN.State Payload) (e : Endpoint π) : Prop where
  unset : e.lib.lastSeq = -1 → g.expected = 0 ∧ g.replies = []
  set : e.lib.lastSeq ≠ -1 → (e.lib.lastSeq.toNat + 1) % 32 = (start + g.expected) % 32
  last : 0 < g.expected → ∃ d, Event.handed d ∈ e.log ∧ d.site = .window ∧
    IsData start g.submitted (g.expected - 1) d.pkt

/-- A datagram leaves the queue of the link: it carries the oldest number on the way, or none. -/
inductive Arrival (start : Nat) (g : GoBackN.State Payload) (d : Datagram) : List Nat → Prop
  | data {n : Nat} {rest : List Nat} : d.site = .window → g.data = n :: rest →
      IsData start g.submitted n d.pkt → Arrival start g d rest
  | other : d.site ≠ .window → Arrival start g d g.data

/-- The endpoint step hands nothing over. -/
def HandsNothing (g g' : GoBackN.State Payload) (e e' : Endpoint π) : Prop :=
  g'.expected = g.expected ∧ handedData e'.log = handedData e.log

/-- The endpoint step accepts `d`, which is the expected packet unless `lastSeq` was unset. -/
def HandsOver (start : Nat) (g g' : GoBackN.State Payload) (e e' : Endpoint π) (d : Datagram) :
    Prop :=
  ∃ n, IsData start g.submitted n d.pkt ∧ g.expected ≤ n ∧ g'.expected = n + 1 ∧
    (e.lib.lastSeq ≠ -1 → n = g.expected) ∧ handedData e'.log = handedData e.log ++ [d.pkt.data]

/-- An endpoint step seen by the abstract receiver, `rest` being what is left on the way to it. -/
structure RecvStep (w start : Nat) (g g' : GoBackN.State Payload) (e e' : Endpoint π)
    (d : Datagram) (rest : List Nat) (out : List Datagram) : Prop where
  inv : GoBackN.Inv 32 w g'
  part : RecvPart start g' e'
  submitted : g'.submitted = g.submitted
  base : g'.base = g.base
  low : g'.low = g.low
  data : g'.data = rest
  replies : ∃ xs, g'.replies = g.replies ++ xs ∧ List.Forall₂ (IsReply start) xs (repliesOn out)
  hands : HandsNothing g g' e e' ∨ HandsOver start g g' e e' d
  set : e.lib.lastSeq ≠ -1 → e'.lib.lastSeq ≠ -1

/-- What `sock_recvfrom` must not take in for the numbers to stay sound: with `lastSeq` unset anything
but data and handshake packets, and a handshake response as the next packet. -/
def RecvTakes (s : SockLib) (d : Datagram) : Prop :=
  (s.lastSeq = -1 → d.site = .window ∨ d.pkt.ackType = .handshake) ∧
    (d.site = .handshakeResponse → d.pkt.seq ≠ seqField (s.lastSeq + 1))

/-- What `srv_wait4cnn` must not take in: anything but another copy of the last packet. -/
def LingerTakes (s : SockLib) (d : Datagram) : Prop :=
  d.site = .window ∧ UInt32.ofNat d.pkt.seq.val = s.lastSeq

instance (s : SockLib) (d : Datagram) : Decidable (RecvTakes s d) :=
  inferInstanceAs (Decidable ((_ → _ ∨ _) ∧ (_ → _)))

instance (s : SockLib) (d : Datagram) : Decidable (LingerTakes s d) :=
  inferInstanceAs (Decidable (_ ∧ _))

variable {w start : Nat} {g : GoBackN.State Payload} {A : App π} {e e' : Endpoint π}
  {o : Oracle} {d : Datagram} {rest : List Nat}

theorem Arrival.sublist (h : Arrival start g d rest) : rest.Sublist g.data := by
  cases h with
  | data _ hg _ =>
      rw [hg]
      exact List.sublist_cons_self _ _
  | other _ => exact List.Sublist.refl _

/-- What comes from the window is the data at the head of the abstract link. -/
theorem Arrival.isData (h : Arrival start g d rest) (hsite : d.site = .window) :
    ∃ n, g.data = n :: rest ∧ IsData start g.submitted n d.pkt := by
  cases h with
  | data _ hg hd => exact ⟨_, hg, hd⟩
  | other hne => exact absurd hsite hne

/-- A step that keeps `lastSeq` and only adds to the history keeps the receiver's part. -/
theorem RecvPart.congr (h : RecvPart start g e) (hlast : e'.lib.lastSeq = e.lib.lastSeq)
    (hlog : e.log <+: e'.log) : RecvPart start g e' := by
  refine ⟨fun hu => h.unset (hlast ▸ hu), ?_, ?_⟩
  · intro hs
    rw [hlast] at hs ⊢
    exact h.set hs
  · intro hpos
    obtain ⟨d, hd, hrest⟩ := h.last hpos
    exact ⟨d, hlog.subset hd, hrest⟩

/-- A step of the endpoint without a packet does not concern its incoming link. -/
theorem Quiet.recvPart {p : Endpoint π × List Datagram} (hq : Quiet e p)
    (h : RecvPart start g e) : RecvPart start g p.1 := by
  obtain ⟨evs, hevs, -⟩ := hq.log
  exact h.congr hq.lastSeq ⟨evs, hevs.symm⟩

theorem Quiet.repliesOn {p : Endpoint π × List Datagram} (hq : Quiet e p) :
    repliesOn p.2 = [] := by
  simp only [Sample3.repliesOn, List.map_eq_nil_iff, List.filter_eq_nil_iff, decide_eq_true_eq]
  intro d hd hsite
  have := hq.out d hd
  simp [SentByAct, hsite] at this

theorem Quiet.handedData {p : Endpoint π × List Datagram} (hq : Quiet e p) :
    handedData p.1.log = handedData e.log := by
  obtain ⟨evs, hevs, hloc⟩ := hq.log
  rw [hevs, handedData_append, handedData_of_local hloc, List.append_nil]

/-! ## Answers -/

theorem libSendto_cases (x : Datagram) :
    (libSendto o [] x).1 = [x] ∨ (libSendto o [] x).1 = [] := by
  unfold libSendto
  split
  · exact Or.inl rfl
  · exact Or.inr rfl

/-- The step ignores the packet, or answers it with something that is no reply. -/
theorem recvStep_ignore (hinv : GoBackN.Inv 32 w g) (hpart : RecvPart start g e)
    (harr : Arrival start g d rest) (hlast : e'.lib.lastSeq = e.lib.lastSeq)
    (hlog : e.log <+: e'.log) (hhanded : handedData e'.log = handedData e.log)
    {out : List Datagram} (hout : repliesOn out = []) :
    ∃ g', RecvStep w start g g' e e' d rest out := by
  have hpart' := hpart.congr hlast hlog
  refine ⟨g.setData rest, hinv.dropData harr.sublist, ⟨hpart'.unset, hpart'.set, hpart'.last⟩, rfl,
    rfl, rfl, rfl, ⟨[], by simp [GoBackN.State.setData], by rw [hout]; exact .nil⟩,
    Or.inl ⟨rfl, hhanded⟩, fun h => by rw [hlast]; exact h⟩

/-- The step answers with the number it expects. -/
theorem recvStep_reply (hinv : GoBackN.Inv 32 w g) (hpart : RecvPart start g e)
    (harr : Arrival start g d rest) (hset : e.lib.lastSeq ≠ -1)
    (hlast : e'.lib.lastSeq = e.lib.lastSeq) (hlog : e.log <+: e'.log)
    (hhanded : handedData e'.log = handedData e.log) {x : Datagram} (hsite : x.site = .sendAck)
    (hx : IsReply start g.expected x.pkt) :
    ∃ g', RecvStep w start g g' e e' d rest (libSendto o [] x).1 := by
  rcases libSendto_cases (o := o) x with hout | hout
  · have hpart' := hpart.congr hlast hlog
    refine ⟨(g.setData rest).reply 1, (hinv.dropData harr.sublist).reply 1,
      ⟨fun hu => absurd (hlast ▸ hu) hset, hpart'.set, hpart'.last⟩, rfl, rfl, rfl, rfl,
      ⟨[g.expected], rfl, ?_⟩, Or.inl ⟨rfl, hhanded⟩, fun h => by rw [hlast]; exact h⟩
    rw [hout, repliesOn_cons, if_pos hsite]
    exact .cons hx .nil
  · rw [hout]
    exact recvStep_ignore hinv hpart harr hlast hlog hhanded rfl

/-- The step accepts the packet. -/
theorem recvStep_accept (hinv : GoBackN.Inv 32 w g) {n : Nat} (hwindow : d.site = .window)
    (hdata : g.data = n :: rest) (hd : IsData start g.submitted n d.pkt) (hn : g.expected ≤ n)
    (hexact : e.lib.lastSeq ≠ -1 → n = g.expected)
    (hlast : e'.lib.lastSeq = UInt32.ofNat d.pkt.seq.val) (hlog : Event.handed d ∈ e'.log)
    (hhanded : handedData e'.log = handedData e.log ++ [d.pkt.data]) {x : Datagram}
    (hsite : x.site = .sendAck) (hx : x.pkt.ackType = .ack) (hseq : x.pkt.seq = d.pkt.seq) :
    ∃ g', RecvStep w start g g' e e' d rest (libSendto o [] x).1 := by
  have hlt := d.pkt.seq.isLt
  have hval : e'.lib.lastSeq.toNat = d.pkt.seq.val := by rw [hlast, toNat_ofNat_seq]
  have hne : e'.lib.lastSeq ≠ -1 := by
    rw [hlast]
    exact ofNat_seq_ne _
  have hnext : (d.pkt.seq.val + 1) % 32 = (start + (n + 1)) % 32 := by
    have := hd.1
    omega
  have hinv' : GoBackN.Inv 32 w (g.accept n rest) := hinv.accept hdata hn
  have hpart' : ∀ xs, RecvPart start ((g.accept n rest).setReplies xs) e' := by
    intro xs
    refine ⟨fun hu => absurd hu hne, fun _ => ?_, fun _ => ⟨d, hlog, hwindow, hd⟩⟩
    rw [hval]
    exact hnext
  have hands : ∀ xs, HandsOver start g ((g.accept n rest).setReplies xs) e e' d := fun _ =>
    ⟨n, hd, hn, rfl, hexact, hhanded⟩
  -- the answer is sent, or its `lib_sendto` fails and nothing is
  rcases libSendto_cases (o := o) x with hout | hout
  · refine ⟨(g.accept n rest).setReplies (g.replies ++ [n + 1]),
      hinv'.dropReplies (List.Sublist.refl _), hpart' _, rfl, rfl, rfl, rfl,
      ⟨[n + 1], rfl, ?_⟩, Or.inr (hands _), fun _ => hne⟩
    rw [hout, repliesOn_cons, if_pos hsite]
    exact .cons (Or.inl ⟨hx, by rw [hseq]; exact hnext⟩) .nil
  · refine ⟨(g.accept n rest).setReplies g.replies,
      hinv'.dropReplies (List.sublist_append_left _ _), hpart' _, rfl, rfl, rfl, rfl,
      ⟨[], by simp [GoBackN.State.setReplies], ?_⟩, Or.inr (hands _), fun _ => hne⟩
    rw [hout]
    exact .nil

/-! ## Steps with a packet -/

theorem handedData_of_moves (h : Endpoint.Moves A e e') : handedData e'.log = handedData e.log := by
  obtain ⟨evs, hevs, hloc⟩ := h.log_local
  rw [hevs, handedData_append, handedData_of_local hloc, List.append_nil]

/-- Numbers that `chk_seqEx` compares, in terms of the abstract state. -/
theorem RecvPart.next (h : RecvPart start g e) (hset : e.lib.lastSeq ≠ -1) :
    (seqField (e.lib.lastSeq + 1)).val = (start + g.expected) % 32 := by
  rw [seqField_add_one]
  exact h.set hset

/-- What the packet types on a wire are, by the place that sent the packet. -/
def WellTyped (d : Datagram) : Prop :=
  match d.site with
  | .window => d.pkt.ackType = .request
  | .specialRequest => d.pkt.ackType = .sack
  | .sendAck => d.pkt.ackType.IsAnswer
  | .handshakeRequest => d.pkt.ackType = .handshake
  | .handshakeResponse => d.pkt.ackType = .request

theorem WellTyped.of_request (h : WellTyped d) (htype : d.pkt.ackType = .request) :
    d.site = .window ∨ d.site = .handshakeResponse := by
  unfold WellTyped at h
  split at h <;> rename_i hsite <;> simp_all [AckType.IsAnswer]

/-- The request that `chk_seqEx` accepts is data: the one expected, unless `lastSeq` was unset. -/
theorem accepted_isData (hinv : GoBackN.Inv 32 w g) (hpart : RecvPart start g e)
    (harr : Arrival start g d rest) (htyped : WellTyped d) (htakes : RecvTakes e.lib d)
    (hreq : d.pkt.ackType = .request)
    (hseq : seqField ((e.lib.syncLastSeq d.pkt).lastSeq + 1) = d.pkt.seq) :
    d.site = .window ∧ ∃ n, g.data = n :: rest ∧ IsData start g.submitted n d.pkt ∧
      g.expected ≤ n ∧ (e.lib.lastSeq ≠ -1 → n = g.expected) := by
  have hsite : d.site = .window := by
    rcases htyped.of_request hreq with hsite | hsite
    · exact hsite
    · by_cases hu : e.lib.lastSeq = -1
      · exact (htakes.1 hu).resolve_right (by simp [hreq])
      · rw [SockLib.syncLastSeq_of_ne hu] at hseq
        exact absurd hseq.symm (htakes.2 hsite)
  obtain ⟨n, hg, hd⟩ := harr.isData hsite
  have hexact : e.lib.lastSeq ≠ -1 → n = g.expected := by
    intro hset
    rw [SockLib.syncLastSeq_of_ne hset] at hseq
    have hnext := hpart.next hset
    rw [hseq, hd.1] at hnext
    exact hinv.eq_expected_of_mod start (by rw [hg]; exact List.mem_cons_self) hnext
  have hn : g.expected ≤ n := by
    by_cases hu : e.lib.lastSeq = -1
    · rw [(hpart.unset hu).1]
      exact Nat.zero_le _
    · exact le_of_eq (hexact hu).symm
  exact ⟨hsite, n, hg, hd, hn, hexact⟩

/-- `sock_recvfrom` takes a datagram in. -/
theorem recvStep_recvInData (hinv : GoBackN.Inv 32 w g) (hpart : RecvPart start g e)
    (harr : Arrival start g d rest) (htyped : WellTyped d) (htakes : RecvTakes e.lib d)
    (left : Int) (got : List Byte) (k : RecvCaller) :
    ∃ g', RecvStep w start g g' e (e.recvInData A o left got k d).1 d rest
      (e.recvInData A o left got k d).2 := by
  unfold Endpoint.recvInData
  split
  · have hmoves := Endpoint.moves_recvLoop (A := A) (e := e) left got k
    refine recvStep_ignore hinv hpart harr (by rw [hmoves.lib]) hmoves.log_grows
      (handedData_of_moves hmoves) ?_
    rcases libSendto_cases (o := o) e.lib.handshakeAck with h | h <;> rw [h] <;> rfl
  · rename_i htype
    -- without a `lastSeq` only data gets here, and `chk_seqEx` accepts it whatever its number
    have hunset : e.lib.lastSeq = -1 → d.pkt.ackType = .request := by
      intro hu
      obtain ⟨n, -, hd⟩ := harr.isData ((htakes.1 hu).resolve_right htype)
      exact hd.2.1
    have hstay : ∀ (t : SockLib) (l : List Event), t.lastSeq = e.lib.lastSeq → l = [] →
        let e₁ := ({ e with lib := t, log := e.log ++ l } : Endpoint π).recvLoop A left got k
        e₁.lib.lastSeq = e.lib.lastSeq ∧ e.log <+: e₁.log ∧
          handedData e₁.log = handedData e.log := by
      rintro t _ ht rfl
      have hmoves := Endpoint.moves_recvLoop (A := A)
        (e := { e with lib := t, log := e.log ++ [] }) left got k
      refine ⟨by rw [hmoves.lib]; exact ht, ?_, ?_⟩
      · exact (List.prefix_append _ _).trans hmoves.log_grows
      · rw [handedData_of_moves hmoves]
        simp
    rcases SockLib.chkSeqEx_cases e.lib d.pkt with
      ⟨hreq, hseq, hchk⟩ | ⟨hreq, hseq, hchk⟩ | ⟨hsack, hchk⟩ | ⟨hreq, -, hchk⟩
    · -- the next packet
      obtain ⟨hsite, n, hg, hd, hn, hexact⟩ :=
        accepted_isData hinv hpart harr htyped htakes hreq hseq
      simp only [hchk, if_true]
      set e₁ : Endpoint π := { e with
        lib := { e.lib.syncLastSeq d.pkt with lastSeq := UInt32.ofNat d.pkt.seq.val }
        log := e.log ++ (if e.lib.lastSeq = -1 then [Event.synced d] else []) ++
          [.acked d, .handed d] } with he₁
      have hmoves := Endpoint.moves_recvLoop (A := A) (e := e₁) (left - bufferLength)
        (got ++ d.pkt.data.bytes.take (min left bufferLength).toNat) k
      refine recvStep_accept hinv hsite hg hd hn hexact ?_ ?_ ?_ rfl rfl ?_
      · rw [hmoves.lib]
      · exact hmoves.log_grows.subset (by simp [he₁])
      · rw [handedData_of_moves hmoves, he₁]
        split_ifs <;> simp
      · rw [SockLib.ackPacket_seq]
        exact hseq
    · -- another packet: a NACK with the next number
      have hset : e.lib.lastSeq ≠ -1 := by
        intro hu
        exact hseq (SockLib.syncLastSeq_of_eq hu)
      rw [SockLib.syncLastSeq_of_ne hset] at hchk
      simp only [hchk, hset, Bool.false_eq_true, if_false]
      obtain ⟨h1, h2, h3⟩ := hstay e.lib [] rfl rfl
      exact recvStep_reply hinv hpart harr hset h1 h2 h3 rfl
        (Or.inr ⟨Or.inl rfl, hpart.next hset⟩)
    · -- a special request: a SACK with the next number
      have hset : e.lib.lastSeq ≠ -1 := by
        intro hu
        cases hsack.symm.trans (hunset hu)
      rw [SockLib.syncLastSeq_of_ne hset] at hchk
      simp only [hchk, hset, Bool.false_eq_true, if_false]
      obtain ⟨h1, h2, h3⟩ := hstay e.lib [] rfl rfl
      exact recvStep_reply hinv hpart harr hset h1 h2 h3 rfl
        (Or.inr ⟨Or.inr rfl, hpart.next hset⟩)
    · -- anything else is dropped
      have hset : e.lib.lastSeq ≠ -1 := by
        intro hu
        exact hreq (hunset hu)
      rw [SockLib.syncLastSeq_of_ne hset] at hchk
      simp only [hchk, hset, Bool.false_eq_true, if_false]
      obtain ⟨h1, h2, h3⟩ := hstay e.lib [] rfl rfl
      exact recvStep_ignore hinv hpart harr h1 h2 h3 rfl

/-- `srv_wait4cnn` takes a datagram in. -/
theorem recvStep_recvInLinger (hinv : GoBackN.Inv 32 w g) (hpart : RecvPart start g e)
    (harr : Arrival start g d rest) (htakes : LingerTakes e.lib d) (sec : Int) :
    ∃ g', RecvStep w start g g' e (e.recvInLinger A o sec d).1 d rest
      (e.recvInLinger A o sec d).2 := by
  obtain ⟨hsite, hlast⟩ := htakes
  obtain ⟨n, hg, hd⟩ := harr.isData hsite
  have hlt := d.pkt.seq.isLt
  have hset : e.lib.lastSeq ≠ -1 := by
    rw [← hlast]
    exact ofNat_seq_ne _
  have hmod : (d.pkt.seq.val + 1) % 32 = (start + g.expected) % 32 := by
    have hnext := hpart.set hset
    rwa [← hlast, toNat_ofNat_seq] at hnext
  set e₁ : Endpoint π := { e with log := e.log ++ [.acked d] } with he₁
  have hmoves : Endpoint.Moves A e₁ (e.recvInLinger A o sec d).1 := Endpoint.moves_lingerLoop sec
  refine recvStep_reply hinv hpart harr hset (by rw [hmoves.lib]) ?_ ?_ rfl (Or.inl ⟨rfl, ?_⟩)
  · exact (List.prefix_append _ _).trans hmoves.log_grows
  · rw [handedData_of_moves hmoves, he₁]
    simp
  · rw [SockLib.ackPacket_seq, seqField_val, UInt32.toNat_ofNat']
    omega

/-- `udp_sendtoEx` takes a datagram in that it does not acknowledge. -/
theorem recvStep_recvInSend (hinv : GoBackN.Inv 32 w g) (hpart : RecvPart start g e)
    (harr : Arrival start g d rest) {l : SendtoEx}
    (htakes : ¬ d.pkt.ackType.IsAnswer → e.lib.acksUnknown d.pkt = false) (k : SendCaller) :
    ∃ g', RecvStep w start g g' e (e.recvInSend A o l k d).1 d rest
      (e.recvInSend A o l k d).2 := by
  have hframe := SockLib.udpSendtoExPacket_frame e.lib o l d.pkt
  rcases Endpoint.recvInSend_cases (A := A) (o := o) e l k d with ⟨htype, hacks, -⟩ | ⟨-, hstep⟩
  · rw [htakes htype] at hacks
    cases hacks
  rw [hstep]
  have hmoves := Endpoint.moves_settle (A := A)
    (e := { e with lib := (e.lib.udpSendtoExPacket o l d.pkt).1 }) k
    (e.lib.udpSendtoExPacket o l d.pkt).2.2
  have hhanded := handedData_of_moves hmoves
  refine recvStep_ignore hinv hpart harr ?_ hmoves.log_grows hhanded ?_
  · rw [hmoves.lib]
    exact hframe.2.1
  · simp only [repliesOn, List.map_eq_nil_iff, List.filter_eq_nil_iff, decide_eq_true_eq]
    intro x hx hsite
    rcases SockLib.mem_udpSendtoExPacket hx with ⟨-, rfl⟩ | ⟨htype, hacks, -⟩
    · cases hsite
    · rw [htakes htype] at hacks
      cases hacks

/-- An endpoint takes a datagram in, outside of the handshakes. -/
theorem recvStep_recv (hinv : GoBackN.Inv 32 w g) (hpart : RecvPart start g e)
    (harr : Arrival start g d rest) (htyped : WellTyped d) (hctl : ¬ e.ctl.Restarts)
    (hsend : ∀ l k, e.ctl = .udpSendtoEx l k → SendTakes e.lib o.beyond d)
    (hrecv : ∀ left got k, e.ctl = .sockRecvfrom left got k → RecvTakes e.lib d)
    (hlinger : ∀ sec, e.ctl = .srvWait4cnn sec → LingerTakes e.lib d)
    {p : Endpoint π × List Datagram} (h : (machine A).recv e o d = some p) :
    ∃ g', RecvStep w start g g' e p.1 d rest p.2 := by
  have h' : e.packet A o d = some p := h
  unfold Endpoint.packet at h'
  split at h'
  · rename_i l k heq
    cases h'
    refine recvStep_recvInSend hinv hpart harr ?_ k
    intro htype
    have htakes := hsend l k heq
    unfold SendTakes at htakes
    cases hcase : d.pkt.ackType <;> simp_all [AckType.IsAnswer]
  · rename_i heq
    rw [heq] at hctl
    -- handshakes are excluded
    exact absurd trivial hctl
  · rename_i heq
    cases h'
    exact recvStep_recvInData hinv hpart harr htyped (hrecv _ _ _ heq) _ _ _
  · rename_i heq
    rw [heq] at hctl
    exact absurd trivial hctl
  · rename_i heq
    cases h'
    exact recvStep_recvInLinger hinv hpart harr (hlinger _ heq) _
  · cases h'

end

end Sample3
end FileTransfer
