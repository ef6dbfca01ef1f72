import FileTransfer.Lib.Run
import FileTransfer.Lib.Swaps
import FileTransfer.Router.Router

/-!
# What the router does to the packets of one direction

Every packet received is dropped, delayed or sent on, and the packets sent are those received with
neighbours swapped: a delayed packet leaves right behind the next packet of its direction that is
forwarded.
-/

namespace FileTransfer
namespace Router

namespace State

variable (s : State) (dst : Peer)

/-- The packet of this direction in the delay buffer. -/
def held : List Nat :=
  if !s.fileBuf.empty && s.fileBuf.destination = dst then [s.fileBuf.index] else []

/-- The packets of this direction that were not dropped, in the order of arrival. -/
def live : List Nat :=
  (List.range (s.received dst).length).filter fun i => i ∉ s.dropped dst

/-- The invariant of one direction; `pending` is the packet `Run` is about to decide on. -/
structure Direction (pending : List Nat) : Prop where
  kept : ∃ kept, s.live dst = kept ++ s.held dst ++ pending ∧
    NeighbourSwaps kept ((s.sent dst).map Prod.fst)
  dropped : (s.dropped dst).Nodup ∧ ∀ i ∈ s.dropped dst, i < (s.received dst).length
  bytes : ∀ p ∈ s.sent dst, (s.received dst)[p.1]? = some p.2

/-- The packet of an `EVENT_LIST` is the one received under its index. -/
def Holds (ev : EventList) : Prop := (s.received ev.destination)[ev.index]? = some ev.packet

end State

variable {s : State} {dst : Peer}

/-- The sockets, `temp` and the counters play no part in the invariant. -/
theorem State.Direction.congr {t : State} {pending : List Nat} (h : s.Direction dst pending)
    (hreceived : t.received = s.received) (hdropped : t.dropped = s.dropped) (hsent : t.sent = s.sent)
    (hbuf : t.fileBuf = s.fileBuf) : t.Direction dst pending := by
  obtain ⟨hkept, hdrop, hbytes⟩ := h
  constructor
  · simpa only [State.live, State.held, hreceived, hdropped, hsent, hbuf] using hkept
  · rw [hreceived, hdropped]
    exact hdrop
  · rw [hreceived, hsent]
    exact hbytes

theorem Buffer.take_overlay (b : Buffer) {packet : List Byte} (h : packet.length ≤ maxBufSize) :
    (b.overlay packet).bytes.take packet.length = packet := by
  simp only [Buffer.overlay, List.take_of_length_le h]
  exact List.take_left

/-! ## One decision -/

/-- The packet that is received next for `dst` is pending, and it is in `temp`. -/
theorem direction_receive (source : Peer) (packet : List Byte) (h : s.Direction dst []) :
    (s.receive source packet).Direction dst
      (if dst = source.other then [(s.received dst).length] else []) := by
  by_cases hdst : dst = source.other
  · subst hdst
    obtain ⟨kept, hlive, hswaps⟩ := h.kept
    -- an index is the place in `received`, so the new one was never dropped
    have hnew : (s.received source.other).length ∉ s.dropped source.other := by
      intro hmem
      exact absurd (h.dropped.2 _ hmem) (Nat.lt_irrefl _)
    have hreceived : (s.receive source packet).received source.other =
        s.received source.other ++ [packet] := by
      simp [State.receive]
    rw [if_pos rfl]
    refine ⟨⟨kept, ?_, hswaps⟩, ?_, ?_⟩
    · rw [List.append_nil] at hlive
      have hheld : (s.receive source packet).held source.other = s.held source.other := rfl
      rw [hheld, ← hlive]
      simp only [State.live, hreceived, List.length_append, List.length_singleton, List.range_succ,
        List.filter_append]
      congr 1
      exact List.filter_eq_self.2 fun i hi => decide_eq_true (List.mem_singleton.1 hi ▸ hnew)
    · rw [hreceived, List.length_append]
      exact ⟨h.dropped.1, fun i hi => Nat.lt_add_right _ (h.dropped.2 i hi)⟩
    · intro p hp
      have hold := h.bytes p hp
      rw [hreceived, List.getElem?_append_left (List.getElem?_eq_some_iff.1 hold).1]
      exact hold
  · -- the other direction receives nothing
    have hreceived : (s.receive source packet).received dst = s.received dst := by
      simp [State.receive, Function.update_of_ne hdst]
    rw [if_neg hdst]
    obtain ⟨kept, hlive, hswaps⟩ := h.kept
    refine ⟨⟨kept, ?_, hswaps⟩, ?_, ?_⟩
    · simp only [State.live, hreceived]
      exact hlive
    · rw [hreceived]
      exact h.dropped
    · intro p hp
      rw [hreceived]
      exact h.bytes p hp

/-- A `sendto` is seen by the peer it is meant for. -/
theorem map_fst_sent_sendto (s : State) (ev : EventList) (dst : Peer) :
    ((s.sendto ev).sent dst).map Prod.fst =
      (s.sent dst).map Prod.fst ++ if ev.destination = dst then [ev.index] else [] := by
  by_cases hdst : ev.destination = dst
  · subst hdst
    simp [State.sendto]
  · simp [State.sendto, hdst, Function.update_of_ne (Ne.symm hdst)]

theorem bytes_sendto {ev : EventList} (hev : s.Holds ev)
    (h : ∀ p ∈ s.sent dst, (s.received dst)[p.1]? = some p.2) :
    ∀ p ∈ (s.sendto ev).sent dst, ((s.sendto ev).received dst)[p.1]? = some p.2 := by
  intro p hp
  by_cases hdst : ev.destination = dst
  · subst hdst
    simp only [State.sendto, Function.update_self, List.mem_append, List.mem_singleton] at hp
    rcases hp with hp | rfl
    · exact h p hp
    · exact hev
  · simp only [State.sendto, Function.update_of_ne (Ne.symm hdst)] at hp
    exact h p hp

/-- The packet the pass is about. -/
abbrev State.pending (s : State) (dst : Peer) : List Nat :=
  if s.temp.destination = dst then [s.temp.index] else []

/-- The packet is delayed. -/
theorem direction_delay (h : s.Direction dst (s.pending dst)) (hempty : s.fileBuf.empty = true) :
    ({ s with fileBuf := { s.temp with empty := false } } : State).Direction dst [] := by
  obtain ⟨kept, hlive, hswaps⟩ := h.kept
  have hheld : s.held dst = [] := by simp [State.held, hempty]
  have hheld' : ({ s with fileBuf := { s.temp with empty := false } } : State).held dst =
      s.pending dst := by
    simp [State.held]
  refine ⟨⟨kept, ?_, hswaps⟩, h.dropped, h.bytes⟩
  rw [hheld, List.append_nil] at hlive
  rw [List.append_nil, hheld']
  exact hlive

/-- The packet is dropped. -/
theorem direction_drop (h : s.Direction dst (s.pending dst)) :
    let dropped := s.dropped s.temp.destination ++ [s.temp.index]
    ({ s with dropped := Function.update s.dropped s.temp.destination dropped } : State).Direction
      dst [] := by
  intro dropped
  set t : State := { s with dropped := Function.update s.dropped s.temp.destination dropped } with ht
  obtain ⟨kept, hlive, hswaps⟩ := h.kept
  by_cases hdst : s.temp.destination = dst
  · have hdropped : t.dropped dst = s.dropped dst ++ [s.temp.index] := by
      simp [ht, hdst, dropped]
    rw [State.pending, if_pos hdst] at hlive
    -- each live index stands once, so the one dropped is gone from the rest
    have hnodup : (kept ++ s.held dst ++ [s.temp.index]).Nodup := by
      rw [← hlive]
      exact List.nodup_range.filter _
    have hfresh : s.temp.index ∉ kept ++ s.held dst := fun hmem =>
      (List.nodup_append.1 hnodup).2.2 _ hmem _ (by simp) rfl
    have hlive' : t.live dst = (s.live dst).filter (· ≠ s.temp.index) := by
      simp only [State.live, hdropped, List.filter_filter, List.mem_append, List.mem_singleton]
      refine List.filter_congr fun i _ => ?_
      simp [not_or, and_comm]
    refine ⟨⟨kept, ?_, hswaps⟩, ?_, h.bytes⟩
    · rw [hlive', hlive, List.filter_append, List.append_nil]
      have hall : (kept ++ s.held dst).filter (· ≠ s.temp.index) = kept ++ s.held dst := by
        refine List.filter_eq_self.2 fun i hi => decide_eq_true ?_
        rintro rfl
        exact hfresh hi
      rw [hall, List.filter_cons_of_neg (by simp), List.filter_nil, List.append_nil]
      rfl
    · -- it was live, so it was not dropped before
      have hmem : s.temp.index ∈ s.live dst := by
        rw [hlive]
        simp
      obtain ⟨hrange, hnew⟩ := List.mem_filter.1 hmem
      rw [hdropped]
      refine ⟨List.nodup_append.2
        ⟨h.dropped.1, List.nodup_cons.2 ⟨List.not_mem_nil, List.nodup_nil⟩, ?_⟩, ?_⟩
      · rintro i hi j hj rfl
        rw [List.mem_singleton.1 hj] at hi
        exact of_decide_eq_true hnew hi
      · intro i hi
        rcases List.mem_append.1 hi with hi | hi
        · exact h.dropped.2 i hi
        · rw [List.mem_singleton.1 hi]
          exact List.mem_range.1 hrange
  · -- the other direction loses nothing
    have hdropped : t.dropped dst = s.dropped dst := by
      simp [ht, Function.update_of_ne (Ne.symm hdst)]
    rw [State.pending, if_neg hdst] at hlive
    refine ⟨⟨kept, ?_, hswaps⟩, ?_, h.bytes⟩
    · simp only [State.live, hdropped]
      exact hlive
    · rw [hdropped]
      exact h.dropped

/-- The packet is sent on, and nothing of its direction is delayed. -/
theorem direction_sendto (h : s.Direction dst (s.pending dst)) (htemp : s.Holds s.temp)
    (hheld : s.temp.destination = dst → s.held dst = []) : (s.sendto s.temp).Direction dst [] := by
  obtain ⟨kept, hlive, hswaps⟩ := h.kept
  refine ⟨⟨kept ++ s.pending dst, ?_, ?_⟩, h.dropped, bytes_sendto htemp h.bytes⟩
  · have hsame : (s.sendto s.temp).live dst = s.live dst := rfl
    have hheld' : (s.sendto s.temp).held dst = s.held dst := rfl
    rw [hsame, hheld', hlive, List.append_nil]
    by_cases hdst : s.temp.destination = dst
    · simp [hheld hdst]
    · simp [State.pending, hdst]
  · rw [map_fst_sent_sendto]
    by_cases hdst : s.temp.destination = dst
    · simpa [State.pending, hdst] using hswaps.snoc s.temp.index
    · simpa [State.pending, hdst] using hswaps

/-- `SendProc` puts the delayed packet out. -/
theorem direction_sendProc (h : s.Direction dst []) (hbuf : s.Holds s.fileBuf)
    (hfull : s.fileBuf.empty = false) : (s.sendProc true).Direction dst [] := by
  obtain ⟨kept, hlive, hswaps⟩ := h.kept
  have hheld : (s.sendProc true).held dst = [] := by simp [State.held, State.sendProc]
  refine ⟨⟨kept ++ s.held dst, ?_, ?_⟩, h.dropped, bytes_sendto hbuf h.bytes⟩
  · rw [hheld, List.append_nil]
    exact hlive
  · have hsent : ((s.sendProc true).sent dst).map Prod.fst =
        (s.sent dst).map Prod.fst ++ if s.fileBuf.destination = dst then [s.fileBuf.index] else [] :=
      map_fst_sent_sendto s s.fileBuf dst
    rw [hsent]
    by_cases hdst : s.fileBuf.destination = dst
    · simpa [State.held, hfull, hdst] using hswaps.snoc s.fileBuf.index
    · simpa [State.held, hfull, hdst] using hswaps

/-- The packet is sent on, and the delayed packet of its direction right behind it. -/
theorem direction_overtake (h : s.Direction dst (s.pending dst)) (htemp : s.Holds s.temp)
    (hbuf : s.Holds s.fileBuf) (hfull : s.fileBuf.empty = false)
    (hsame : s.fileBuf.destination = s.temp.destination) :
    ((s.sendto s.temp).sendProc true).Direction dst [] := by
  by_cases hdst : s.temp.destination = dst
  · obtain ⟨kept, hlive, hswaps⟩ := h.kept
    have hheld : s.held dst = [s.fileBuf.index] := by simp [State.held, hfull, hsame, hdst]
    have hgone : ((s.sendto s.temp).sendProc true).held dst = [] := by
      simp [State.held, State.sendProc]
    rw [hheld, State.pending, if_pos hdst] at hlive
    refine ⟨⟨kept ++ [s.fileBuf.index, s.temp.index], ?_, ?_⟩, h.dropped,
      bytes_sendto hbuf (bytes_sendto htemp h.bytes)⟩
    · rw [hgone, List.append_nil, List.append_nil]
      rw [List.append_assoc] at hlive
      exact hlive
    · have hsent : (((s.sendto s.temp).sendProc true).sent dst).map Prod.fst =
          (s.sent dst).map Prod.fst ++ [s.temp.index, s.fileBuf.index] := by
        -- the packet in `temp` goes first, and the delayed one right behind it
        calc (((s.sendto s.temp).sendProc true).sent dst).map Prod.fst
            = ((s.sendto s.temp).sent dst).map Prod.fst ++ [s.fileBuf.index] := by
              have hbehind := map_fst_sent_sendto (s.sendto s.temp) s.fileBuf dst
              rwa [if_pos (hsame.trans hdst)] at hbehind
          _ = (s.sent dst).map Prod.fst ++ [s.temp.index] ++ [s.fileBuf.index] := by
              rw [map_fst_sent_sendto, if_pos hdst]
          _ = (s.sent dst).map Prod.fst ++ [s.temp.index, s.fileBuf.index] := by
              rw [List.append_assoc]
              rfl
      rw [hsent]
      exact hswaps.snoc_swap _ _
  · -- the other direction does not notice
    have hother : (s.sendto s.temp).Direction dst [] :=
      direction_sendto h htemp fun heq => absurd heq hdst
    exact direction_sendProc hother hbuf hfull

/-! ## One pass of the loop -/

/-- The invariant of `Run`. -/
structure Inv (s : State) : Prop where
  direction : ∀ dst, s.Direction dst []
  delayed : s.fileBuf.empty = false → s.Holds s.fileBuf

/-- The state in which `Run` decides on a packet it has received. -/
structure Deciding (s : State) : Prop where
  direction : ∀ dst, s.Direction dst (s.pending dst)
  temp : s.Holds s.temp
  delayed : s.fileBuf.empty = false → s.Holds s.fileBuf

theorem holds_of_getElem? {t : State} {ev : EventList} (h : s.Holds ev)
    (hgrows : s.received ev.destination <+: t.received ev.destination) : t.Holds ev := by
  obtain ⟨rest, hrest⟩ := hgrows
  unfold State.Holds
  rw [← hrest, List.getElem?_append_left (List.getElem?_eq_some_iff.1 h).1]
  exact h

theorem deciding_receive (h : Inv s) {source : Peer} {packet : List Byte}
    (hfits : packet.length ≤ maxBufSize) : Deciding (s.receive source packet) := by
  constructor
  · intro dst
    have hdir := direction_receive source packet (h.direction dst)
    by_cases hdst : dst = source.other
    · subst hdst
      simpa [State.pending, State.receive] using hdir
    · have hdst' : ¬ source.other = dst := fun heq => hdst heq.symm
      simpa [State.pending, State.receive, hdst, hdst'] using hdir
  · simp only [State.Holds, EventList.packet, State.receive, Function.update_self,
      Buffer.take_overlay _ hfits]
    simp
  · intro hfull
    refine holds_of_getElem? (h.delayed hfull) ?_
    simp only [State.receive]
    by_cases hdst : s.fileBuf.destination = source.other
    · rw [hdst, Function.update_self]
      exact List.prefix_append _ _
    · simp only [Function.update_of_ne hdst, List.prefix_rfl]

/-- Each decision keeps the invariant. -/
theorem inv_dispatch (h : Deciding s) (delayed damaged : Bool) :
    Inv (s.dispatch delayed damaged .succeed) := by
  unfold State.dispatch
  split
  · rename_i hdelay
    have hempty : s.fileBuf.empty = true := (Bool.and_eq_true_iff.1 hdelay).1
    exact ⟨fun dst => direction_delay (h.direction dst) hempty, fun _ => h.temp⟩
  · split
    · exact ⟨fun dst => direction_drop (h.direction dst), h.delayed⟩
    · unfold State.forward
      rw [if_pos (by rfl)]
      dsimp only
      split
      · rename_i hflush
        obtain ⟨hfull, hsame⟩ := Bool.and_eq_true_iff.1 hflush
        have hfull' : s.fileBuf.empty = false := by simpa [State.sendto] using hfull
        have hsame' : s.fileBuf.destination = s.temp.destination := of_decide_eq_true hsame
        refine ⟨fun dst => ?_, by simp [State.sendProc]⟩
        exact (direction_overtake (h.direction dst) h.temp (h.delayed hfull') hfull' hsame').congr
          rfl rfl rfl rfl
      · rename_i hkeep
        refine ⟨fun dst => direction_sendto (h.direction dst) h.temp fun hdst => ?_, h.delayed⟩
        -- whatever is delayed goes the other way
        subst hdst
        exact if_neg hkeep

theorem inv_idle (h : Inv s) : Inv (s.idle .succeed) := by
  unfold State.idle
  split
  · exact h
  · rename_i hne
    have hfull : s.fileBuf.empty = false := by simpa using hne
    dsimp only
    split
    · refine ⟨fun dst => ?_, by simp [State.sendProc]⟩
      exact (direction_sendProc (h.direction dst) (h.delayed hfull) hfull).congr rfl rfl rfl rfl
    · exact ⟨fun dst => (h.direction dst).congr rfl rfl rfl rfl, h.delayed⟩

theorem inv_incoming (h : Inv s) {source : Peer} {packet : List Byte}
    (hfits : packet.length ≤ maxBufSize) (delayed damaged : Bool) :
    Inv (s.incoming source packet delayed damaged .succeed) := by
  have hready : Inv { s with
      waitCount := if s.fileBuf.empty then s.waitCount else s.waitCount + 1
      sock := Function.update s.sock source (s.sock source).tail } :=
    ⟨fun dst => (h.direction dst).congr rfl rfl rfl rfl, h.delayed⟩
  unfold State.incoming
  rw [if_pos (by simp [Calls.succeed, hfits])]
  exact inv_dispatch (deciding_receive hready hfits) _ _

/-- What one event does when the socket calls succeed. -/
theorem step_cases {t : State} {ev : Event} (hok : CallsSucceed s ev) (h : step s ev = some t) :
    (∃ source packet, ev = .arrive source packet ∧
        t = { s with sock := Function.update s.sock source (s.sock source ++ [packet]) }) ∨
      (∃ delayed damaged calls, ev = .cycle delayed damaged calls) ∧
        (t = s.idle .succeed ∨ ∃ source packet rest delayed damaged,
          s.sock source = packet :: rest ∧ packet.length ≤ maxBufSize ∧
            t = s.incoming source packet delayed damaged .succeed) := by
  cases ev with
  | arrive source packet =>
      cases h
      exact Or.inl ⟨source, packet, rfl, rfl⟩
  | cycle delayed damaged calls =>
      obtain ⟨rfl, hfits⟩ := hok
      cases h
      refine Or.inr ⟨⟨_, _, _, rfl⟩, ?_⟩
      unfold State.cycle
      rw [if_pos (show Calls.succeed.select = true from rfl)]
      cases hsock₁ : s.sock .host1 with
      | cons packet rest =>
          exact Or.inr ⟨.host1, packet, rest, delayed, damaged, hsock₁,
            hfits .host1 packet (by rw [hsock₁]; rfl), rfl⟩
      | nil =>
          cases hsock₂ : s.sock .host2 with
          | cons packet rest =>
              exact Or.inr ⟨.host2, packet, rest, delayed, damaged, hsock₂,
                hfits .host2 packet (by rw [hsock₂]; rfl), rfl⟩
          | nil => exact Or.inl rfl

theorem inv_step {t : State} {ev : Event} (h : Inv s) (hok : CallsSucceed s ev)
    (hstep : step s ev = some t) : Inv t := by
  rcases step_cases hok hstep with ⟨source, packet, -, rfl⟩ |
    ⟨-, rfl | ⟨source, packet, rest, delayed, damaged, -, hfits, rfl⟩⟩
  · exact ⟨fun dst => (h.direction dst).congr rfl rfl rfl rfl, h.delayed⟩
  · exact inv_idle h
  · exact inv_incoming h hfits delayed damaged

/-! ## What is received -/

/-- The packets that arrive from this peer. -/
def arrivals (source : Peer) (es : List Event) : List (List Byte) :=
  es.filterMap fun ev =>
    match ev with
    | .arrive source' packet => if source' = source then some packet else none
    | .cycle _ _ _ => none

theorem dispatch_frame (s : State) (delayed damaged : Bool) (calls : Calls) :
    (s.dispatch delayed damaged calls).received = s.received ∧
      (s.dispatch delayed damaged calls).sock = s.sock := by
  unfold State.dispatch State.forward State.sendProc
  dsimp only
  split_ifs <;> exact ⟨rfl, rfl⟩

theorem idle_frame (s : State) (calls : Calls) :
    (s.idle calls).received = s.received ∧ (s.idle calls).sock = s.sock := by
  unfold State.idle State.sendProc
  dsimp only
  split_ifs <;> exact ⟨rfl, rfl⟩

theorem incoming_frame (s : State) (source : Peer) {packet : List Byte}
    (hfits : packet.length ≤ maxBufSize) (delayed damaged : Bool) :
    let t := s.incoming source packet delayed damaged .succeed
    t.received = Function.update s.received source.other (s.received source.other ++ [packet]) ∧
      t.sock = Function.update s.sock source (s.sock source).tail := by
  dsimp only [State.incoming]
  rw [if_pos (by simp [Calls.succeed, hfits])]
  exact ⟨(dispatch_frame _ _ _ _).1, (dispatch_frame _ _ _ _).2⟩

theorem Peer.other_injective : Function.Injective Peer.other := by
  intro a b h
  cases a <;> cases b <;> first | rfl | cases h

/-- What was received for a destination, and what waits at the socket of the opposite peer, is what
has arrived from that peer. -/
theorem received_arrivals {b b' : Buffer} {es : List Event} {t : State}
    (hrun : Run step CallsSucceed (start b b') es t) (source : Peer) :
    t.received source.other ++ t.sock source = arrivals source es := by
  induction hrun with
  | nil => rfl
  | snoc hrun' hok hstep ih =>
      rename_i es ev s' t'
      have hsnoc : arrivals source (es ++ [ev]) = arrivals source es ++ arrivals source [ev] := by
        simp [arrivals]
      rw [hsnoc, ← ih]
      rcases step_cases hok hstep with ⟨source', packet, rfl, rfl⟩ |
        ⟨⟨_, _, _, rfl⟩, rfl | ⟨source', packet, rest, delayed, damaged, hsock, hfits, rfl⟩⟩
      · by_cases hsource : source' = source
        · subst hsource
          simp [arrivals]
        · simp [arrivals, hsource, Function.update_of_ne (Ne.symm hsource)]
      · rw [(idle_frame _ _).1, (idle_frame _ _).2]
        simp [arrivals]
      · obtain ⟨hreceived, hsock'⟩ := incoming_frame s' source' hfits delayed damaged
        rw [hreceived, hsock']
        by_cases hsource : source = source'
        · subst hsource
          simp [arrivals, hsock]
        · rw [Function.update_of_ne hsource,
            Function.update_of_ne fun heq => hsource (Peer.other_injective heq)]
          simp [arrivals]

/-! ## Whole runs -/

theorem inv_start (b b' : Buffer) : Inv (start b b') := by
  refine ⟨fun dst => ⟨⟨[], ?_, .nil⟩, ⟨List.nodup_nil, by simp [start]⟩, by simp [start]⟩, ?_⟩
  · simp [State.live, State.held, start, EventList.fresh]
  · simp [start, EventList.fresh]

/-- Whatever arrives from the two peers and whatever is decided, each packet received for a destination
is dropped, delayed or sent there once and unchanged, and the packets sent are those neither dropped
nor delayed with disjoint swaps of neighbours. -/
theorem forwards_faithfully (b b' : Buffer) (es : List Event) (s : State)
    (hrun : Run step CallsSucceed (start b b') es s) (dst : Peer) :
    s.received dst ++ s.sock dst.other = arrivals dst.other es ∧
      (s.dropped dst ++ s.held dst ++ (s.sent dst).map Prod.fst).Perm
        (List.range (s.received dst).length) ∧
      (∀ p ∈ s.sent dst, (s.received dst)[p.1]? = some p.2) ∧
      (∀ i ∈ s.held dst, (s.received dst)[i]? = some s.fileBuf.packet) ∧
      NeighbourSwaps
        ((List.range (s.received dst).length).filter fun i => i ∉ s.dropped dst ∧ i ∉ s.held dst)
        ((s.sent dst).map Prod.fst) := by
  have hinv : Inv s := hrun.invariant (fun _ _ _ hi hok hst => inv_step hi hok hst) (inv_start b b')
  have hother : dst.other.other = dst := by
    cases dst <;> rfl
  have harrivals := received_arrivals hrun dst.other
  rw [hother] at harrivals
  obtain ⟨⟨kept, hlive, hswaps⟩, ⟨hnodup, hlt⟩, hbytes⟩ := hinv.direction dst
  rw [List.append_nil] at hlive
  have hsplit : (kept ++ s.held dst).Nodup := by
    rw [← hlive]
    exact List.nodup_range.filter _
  -- without the delayed packet, the live indices are those that were kept
  have hkept : (List.range (s.received dst).length).filter
      (fun i => i ∉ s.dropped dst ∧ i ∉ s.held dst) = kept := by
    have hfilter : (List.range (s.received dst).length).filter
        (fun i => i ∉ s.dropped dst ∧ i ∉ s.held dst) =
        (s.live dst).filter fun i => i ∉ s.held dst := by
      rw [State.live, List.filter_filter]
      refine List.filter_congr fun i _ => ?_
      simp [and_comm]
    rw [hfilter, hlive, List.filter_append]
    have hall : kept.filter (fun i => i ∉ s.held dst) = kept :=
      List.filter_eq_self.2 fun i hi => decide_eq_true fun hmem =>
        (List.nodup_append.1 hsplit).2.2 i hi i hmem rfl
    have hnone : (s.held dst).filter (fun i => i ∉ s.held dst) = [] :=
      List.filter_eq_nil_iff.2 fun i hi => by simpa using hi
    rw [hall, hnone, List.append_nil]
  refine ⟨harrivals, ?_, hbytes, ?_, by rw [hkept]; exact hswaps⟩
  · -- a packet is dropped or live, and a live one is delayed or kept
    have hdropped : (s.dropped dst).Perm
        ((List.range (s.received dst).length).filter fun i => i ∈ s.dropped dst) := by
      refine (List.perm_ext_iff_of_nodup hnodup (List.nodup_range.filter _)).2 fun i => ?_
      simp only [List.mem_filter, List.mem_range, decide_eq_true_eq]
      exact ⟨fun h => ⟨hlt i h, h⟩, fun h => h.2⟩
    have hlive' : (s.held dst ++ (s.sent dst).map Prod.fst).Perm (s.live dst) := by
      rw [hlive]
      exact List.perm_append_comm.trans (hswaps.perm.symm.append_right _)
    have hrest : s.live dst = (List.range (s.received dst).length).filter
        fun i => !decide (i ∈ s.dropped dst) :=
      List.filter_congr fun i _ => by simp
    rw [List.append_assoc]
    refine (hlive'.append_left _).trans ((hdropped.append_right _).trans ?_)
    rw [hrest]
    exact List.filter_append_perm _ _
  · intro i hi
    unfold State.held at hi
    split at hi
    · rename_i hcond
      obtain ⟨hfull, hdst⟩ := Bool.and_eq_true_iff.1 hcond
      rw [List.mem_singleton.1 hi, ← of_decide_eq_true hdst]
      exact hinv.delayed (by simpa using hfull)
    · cases hi

/-- A buffer of zeros. -/
def zeroBuffer : Buffer := ⟨List.replicate maxBufSize 0, List.length_replicate⟩

instance (s : State) (ev : Event) : Decidable (CallsSucceed s ev) :=
  match ev with
  | .arrive _ _ => inferInstanceAs (Decidable True)
  | .cycle _ _ calls =>
      decidable_of_iff (calls = .succeed ∧
          (∀ packet ∈ (s.sock .host1).head?, packet.length ≤ maxBufSize) ∧
          ∀ packet ∈ (s.sock .host2).head?, packet.length ≤ maxBufSize)
        ⟨fun h => ⟨h.1, fun source => by cases source; exacts [h.2.1, h.2.2]⟩,
          fun h => ⟨h.1, h.2 .host1, h.2 .host2⟩⟩

/-- A packet is delayed, one of the other direction passes, one is dropped, and one overtakes. -/
def overtaking : List Event :=
  [.arrive .host1 [1], .cycle true false .succeed, .arrive .host2 [9], .cycle true false .succeed,
    .arrive .host1 [2], .cycle true true .succeed, .arrive .host1 [3], .cycle true false .succeed]

theorem forwards_faithfully_overtaking :
    ∃ s, Run step CallsSucceed (start zeroBuffer zeroBuffer) overtaking s ∧
      s.sent .host2 = [(2, [3]), (0, [1])] ∧
      NeighbourSwaps ((List.range (s.received .host2).length).filter fun i =>
        i ∉ s.dropped .host2 ∧ i ∉ s.held .host2) ((s.sent .host2).map Prod.fst) := by
  have hexec : ∃ s, Run step CallsSucceed (start zeroBuffer zeroBuffer) overtaking s ∧
      s.sent .host2 = [(2, [3]), (0, [1])] := exists_run_of_exec (by decide +kernel)
  obtain ⟨s, hrun, hsent⟩ := hexec
  exact ⟨s, hrun, hsent,
    (forwards_faithfully zeroBuffer zeroBuffer overtaking s hrun .host2).2.2.2.2⟩

end Router
end FileTransfer
