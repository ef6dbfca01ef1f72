import FileTransfer.Assign3.PairTransfer
import FileTransfer.Assign3.Programs
import FileTransfer.Lib.Solo

/-!
# The pair receiver after a loss

`udprecv` takes what arrives two by two.  `Grouping` is a receiver that does nothing else, and `groups_run`
shows that repeated calls of `udprecv` behave like it.  Whether a retransmission finds the receiver between
two pairs depends only on how many datagrams have come before it: `realigns_iff`.
-/

namespace FileTransfer
namespace Assign3

open Udp

/-! ## Grouping by two -/

/-- A receiver that groups packets by two: the number it expects, the first packet of a group, and the
chunks it has made. -/
structure Grouping where
  recTempSeq : Int
  pending : Option Udppacket
  accepted : List Buffer

namespace Grouping

/-- One more packet. -/
def take (g : Grouping) (p : Udppacket) : Grouping :=
  match g.pending with
  | none => { g with pending := some p }
  | some q =>
      if q.seqNo = g.recTempSeq ∧ p.seqNo = g.recTempSeq + 1 then
        ⟨g.recTempSeq + 2, none, g.accepted ++ [joinHalves q p]⟩
      else { g with pending := none }

/-- The number of packets of the group that is not complete. -/
def size (g : Grouping) : Nat := g.pending.toList.length

variable {g : Grouping} {p q : Udppacket}

theorem size_none (h : g.pending = none) : g.size = 0 := by rw [size, h]; rfl

theorem size_some (h : g.pending = some q) : g.size = 1 := by rw [size, h]; rfl

theorem size_lt (g : Grouping) : g.size < 2 := by
  cases h : g.pending with
  | none => exact size_none h ▸ Nat.succ_pos 1
  | some q => exact size_some h ▸ Nat.lt_succ_self 1

theorem take_none (h : g.pending = none) : g.take p = { g with pending := some p } := by
  simp only [take, h]

theorem take_match (h : g.pending = some q) (hq : q.seqNo = g.recTempSeq)
    (hp : p.seqNo = g.recTempSeq + 1) :
    g.take p = ⟨g.recTempSeq + 2, none, g.accepted ++ [joinHalves q p]⟩ := by
  simp only [take, h]
  exact if_pos ⟨hq, hp⟩

theorem take_other (h : g.pending = some q)
    (hne : ¬ (q.seqNo = g.recTempSeq ∧ p.seqNo = g.recTempSeq + 1)) :
    g.take p = { g with pending := none } := by
  simp only [take, h]
  exact if_neg hne

/-- Packets that make no chunk change nothing but the open group, whose size is their number modulo two. -/
theorem foldl_take (ps : List Udppacket) (g : Grouping) :
    g.accepted.length ≤ (ps.foldl take g).accepted.length ∧
      ((ps.foldl take g).accepted.length = g.accepted.length →
        (ps.foldl take g).accepted = g.accepted ∧ (ps.foldl take g).recTempSeq = g.recTempSeq ∧
          (ps.foldl take g).size = (g.size + ps.length) % 2) := by
  induction ps generalizing g with
  | nil => exact ⟨Nat.le_refl _, fun _ => ⟨rfl, rfl, (Nat.mod_eq_of_lt g.size_lt).symm⟩⟩
  | cons p ps ih =>
      obtain ⟨hle, hsame⟩ := ih (g.take p)
      rw [List.foldl_cons, List.length_cons]
      -- a packet that makes no chunk opens a group or closes one
      have hstep : g.accepted = (g.take p).accepted → g.recTempSeq = (g.take p).recTempSeq →
          (g.take p).size = (g.size + 1) % 2 →
          g.accepted.length ≤ (ps.foldl take (g.take p)).accepted.length ∧
            ((ps.foldl take (g.take p)).accepted.length = g.accepted.length →
              (ps.foldl take (g.take p)).accepted = g.accepted ∧
                (ps.foldl take (g.take p)).recTempSeq = g.recTempSeq ∧
                  (ps.foldl take (g.take p)).size = (g.size + (ps.length + 1)) % 2) := by
        intro hacc hrec hsize
        rw [hacc, hrec]
        refine ⟨hle, fun heq => ?_⟩
        obtain ⟨hacc', hrec', hsize'⟩ := hsame heq
        refine ⟨hacc', hrec', ?_⟩
        rw [hsize', hsize]
        omega
      cases hpending : g.pending with
      | none =>
          have htake := take_none (p := p) hpending
          apply hstep <;> rw [htake]
          rw [size_none hpending]
          rfl
      | some q =>
          by_cases hmatch : q.seqNo = g.recTempSeq ∧ p.seqNo = g.recTempSeq + 1
          · -- a chunk more
            have hlonger : (g.take p).accepted.length = g.accepted.length + 1 := by
              rw [take_match hpending hmatch.1 hmatch.2, List.length_append, List.length_singleton]
            exact ⟨by omega, fun heq => by omega⟩
          · have htake := take_other hpending hmatch
            apply hstep <;> rw [htake]
            rw [size_some hpending]
            rfl

/-- The pair arrives twice between two groups. -/
theorem retry_even {p₀ p₁ : Udppacket} (hpending : g.pending = none) (h₀ : p₀.seqNo = g.recTempSeq)
    (h₁ : p₁.seqNo = g.recTempSeq + 1) :
    ([p₀, p₁, p₀, p₁].foldl take g).accepted = g.accepted ++ [joinHalves p₀ p₁] := by
  -- the second copy is the pair before the expected one
  have hold : ¬ g.recTempSeq = g.recTempSeq + 2 := by omega
  simp [take, hpending, h₀, h₁, hold]

/-- The pair arrives twice within a group. -/
theorem retry_odd {p₀ p₁ : Udppacket} (hpending : g.pending = some q) (h₀ : p₀.seqNo = g.recTempSeq)
    (h₁ : p₁.seqNo = g.recTempSeq + 1) :
    ([p₀, p₁, p₀, p₁].foldl take g).accepted = g.accepted := by
  -- every group ends with a first half or begins with a second one
  have hclose : (g.take p₀).pending = none ∧ (g.take p₀).recTempSeq = g.recTempSeq ∧
      (g.take p₀).accepted = g.accepted := by
    rw [take_other hpending (by omega)]
    exact ⟨rfl, rfl, rfl⟩
  obtain ⟨hnone, hrec, hacc⟩ := hclose
  have hswapped : ((g.take p₀).take p₁).take p₀ = { g.take p₀ with pending := none } := by
    rw [take_none hnone, take_other rfl]
    simp only [hrec]
    omega
  rw [List.foldl_cons, List.foldl_cons, List.foldl_cons, List.foldl_cons, List.foldl_nil, hswapped,
    take_none rfl]
  exact hacc

end Grouping

/-! ## Repeated calls of `udprecv` -/

/-- The endpoint stands where the grouping receiver stands. -/
def Groups (g : Grouping) (e : Endpoint Transfer) : Prop :=
  (∃ got, e.app = .receiver got) ∧ e.mem.recTempSeq = g.recTempSeq ∧ e.hist.chunksAccepted = g.accepted ∧
    match e.ctl with
    | .idle => g.pending = none
    | .udprecvFirst => g.pending = none
    | .udprecvSecond ibytesrecv => 0 < ibytesrecv ∧ g.pending = some e.mem.recvmsg
    | _ => False

section

variable {g : Grouping} {e : Endpoint Transfer} {d : Datagram} {j : Junk}
  {p : Endpoint Transfer × List Datagram} {t u : Solo (Endpoint Transfer) Datagram}
  {es fs : List (SoloEvent Act Junk Datagram)}

/-- `udprecv` begins. -/
theorem Groups.act {i : Act} (h : Groups g e) (hp : (machine transferApp).act e i = some p) :
    Groups g p.1 := by
  obtain ⟨⟨got, happ⟩, hrec, hacc, hctl⟩ := h
  cases hc : e.ctl <;> rw [hc] at hctl
  case idle =>
    cases i <;> simp [machine, Endpoint.nextCall, Endpoint.timeout, hc, happ, transferApp] at hp
    subst hp
    exact ⟨⟨got, happ⟩, hrec, hacc, hctl⟩
  case udprecvFirst =>
    cases i <;> simp [machine, Endpoint.nextCall, Endpoint.timeout, hc] at hp
  case udprecvSecond =>
    cases i <;> simp [machine, Endpoint.nextCall, Endpoint.timeout, hc] at hp
  all_goals cases hctl

/-- The second packet of a group. -/
theorem Groups.answerPair {got : List Buffer} (happ : e.app = .receiver got) (hrec : e.mem.recTempSeq = g.recTempSeq)
    (hacc : e.hist.chunksAccepted = g.accepted) (hpending : g.pending = some e.mem.recvmsg) :
    Groups (g.take e.mem.recvmsg2) (e.answerPair transferApp j).1 := by
  by_cases hmatch : e.mem.recvmsg.seqNo = e.mem.recTempSeq ∧
      e.mem.recvmsg2.seqNo = e.mem.recTempSeq + 1
  · rw [Grouping.take_match hpending (hrec ▸ hmatch.1) (hrec ▸ hmatch.2)]
    simp only [Endpoint.answerPair, if_pos hmatch]
    refine ⟨⟨_, by simp only [Endpoint.finish, transferApp, happ]; rfl⟩, ?_, ?_, rfl⟩
    · simp [Endpoint.finish, Members.answerBoth, hrec]
    · simp [Endpoint.finish, hacc]
  · rw [Grouping.take_other hpending (hrec ▸ hmatch)]
    simp only [Endpoint.answerPair, if_neg hmatch]
    split
    · exact ⟨⟨got, by simp [Endpoint.finish, transferApp, happ]⟩, hrec, hacc, rfl⟩
    · exact ⟨⟨got, by simp [Endpoint.finish, transferApp, happ]⟩, hrec, hacc, rfl⟩

/-- A datagram joins the group. -/
theorem Groups.recv (h : Groups g e) (hlen : d.len = sizeofUdppacket)
    (hp : (machine transferApp).recv e j d = some p) : Groups (g.take d.pkt) p.1 := by
  obtain ⟨⟨got, happ⟩, hrec, hacc, hctl⟩ := h
  cases hc : e.ctl <;> rw [hc] at hctl
  case idle => simp [machine, Endpoint.packet, hc] at hp
  case udprecvFirst =>
    simp only [machine, Endpoint.packet, hc, Option.some.injEq] at hp
    subst hp
    rw [Grouping.take_none hctl]
    refine ⟨⟨got, happ⟩, hrec, hacc, ?_⟩
    simp only [Endpoint.recvInPairFirst, recvfrom_full _ hlen]
    exact ⟨by decide, trivial⟩
  case udprecvSecond ibytesrecv =>
    obtain ⟨hpos, hpending⟩ := hctl
    simp only [machine, Endpoint.packet, hc, Option.some.injEq] at hp
    subst hp
    have hboth : 0 < ibytesrecv ∧ (0 : Int) < sizeofUdppacket := ⟨hpos, by decide⟩
    simp only [Endpoint.recvInPairSecond, recvfrom_full _ hlen, if_pos hboth]
    exact Groups.answerPair happ hrec hacc hpending
  all_goals cases hctl

/-- Repeated calls of `udprecv` group what arrives by two. -/
theorem groups_run (h : Groups g t.node)
    (hrun : Run (soloStep (machine transferApp)) anyStep t es u)
    (hwhole : ∀ d ∈ received es, d.len = sizeofUdppacket) :
    Groups (((received es).map Datagram.pkt).foldl Grouping.take g) u.node := by
  induction hrun with
  | nil => exact h
  | @snoc es ev u v _ _ hst ih =>
      obtain ⟨p, hp, rfl⟩ := soloStep_eq_some.1 hst
      rw [received_append] at hwhole ⊢
      have hbefore := ih fun d hd => hwhole d (List.mem_append_left _ hd)
      cases ev with
      | act i =>
          rw [received_act, List.append_nil]
          exact hbefore.act hp
      | recv j d =>
          rw [received_recv, List.map_append, List.foldl_append]
          exact hbefore.recv (hwhole d (by simp)) hp

/-- After any datagrams that have made no chunk, a retransmission that arrives twice is accepted exactly
when their number is even. -/
theorem realigns_iff {e : Endpoint Transfer} {got : List Buffer} (happ : e.app = .receiver got) (hctl : e.ctl = .idle)
    (hstream : Run (soloStep (machine transferApp)) anyStep ⟨e, []⟩ es t)
    (hwhole : ∀ d ∈ received es, d.len = sizeofUdppacket)
    (hunfinished : t.node.hist.chunksAccepted = e.hist.chunksAccepted)
    (hretry : Run (soloStep (machine transferApp)) anyStep t fs u) {p₀ p₁ : Udppacket}
    (hpair : received fs =
      [.whole p₀ .pair, .whole p₁ .pair, .whole p₀ .pair, .whole p₁ .pair])
    (h₀ : p₀.seqNo = e.mem.recTempSeq) (h₁ : p₁.seqNo = e.mem.recTempSeq + 1) :
    u.node.hist.chunksAccepted = e.hist.chunksAccepted ++ [joinHalves p₀ p₁] ↔
      (received es).length % 2 = 0 := by
  have hstart : Groups ⟨e.mem.recTempSeq, none, e.hist.chunksAccepted⟩ e := by
    refine ⟨⟨got, happ⟩, rfl, rfl, ?_⟩
    rw [hctl]
  have hmiddle := groups_run hstart hstream hwhole
  generalize hg : ((received es).map Datagram.pkt).foldl Grouping.take
    ⟨e.mem.recTempSeq, none, e.hist.chunksAccepted⟩ = g at hmiddle
  -- nothing was accepted before the retransmission
  obtain ⟨-, hsame⟩ := Grouping.foldl_take ((received es).map Datagram.pkt)
    ⟨e.mem.recTempSeq, none, e.hist.chunksAccepted⟩
  rw [hg] at hsame
  obtain ⟨hacc, hrec, hsize⟩ := hsame (by rw [← hmiddle.2.2.1, hunfinished])
  have hend := groups_run hmiddle hretry (by simp [hpair, Datagram.whole])
  have hbefore : g.accepted = e.hist.chunksAccepted := hacc
  rw [hend.2.2.1, hpair, ← hbefore]
  have hcount : g.size = (received es).length % 2 := by
    rw [hsize, List.length_map]
    simp [Grouping.size]
  rw [← hcount]
  cases hpending : g.pending with
  | none =>
      refine iff_of_true ?_ (Grouping.size_none hpending)
      exact Grouping.retry_even hpending (hrec ▸ h₀) (hrec ▸ h₁)
  | some q =>
      refine iff_of_false ?_ (by simp [Grouping.size_some hpending])
      have hrefused : ([p₀, p₁, p₀, p₁].foldl Grouping.take g).accepted = g.accepted :=
        Grouping.retry_odd hpending (hrec ▸ h₀) (hrec ▸ h₁)
      intro haccepted
      simpa using hrefused.symm.trans haccepted

end

/-- The receiving loops call `udprecv` again after `NULL`, as `Transfer.receiver` does. -/
theorem retries {x : FileReceiving} (hmore : x.fsize > bufferLength) :
    (∀ c : Client, c.at = .receiving x →
      c.call = some .udprecv ∧ (c.resume (.udprecv none)).call = some .udprecv) ∧
    ∀ s : Server, s.at = .receiving x →
      s.call = .udprecv ∧ (s.resume (.udprecv none)).call = .udprecv := by
  have hcall : x.call = .udprecv := if_pos hmore
  have hpos : x.fsize > 0 := by omega
  refine ⟨fun c hc => ⟨by simp [Client.call, hc, hcall], ?_⟩,
    fun s hs => ⟨by simp [Server.call, hs, hcall], ?_⟩⟩
  · simp [Client.resume, hc, FileReceiving.next, Client.recvLoop, hpos, Client.goto, Client.call, hcall]
  · simp [Server.resume, hs, FileReceiving.next, Server.recvLoop, hpos, Server.goto, Server.call, hcall]

/-- A receiver that waits for its first pair. -/
def firstPairReceiver : Endpoint Transfer := ⟨.client, zeroMembers, .idle, .receiver [], .empty⟩

/-- The halves of that pair. -/
def firstHalf : Udppacket := ⟨0, .ofBytes [1]⟩
def secondHalf : Udppacket := ⟨1, .ofBytes [2]⟩

def soloRuns : SoloEvent Act Junk Datagram := .act .run
def soloArrives (p : Udppacket) : SoloEvent Act Junk Datagram := .recv ⟨[], []⟩ (.whole p .pair)

/-- The halves arrive in the wrong order, and then twice in the right one. -/
theorem realigns_after_swap : ∃ t u,
    Run (soloStep (machine transferApp)) anyStep ⟨firstPairReceiver, []⟩
      [soloRuns, soloArrives secondHalf, soloArrives firstHalf] t ∧
    Run (soloStep (machine transferApp)) anyStep t
      [soloRuns, soloArrives firstHalf, soloArrives secondHalf,
        soloRuns, soloArrives firstHalf, soloArrives secondHalf] u ∧
    u.node.hist.chunksAccepted = [joinHalves firstHalf secondHalf] := by
  obtain ⟨t, hstream, hnone, hretry⟩ := exists_solo_run (machine transferApp) ⟨firstPairReceiver, []⟩
    [soloRuns, soloArrives secondHalf, soloArrives firstHalf]
    (fun t => t.node.hist.chunksAccepted = [] ∧
      (exec (soloStep (machine transferApp)) t
        [soloRuns, soloArrives firstHalf, soloArrives secondHalf,
          soloRuns, soloArrives firstHalf, soloArrives secondHalf]).isSome) (by decide +kernel)
  obtain ⟨u, hu⟩ := Option.isSome_iff_exists.1 hretry
  refine ⟨t, u, hstream, run_of_exec_any hu, ?_⟩
  refine (realigns_iff rfl rfl hstream ?_ hnone (run_of_exec_any hu) rfl rfl rfl).2 rfl
  decide

/-- The first half is lost once: the retransmission is grouped the wrong way, and nothing is accepted. -/
theorem never_realigns : ∃ t u,
    Run (soloStep (machine transferApp)) anyStep ⟨firstPairReceiver, []⟩
      [soloRuns, soloArrives secondHalf] t ∧ t.node.hist.chunksAccepted = [] ∧
    Run (soloStep (machine transferApp)) anyStep t
      [soloArrives firstHalf, soloRuns, soloArrives secondHalf, soloArrives firstHalf,
        soloRuns, soloArrives secondHalf] u ∧
    u.node.hist.chunksAccepted = [] := by
  obtain ⟨t, hstream, hnone, hretry⟩ := exists_solo_run (machine transferApp) ⟨firstPairReceiver, []⟩
    [soloRuns, soloArrives secondHalf]
    (fun t => t.node.hist.chunksAccepted = [] ∧
      ∃ u ∈ exec (soloStep (machine transferApp)) t
        [soloArrives firstHalf, soloRuns, soloArrives secondHalf, soloArrives firstHalf,
          soloRuns, soloArrives secondHalf], u.node.hist.chunksAccepted = []) (by decide +kernel)
  obtain ⟨u, hu, hrefused⟩ := hretry
  exact ⟨t, u, hstream, hnone, run_of_exec_any hu, hrefused⟩

end Assign3
end FileTransfer
