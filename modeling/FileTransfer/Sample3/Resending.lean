import FileTransfer.Sample3.AckBookkeeping
import FileTransfer.Sample3.FilePhase

/-!
# What a timeout sends again, and which packets are sent at all

The sender's side against an arbitrary network: a call of `udp_sendtoEx` waits, and any packet may
arrive, or none.
-/

namespace FileTransfer
namespace Sample3

namespace SockLib

variable {s : SockLib} {o : Oracle} {l l' : SendtoEx} {n : Nat} {out out' : List Datagram}
  {udp : UdpPacket} {x : Datagram}

/-! ## The packets of a timeout -/

theorem libSendto_true {d : Datagram} (h : libSendto o out d = (out', true)) :
    out' = out ++ [d] ∧ o.sendOk out.length = true := by
  unfold libSendto at h
  split at h
  · rename_i hok
    cases h
    exact ⟨rfl, hok⟩
  · cases h

/-- A loop that is not stopped by an error sends its slots in order. -/
theorem sendSlots_true (h : s.sendSlots o n out = (out', true)) :
    out' = out ++ (List.range n).map s.slotDatagram ∧
      ∀ i < n, o.sendOk (out.length + i) = true := by
  induction n generalizing out' with
  | zero =>
      cases h
      simp
  | succ n ih =>
      unfold sendSlots at h
      split at h
      · rename_i out₁ heq
        obtain ⟨hout, hok⟩ := ih heq
        obtain ⟨hsent, hlast⟩ := libSendto_true h
        refine ⟨?_, ?_⟩
        · rw [hsent, hout, List.range_succ, List.map_append, List.append_assoc]
          rfl
        · intro i hi
          rcases Nat.lt_succ_iff_lt_or_eq.1 hi with hlt | rfl
          · exact hok i hlt
          · rw [hout] at hlast
            simpa using hlast
      · cases h

/-- `send_all_win_packets(1)` leaves the last packet out, and sends the one before it twice. -/
theorem resendAll_true (h : s.resendAll o = (out, true)) :
    out = (List.range (s.winBufPos - 1)).map s.slotDatagram ++ [s.slotDatagram (s.winBufPos - 2)] ∧
      ∀ i < s.winBufPos - 1 + 1, o.sendOk i = true := by
  unfold resendAll at h
  split at h
  · rename_i out₁ heq
    obtain ⟨hloop, hok⟩ := sendSlots_true heq
    obtain ⟨hsent, hlast⟩ := libSendto_true h
    rw [List.nil_append] at hloop
    refine ⟨by rw [hsent, hloop], ?_⟩
    intro i hi
    rcases Nat.lt_succ_iff_lt_or_eq.1 hi with hlt | rfl
    · simpa using hok i hlt
    · rw [hloop] at hlast
      simpa using hlast
  · cases h

theorem sendtoExLoop_waits (h : s.sendtoExLoop o l out = (out', .waits l')) :
    l' = l ∧ out' = out ++ (if l.waitForACK then [] else [s.slotDatagram l.buf]) ∧
      0 < l.retryCnt ∧ (l.waitForACK = false → o.sendOk out.length = true) := by
  unfold sendtoExLoop at h
  split at h
  · cases h
  · rename_i hretry
    have hpos : 0 < l.retryCnt := Nat.pos_of_ne_zero hretry
    split at h
    · rename_i hwait
      cases h
      simp [hwait, hpos]
    · rename_i hwait
      split at h
      · rename_i out₁ heq
        obtain ⟨hout, hok⟩ := libSendto_true heq
        cases h
        simp [hout, hok, hwait, hpos]
      · cases h

/-- The number of sends of a timeout: those of `send_all_win_packets(1)`, and the packet in `buf` until
an acknowledgement has been taken in. -/
def resends (s : SockLib) (l : SendtoEx) : Nat :=
  s.winBufPos - 1 + 1 + if l.waitForACK then 0 else 1

/-- A timeout after which the call waits again: the packet in `buf` follows what
`send_all_win_packets(1)` sends, unless an acknowledgement has been taken in. -/
theorem udpSendtoExTimeout_waits (h : s.udpSendtoExTimeout o l = (out, .waits l')) :
    out = (List.range (s.winBufPos - 1)).map s.slotDatagram ++ [s.slotDatagram (s.winBufPos - 2)] ++
        (if l.waitForACK then [] else [s.slotDatagram l.buf]) ∧
      1 < l.retryCnt ∧ ∀ i < s.resends l, o.sendOk i = true := by
  unfold udpSendtoExTimeout at h
  dsimp only at h
  split at h
  · cases h
  · rename_i out₁ heq
    obtain ⟨hresend, hok⟩ := resendAll_true heq
    split at h
    · cases h
    · rename_i out₂ hspecial
      obtain ⟨-, hout, hretry, hbuf⟩ := sendtoExLoop_waits h
      -- a call that waits again has retries left, so there is no special request
      rw [if_neg (Nat.pos_iff_ne_zero.1 hretry)] at hspecial
      cases hspecial
      have hlen : out₁.length = s.winBufPos - 1 + 1 := by
        rw [hresend]
        simp
      refine ⟨by rw [hout, hresend], by simp only at hretry; omega, ?_⟩
      intro i hi
      by_cases hfirst : i < s.winBufPos - 1 + 1
      · exact hok i hfirst
      · unfold resends at hi
        cases hwait : l.waitForACK with
        | true =>
            rw [hwait] at hi
            exact absurd hi hfirst
        | false =>
            rw [hwait] at hi
            have heq : i = out₁.length := by
              simp only [Bool.false_eq_true, if_false] at hi
              omega
            rw [heq]
            exact hbuf hwait

theorem slotDatagram_inj {i j : Nat} : s.slotDatagram i = s.slotDatagram j ↔ s.winBuf i = s.winBuf j := by
  simp [slotDatagram]

/-- The packets of a timeout are the whole window when the packet in `buf` is sent too, when the window
holds one packet, or when another slot looks like the last one. -/
theorem resends_all_iff (hpos : 0 < s.winBufPos)
    (hbuf : l.waitForACK = false → l.buf = s.winBufPos - 1)
    (h : s.udpSendtoExTimeout o l = (out, .waits l')) :
    (∀ i < s.winBufPos, s.slotDatagram i ∈ out) ↔
      l.waitForACK = false ∨ s.winBufPos = 1 ∨
        ∃ i, i + 1 < s.winBufPos ∧ s.winBuf i = s.winBuf (s.winBufPos - 1) := by
  have hout := (udpSendtoExTimeout_waits h).1
  have hfront : ∀ i, i + 1 < s.winBufPos → s.slotDatagram i ∈ out := by
    intro i hi
    rw [hout]
    simp only [List.mem_append, List.mem_map, List.mem_range]
    exact Or.inl (Or.inl ⟨i, by omega, rfl⟩)
  have hlast : s.slotDatagram (s.winBufPos - 1) ∈ out →
      ∀ i < s.winBufPos, s.slotDatagram i ∈ out := by
    intro hmem i hi
    by_cases hi' : i + 1 < s.winBufPos
    · exact hfront i hi'
    · have heq : i = s.winBufPos - 1 := by omega
      rw [heq]
      exact hmem
  constructor
  · intro hall
    have hmem := hall (s.winBufPos - 1) (by omega)
    cases hwait : l.waitForACK with
    | false => exact Or.inl rfl
    | true =>
        -- the last packet is among the others, or it is the packet sent twice
        rw [hout, hwait] at hmem
        simp only [if_true, List.append_nil, List.mem_append, List.mem_map, List.mem_range,
          List.mem_singleton, slotDatagram_inj] at hmem
        by_cases hone : s.winBufPos = 1
        · exact Or.inr (Or.inl hone)
        · rcases hmem with ⟨i, hi, heq⟩ | heq
          · exact Or.inr (Or.inr ⟨i, by omega, heq⟩)
          · exact Or.inr (Or.inr ⟨s.winBufPos - 2, by omega, heq.symm⟩)
  · rintro (hwait | hone | ⟨i, hi, heq⟩) <;> apply hlast
    · rw [hout, hwait, hbuf hwait]
      simp
    · rw [hout, hone]
      simp
    · rw [← slotDatagram_inj.2 heq]
      exact hfront i hi

/-! ## The packets of an answer -/

/-- A call that acts on an acknowledgement sends nothing of its window. -/
theorem udpSendtoExPacket_answer (htype : udp.ackType.IsAnswer) :
    (s.udpSendtoExPacket o l udp).2.1 = [] := by
  have hloop : ∀ (t : SockLib) (l' : SendtoEx), l'.waitForACK = true →
      (t.sendtoExLoop o l' []).1 = [] := by
    intro t l' hwait
    unfold sendtoExLoop
    rw [hwait]
    split <;> rfl
  cases hack : udp.ackType with
  | ack =>
      simp only [udpSendtoExPacket, hack, udpSendtoExAck]
      split
      · rfl
      · exact hloop _ _ rfl
      · split
        · rfl
        · exact hloop _ _ rfl
  | nack => simp only [udpSendtoExPacket, hack, udpSendtoExNack]
  | sack => simp only [udpSendtoExPacket, hack, udpSendtoExNack]
  | _ => simp [hack, AckType.IsAnswer] at htype

theorem udpSendtoExPacket_unknown (htype : ¬ udp.ackType.IsAnswer) :
    s.udpSendtoExPacket o l udp = (s, s.udpSendtoExUnknown o l udp) := by
  cases hack : udp.ackType <;> simp [hack, AckType.IsAnswer] at htype <;>
    simp [udpSendtoExPacket, hack]

/-- A packet of the window that goes out when `udp_sendtoEx` takes a packet in is the one in `buf`, and
the window has not changed. -/
theorem udpSendtoExPacket_window (hx : x ∈ (s.udpSendtoExPacket o l udp).2.1)
    (hsite : x.site = .window) :
    (s.udpSendtoExPacket o l udp).1 = s ∧ l.waitForACK = false ∧ x = s.slotDatagram l.buf := by
  by_cases htype : udp.ackType.IsAnswer
  · rw [udpSendtoExPacket_answer htype] at hx
    cases hx
  · rcases mem_udpSendtoExPacket hx with ⟨hwait, rfl⟩ | ⟨-, -, rfl⟩
    · exact ⟨by rw [udpSendtoExPacket_unknown htype], hwait, rfl⟩
    · cases hsite

/-- A call that waits again after a packet has seen an acknowledgement, or nothing has changed. -/
theorem udpSendtoExPacket_waits (h : (s.udpSendtoExPacket o l udp).2.2 = .waits l') :
    l'.waitForACK = true ∨ (l' = l ∧ (s.udpSendtoExPacket o l udp).1 = s) := by
  have houtcome := udpSendtoExPacket_outcome s o l udp
  rw [h] at houtcome
  cases houtcome with
  | ignores hlib => exact Or.inr ⟨rfl, hlib⟩
  | waits hwait _ => exact Or.inl hwait

end SockLib

/-! ## The local variables of a waiting call -/

/-- The endpoint after `copy_2_winbuf(buf)` has put the packet into the window, before the window is
sent. -/
def Endpoint.copied {π : Type*} (e : Endpoint π) (buf : Payload) : Endpoint π :=
  { e with
    lib := (e.lib.copy2Winbuf buf).1
    log := e.log ++ if e.lib.winBufPos < e.lib.wSize then
      [Event.numbered (e.lib.addUdpheader buf).2] else [] }

theorem Endpoint.copyAndSend_eq {π : Type*} (A : App π) (e : Endpoint π) (o : Oracle) (buf : Payload)
    (k : SendCaller) : e.copyAndSend A o buf k =
      if (e.lib.copy2Winbuf buf).2 then (e.copied buf).enterSend A o k
      else ((e.copied buf).afterSend A k 1, []) := rfl

/-- Until a call acts on an acknowledgement, `buf` is the last packet of the window and no packet is
marked. -/
def SockLib.FreshUntilAck (s : SockLib) (l : SendtoEx) : Prop :=
  l.waitForACK = false → l.buf = s.winBufPos - 1 ∧ l.arrACK = .zero

/-- The local variables of a call of `udp_sendtoEx` that waits for a datagram. -/
def Control.locals : Control → Option SendtoEx
  | .udpSendtoEx l _ => some l
  | _ => none

def LocalsPart {π : Type*} (e : Endpoint π) : Prop :=
  ∀ l, e.ctl.locals = some l → e.lib.FreshUntilAck l

section

variable {π : Type*} {A : App π} {e : Endpoint π} {o : Oracle} {k : SendCaller}
  {l l' : SendtoEx} {p : Endpoint π × List Datagram} {d : Datagram}
  {ev : SoloEvent Act Oracle Datagram}

theorem locals_eq_some {c : Control} : c.locals = some l ↔ ∃ k, c = .udpSendtoEx l k := by
  cases c <;> simp [Control.locals]

theorem Control.IsSendRest.locals {c : Control} (h : c.IsSendRest) : c.locals = none := by
  cases c <;> first | rfl | exact h.elim

theorem Control.IsRest.locals {c : Control} (h : c.IsRest) : c.locals = none := by
  cases c <;> first | rfl | exact h.elim

theorem localsPart_of_none (h : e.ctl.locals = none) : LocalsPart e := by
  intro l hl
  rw [h] at hl
  cases hl

/-- Where `settle` waits, the call goes on with the locals it was given. -/
theorem settle_waits {oc : Outcome} (h : (e.settle A k oc).ctl.locals = some l') :
    oc = .waits l' := by
  cases oc with
  | waits l =>
      cases h
      rfl
  | returns r =>
      have hnone : (e.afterSend A k r).ctl.locals = none :=
        (Endpoint.afterSend_isSendRest k r).locals
      cases hnone.symm.trans h

theorem locals_settle {oc : Outcome} (h : ∀ l', oc = .waits l' → e.lib.FreshUntilAck l') :
    LocalsPart (e.settle A k oc) := by
  intro l' hctl
  rw [(Endpoint.moves_settle k oc).lib]
  exact h l' (settle_waits hctl)

theorem locals_finish (r : Ret) : LocalsPart (e.finish A r) :=
  localsPart_of_none rfl

/-- `send_all_win_packets` starts to wait with `buf` at the last packet. -/
theorem locals_enterSend : LocalsPart (e.enterSend A o k).1 := by
  refine locals_settle ?_
  intro l' hoc
  rcases SockLib.sendAllWinPackets_outcome (s := e.lib) (o := o) with h | h
  · cases h.symm.trans hoc
    exact fun _ => ⟨rfl, rfl⟩
  · cases h.symm.trans hoc

theorem locals_copyAndSend (buf : Payload) : LocalsPart (e.copyAndSend A o buf k).1 := by
  rw [Endpoint.copyAndSend_eq]
  split
  · exact locals_enterSend
  · exact localsPart_of_none (Endpoint.afterSend_isSendRest k 1).locals

theorem locals_sendHandshake (udp : UdpPacket) (retryCnt : Nat) (hs : Handshake) :
    LocalsPart (e.sendHandshake A o udp retryCnt hs).1 := by
  unfold Endpoint.sendHandshake
  split
  · exact locals_finish _
  · split
    · exact localsPart_of_none rfl
    · exact locals_finish _

theorem locals_begin (c : Call) : LocalsPart (e.begin A o c).1 := by
  cases c with
  | udpInit _ _ => exact locals_finish _
  | clientHandshake _ _ => exact locals_sendHandshake _ _ _
  | serverHandshake _ => exact localsPart_of_none rfl
  | sockSendtoEx buf flag => exact locals_copyAndSend buf
  | sendFile file =>
      cases file with
      | none => exact locals_finish _
      | some content => exact localsPart_of_none rfl
  | sockRecvfrom _ => exact localsPart_of_none rfl
  | recvFile canOpen _ =>
      cases canOpen with
      | true => exact localsPart_of_none rfl
      | false => exact locals_finish _
  | srvWait4cnn _ => exact localsPart_of_none rfl

theorem locals_run (h : e.run A o = some p) : LocalsPart p.1 := by
  unfold Endpoint.run at h
  split at h
  · obtain ⟨c, -, rfl⟩ := Option.map_eq_some_iff.1 h
    exact locals_begin c
  · cases h
    unfold Endpoint.readAndCopy
    split
    · exact localsPart_of_none rfl
    · exact locals_copyAndSend _
  · cases h
    exact locals_enterSend
  · cases h
    exact locals_enterSend
  · cases h
    exact localsPart_of_none Endpoint.recvPiece_isRest.locals
  · cases h

theorem locals_timeout (hinv : LocalsPart e) (h : e.timeout A o = some p) : LocalsPart p.1 := by
  unfold Endpoint.timeout at h
  split at h
  · rename_i l k hctl
    cases h
    refine locals_settle ?_
    intro l' hoc
    -- the retry keeps `buf` and `waitForACK`, and clears the marks
    rcases SockLib.udpSendtoExTimeout_outcome (s := e.lib) (o := o) (l := l) with h | h
    · cases h.symm.trans hoc
      intro hwait
      exact ⟨(hinv l (by rw [hctl]; rfl) hwait).1, rfl⟩
    · cases h.symm.trans hoc
  · cases h
    exact locals_sendHandshake _ _ _
  · cases h
    exact localsPart_of_none (Endpoint.recvLoop_isRest _).locals
  · cases h
    exact hinv
  · cases h
    exact localsPart_of_none (Endpoint.lingerLoop_isRest _).locals
  · cases h

theorem locals_error (h : e.error A = some p) : LocalsPart p.1 := by
  unfold Endpoint.error at h
  split at h <;> cases h
  · exact localsPart_of_none (Endpoint.afterSend_isSendRest _ _).locals
  · exact locals_finish _
  · exact localsPart_of_none (Endpoint.recvFailed_isRest _).locals
  · exact locals_finish _
  · exact locals_finish _

theorem locals_recv (hinv : LocalsPart e) (h : (machine A).recv e o d = some p) :
    LocalsPart p.1 := by
  rcases recv_cases h with ⟨l, k, hctl, rfl⟩ | ⟨udp, r, hs, -, rfl⟩ | ⟨left, got, k, -, rfl⟩ |
    ⟨-, rfl⟩ | ⟨sec, -, rfl⟩
  · have hwaits : ∀ l', (e.lib.udpSendtoExPacket o l d.pkt).2.2 = .waits l' →
        (e.lib.udpSendtoExPacket o l d.pkt).1.FreshUntilAck l' := by
      intro l' hoc
      rcases SockLib.udpSendtoExPacket_waits hoc with hwait | ⟨rfl, hlib⟩
      · intro hfalse
        rw [hwait] at hfalse
        cases hfalse
      · rw [hlib]
        exact hinv l' (by rw [hctl]; rfl)
    rcases Endpoint.recvInSend_cases (A := A) (o := o) e l k d with
      ⟨-, -, hp⟩ | ⟨-, hp⟩ <;> rw [hp] <;> exact locals_settle hwaits
  · unfold Endpoint.recvInHandshake
    dsimp only
    split <;> exact locals_finish _
  · rcases recvInData_cases (A := A) (o := o) e left got k d with
      ⟨-, hp⟩ | ⟨-, -, hp⟩ | ⟨-, -, out, hp, -⟩ <;> rw [hp] <;>
      exact localsPart_of_none (Endpoint.recvLoop_isRest _).locals
  · unfold Endpoint.recvInServerHandshake
    dsimp only
    split <;> exact locals_finish _
  · exact localsPart_of_none (Endpoint.lingerLoop_isRest _).locals

/-- Every step keeps the invariant of the locals. -/
theorem LocalsPart.step (hinv : LocalsPart e) (h : (machine A).step e ev = some p) :
    LocalsPart p.1 := by
  cases ev with
  | act i =>
      cases i with
      | run o => exact locals_run h
      | timeout o => exact locals_timeout hinv h
      | error => exact locals_error h
  | recv o d => exact locals_recv hinv h

end

/-! ## What a timeout sends again -/

/-- A program that makes these calls one after the other, whatever they return. -/
def scriptApp : App (List Call) where
  call cs := cs.head?
  resume cs _ := cs.tail

/-- An endpoint that is about to make these calls on a new object. -/
def scriptStart (wSize : Nat) (cs : List Call) : Solo (Endpoint (List Call)) Datagram where
  node := { lib := SockLib.zero.udpInit wSize, ctl := .idle, app := cs, log := [] }
  sent := []

section

variable {π : Type*} {A : App π} {start t : Solo (Endpoint π) Datagram} {o : Oracle}
  {k k' : SendCaller} {l l' : SendtoEx} {p : Endpoint π × List Datagram}
  {es : List (SoloEvent Act Oracle Datagram)}

/-- In every state that any program reaches, a timeout after which the call waits again resends the whole
window exactly when the call has not acted on an acknowledgement yet, or the window holds one packet.  The
third case, a second packet equal to the last one, does not occur while the numbers in the window
differ. -/
theorem timeout_resends_window_iff (hidle : start.node.ctl = .idle)
    (hrun : Run (soloStep (machine A)) anyStep start es t) (hctl : t.node.ctl.locals = some l)
    (hpos : 0 < t.node.lib.winBufPos) (hstep : t.node.timeout A o = some p)
    (hwaits : p.1.ctl.locals = some l') :
    (∀ i < t.node.lib.winBufPos, t.node.lib.slotDatagram i ∈ p.2) ↔
      l.waitForACK = false ∨ t.node.lib.winBufPos = 1 ∨
        ∃ i, i + 1 < t.node.lib.winBufPos ∧
          t.node.lib.winBuf i = t.node.lib.winBuf (t.node.lib.winBufPos - 1) := by
  have hlocals : LocalsPart t.node := by
    refine hrun.solo_invariant (fun _ _ _ hinv _ hp => hinv.step hp) ?_
    exact localsPart_of_none (by rw [hidle]; rfl)
  obtain ⟨k, hk⟩ := locals_eq_some.1 hctl
  simp only [Endpoint.timeout, hk, Option.some.injEq] at hstep
  subst hstep
  exact SockLib.resends_all_iff hpos (fun hwait => (hlocals l hctl hwait).1)
    (Prod.ext rfl (settle_waits hwaits))

/-- A file of two packets and a window of two: after three steps both are sent, and the call waits. -/
def twoPackets : Solo (Endpoint (List Call)) Datagram :=
  scriptStart 2 [.sendFile (some (List.replicate 1025 0))]

def soloRuns : SoloEvent Act Oracle Datagram := .act (.run .reliable)
def soloTimesOut : SoloEvent Act Oracle Datagram := .act (.timeout .reliable)

/-- An answer of the receiver arrives. -/
def soloAnswer (type : AckType) (seq : UInt32) : SoloEvent Act Oracle Datagram :=
  .recv .reliable (SockLib.ackPacket seq type)

theorem timeout_resends_window_fresh :
    ∃ t p, Run (soloStep (machine scriptApp)) anyStep twoPackets [soloRuns, soloRuns, soloRuns] t ∧
      t.node.timeout scriptApp .reliable = some p ∧
      ∀ i < t.node.lib.winBufPos, t.node.lib.slotDatagram i ∈ p.2 := by
  obtain ⟨t, hrun, hpos, ⟨l, hctl, hfresh⟩, p, hp, hwaits⟩ := exists_solo_run (machine scriptApp) twoPackets
    [soloRuns, soloRuns, soloRuns]
    (fun t => 0 < t.node.lib.winBufPos ∧
      (∃ l ∈ t.node.ctl.locals, l.waitForACK = false) ∧
      ∃ p ∈ t.node.timeout scriptApp .reliable, p.1.ctl.locals.isSome) (by decide +kernel)
  obtain ⟨l', hl'⟩ := Option.isSome_iff_exists.1 hwaits
  exact ⟨t, p, hrun, hp, (timeout_resends_window_iff rfl hrun hctl hpos hp hl').2 (Or.inl hfresh)⟩

/-- The second packet is acknowledged before the first one: the timeout sends the first packet twice and
the second one not at all. -/
theorem timeout_skips_last :
    ∃ t p, Run (soloStep (machine scriptApp)) anyStep twoPackets
        [soloRuns, soloRuns, soloRuns, soloAnswer .ack 1] t ∧
      t.node.ctl.locals.isSome ∧ 0 < t.node.lib.winBufPos ∧
      t.node.timeout scriptApp .reliable = some p ∧ p.1.ctl.locals.isSome ∧
      ¬ ∀ i < t.node.lib.winBufPos, t.node.lib.slotDatagram i ∈ p.2 := by
  obtain ⟨t, hrun, hctl, hpos, p, hp, hwaits, hmiss⟩ := exists_solo_run (machine scriptApp) twoPackets
    [soloRuns, soloRuns, soloRuns, soloAnswer .ack 1]
    (fun t => t.node.ctl.locals.isSome ∧ 0 < t.node.lib.winBufPos ∧
      ∃ p ∈ t.node.timeout scriptApp .reliable, p.1.ctl.locals.isSome ∧
        ¬ ∀ i < t.node.lib.winBufPos, t.node.lib.slotDatagram i ∈ p.2) (by decide +kernel)
  exact ⟨t, p, hrun, hctl, hpos, hp, hwaits, hmiss⟩

/-- The packets of a window differ. -/
theorem SockLib.Consecutive.no_twin {s : SockLib} (h : s.Consecutive) {i : Nat}
    (hi : i + 1 < s.winBufPos) : s.winBuf i ≠ s.winBuf (s.winBufPos - 1) := by
  intro heq
  have := h.inj (i := i) (j := s.winBufPos - 1) (by omega) (by omega) (by rw [heq])
  omega

end

end Sample3
end FileTransfer
