import FileTransfer.Lib.GoBackN
import FileTransfer.Lib.Matching
import FileTransfer.Sample3.EndpointSpec
import FileTransfer.Sample3.SenderSpec

/-!
# The sender of a link refines the go-back-N sender

A link is one direction of data together with the replies that flow back.  `SendPart` relates the
sending endpoint to a state of the abstract protocol of `FileTransfer.GoBackN`, whose numbers never
wrap: the five-bit number in a packet is the abstract number, counted from `start`, modulo 32.  Every
step of the endpoint is one of `submit`, `transmit`, `hear` and `free` there.
-/

namespace FileTransfer
namespace Sample3

/-- The payloads an endpoint has numbered. -/
def numberedData (log : List Event) : List Payload :=
  log.filterMap fun
    | .numbered udp => some udp.data
    | _ => none

@[simp] theorem numberedData_append (l₁ l₂ : List Event) :
    numberedData (l₁ ++ l₂) = numberedData l₁ ++ numberedData l₂ := by
  simp [numberedData]

section

variable (l : List Event) (udp : UdpPacket) (d : Datagram) (r : Ret)

@[simp] theorem numberedData_cons_numbered :
    numberedData (.numbered udp :: l) = udp.data :: numberedData l := rfl
@[simp] theorem numberedData_cons_handed : numberedData (.handed d :: l) = numberedData l := rfl
@[simp] theorem numberedData_cons_acked : numberedData (.acked d :: l) = numberedData l := rfl
@[simp] theorem numberedData_cons_synced : numberedData (.synced d :: l) = numberedData l := rfl
@[simp] theorem numberedData_cons_returned : numberedData (.returned r :: l) = numberedData l := rfl

end

@[simp] theorem numberedData_nil : numberedData [] = [] := rfl

/-- `udp` is the data packet with the abstract number `n`. -/
def IsData (start : Nat) (sub : List Payload) (n : Nat) (udp : UdpPacket) : Prop :=
  udp.seq.val = (start + n) % 32 ∧ udp.ackType = .request ∧ sub[n]? = some udp.data

/-- `udp` is a reply whose sender expects the abstract number `e` next. -/
def IsReply (start : Nat) (e : Nat) (udp : UdpPacket) : Prop :=
  (udp.ackType = .ack ∧ (udp.seq.val + 1) % 32 = (start + e) % 32) ∨
    ((udp.ackType = .nack ∨ udp.ackType = .sack) ∧ udp.seq.val = (start + e) % 32)

theorem IsData.mono {start n : Nat} {sub sub' : List Payload} {udp : UdpPacket}
    (h : IsData start sub n udp) (hsub : sub <+: sub') : IsData start sub' n udp := by
  obtain ⟨h1, h2, h3⟩ := h
  refine ⟨h1, h2, ?_⟩
  obtain ⟨t, rfl⟩ := hsub
  rw [List.getElem?_append_left (List.getElem?_eq_some_iff.1 h3).1]
  exact h3

/-- Numbers may be counted from another one that is the same modulo 32. -/
theorem IsData.recount {start start' n : Nat} {sub : List Payload} {udp : UdpPacket}
    (h : IsData start sub n udp) (hstart : start % 32 = start' % 32) : IsData start' sub n udp := by
  obtain ⟨h1, h2, h3⟩ := h
  exact ⟨by omega, h2, h3⟩

theorem IsReply.recount {start start' m : Nat} {udp : UdpPacket} (h : IsReply start m udp)
    (hstart : start % 32 = start' % 32) : IsReply start' m udp := by
  rcases h with ⟨htype, hseq⟩ | ⟨htype, hseq⟩
  · exact .inl ⟨htype, by omega⟩
  · exact .inr ⟨htype, by omega⟩

theorem IsData.lt {start n : Nat} {sub : List Payload} {udp : UdpPacket}
    (h : IsData start sub n udp) : n < sub.length :=
  (List.getElem?_eq_some_iff.1 h.2.2).1

/-- The data packets on a wire. -/
def dataOn (w : List Datagram) : List UdpPacket :=
  (w.filter fun d => d.site = .window).map Datagram.pkt

/-- The replies on a wire. -/
def repliesOn (w : List Datagram) : List UdpPacket :=
  (w.filter fun d => d.site = .sendAck).map Datagram.pkt

@[simp] theorem dataOn_append (w₁ w₂ : List Datagram) :
    dataOn (w₁ ++ w₂) = dataOn w₁ ++ dataOn w₂ := by
  simp [dataOn]

@[simp] theorem repliesOn_append (w₁ w₂ : List Datagram) :
    repliesOn (w₁ ++ w₂) = repliesOn w₁ ++ repliesOn w₂ := by
  simp [repliesOn]

@[simp] theorem dataOn_nil : dataOn [] = [] := rfl
@[simp] theorem repliesOn_nil : repliesOn [] = [] := rfl

theorem dataOn_cons (d : Datagram) (w : List Datagram) :
    dataOn (d :: w) = if d.site = .window then d.pkt :: dataOn w else dataOn w := by
  by_cases h : d.site = .window <;> simp [dataOn, h]

theorem repliesOn_cons (d : Datagram) (w : List Datagram) :
    repliesOn (d :: w) = if d.site = .sendAck then d.pkt :: repliesOn w else repliesOn w := by
  by_cases h : d.site = .sendAck <;> simp [repliesOn, h]

theorem dataOn_eraseIdx (w : List Datagram) (k : Nat) :
    (dataOn (w.eraseIdx k)).Sublist (dataOn w) :=
  ((List.eraseIdx_sublist w k).filter _).map _

theorem repliesOn_eraseIdx (w : List Datagram) (k : Nat) :
    (repliesOn (w.eraseIdx k)).Sublist (repliesOn w) :=
  ((List.eraseIdx_sublist w k).filter _).map _

/-! ## The relation -/

/-- The window of the object is the abstract window `base, …` over the submitted payloads `sub`. -/
structure SendBase (w start : Nat) (sub : List Payload) (base : Nat) (s : SockLib) : Prop where
  wSize_eq : s.wSize = w
  wSize_pos : 0 < w
  seq_mod : s.seq.toNat % 32 = (start + sub.length) % 32
  pos : s.winBufPos + base = sub.length
  pos_le : s.winBufPos ≤ w
  slots : ∀ i < s.winBufPos, IsData start sub (base + i) (s.winBuf i)
  first : sub ≠ [] → ∃ n, (n < sub.length ∧ sub.length ≤ n + w) ∧ IsData start sub n (s.winBuf 0)

/-- What the local variables of the running call say about the abstract window. -/
def CtlPart (sub : List Payload) (base low : Nat) (s : SockLib) : Control → Prop
  | .sendFile _ eof => eof = true → sub ≠ []
  | .sendFileLast => sub ≠ []
  | .sockSendtoEx => sub ≠ []
  | .udpSendtoEx l _ =>
      sub ≠ [] ∧ (∀ i < s.winBufPos, l.arrACK i = true → base + i < low) ∧
        (l.waitForACK = false → l.buf = s.winBufPos - 1)
  | _ => True

section

variable {π : Type*}

/-- The sender's part of a link that began when the payloads `old` had been numbered. -/
structure SendPart (w start : Nat) (old : List Payload) (g : GoBackN.State Payload) (e : Endpoint π) :
    Prop where
  submitted : numberedData e.log = old ++ g.submitted
  base : SendBase w start g.submitted g.base e.lib
  ctl : CtlPart g.submitted g.base g.low e.lib e.ctl

/-- An endpoint step seen by the abstract sender: from `g` to `g'`, with the packets `out` sent. -/
structure SendStep (w start : Nat) (old : List Payload) (g g' : GoBackN.State Payload)
    (e' : Endpoint π) (out : List Datagram) : Prop where
  inv : GoBackN.Inv 32 w g'
  part : SendPart w start old g' e'
  expected : g'.expected = g.expected
  replies : g'.replies = g.replies
  submitted : g.submitted <+: g'.submitted
  data : ∃ ns, g'.data = g.data ++ ns ∧ List.Forall₂ (IsData start g'.submitted) ns (dataOn out)

variable {w start : Nat} {old : List Payload} {g : GoBackN.State Payload} {A : App π}
  {e : Endpoint π} {o : Oracle} {k : SendCaller} {l : SendtoEx} {s : SockLib} {sub : List Payload}
  {base low : Nat}

theorem SendBase.pos_le_wSize (h : SendBase w start sub base s) : s.winBufPos ≤ s.wSize := by
  rw [h.wSize_eq]
  exact h.pos_le

/-- Everything the sender may transmit carries a number of the last `w` ones. -/
theorem SendBase.sendable (h : SendBase w start sub base s) (hne : sub ≠ []) {d : Datagram}
    (hd : s.IsSendable d) :
    ∃ n, (n < sub.length ∧ sub.length ≤ n + w) ∧ IsData start sub n d.pkt := by
  obtain ⟨i, hi, rfl⟩ := hd
  by_cases hlt : i < s.winBufPos
  · have hpos := h.pos
    have hle := h.pos_le
    exact ⟨base + i, ⟨by omega, by omega⟩, h.slots i hlt⟩
  · have hi0 : i = 0 := by omega
    subst hi0
    exact h.first hne

/-- A step that leaves the window alone and sends only what it may send. -/
theorem SendStep.transmit (hinv : GoBackN.Inv 32 w g) (hlog : numberedData e.log = old ++ g.submitted)
    (hbase : SendBase w start g.submitted g.base s) (hlib : e.lib = s)
    (hctl : CtlPart g.submitted g.base g.low e.lib e.ctl) {out : List Datagram}
    (hout : ∀ d ∈ out, d.site = .window → g.submitted ≠ [] ∧ s.IsSendable d) :
    ∃ g', SendStep w start old g g' e out := by
  have hdata : ∀ udp ∈ dataOn out,
      ∃ n, (n < g.submitted.length ∧ g.submitted.length ≤ n + w) ∧
        IsData start g.submitted n udp := by
    intro udp hudp
    simp only [dataOn, List.mem_map, List.mem_filter, decide_eq_true_eq] at hudp
    obtain ⟨d, ⟨hd, hsite⟩, rfl⟩ := hudp
    obtain ⟨hne, hsend⟩ := hout d hd hsite
    exact hbase.sendable hne hsend
  obtain ⟨ns, hns, hmatch⟩ := exists_forall₂ hdata
  exact ⟨g.transmit ns, hinv.transmit hns, ⟨hlog, hlib ▸ hbase, hctl⟩, rfl, rfl,
    List.prefix_refl _, ⟨ns, rfl, hmatch⟩⟩

/-! ## Control flow that does not touch the window -/

theorem numberedData_of_moves {e' : Endpoint π} (h : Endpoint.Moves A e e') :
    numberedData e'.log = numberedData e.log := by
  rcases h.log with h | ⟨r, -, h⟩ <;> simp [h]

theorem numberedData_afterSend (r : Int) :
    numberedData (e.afterSend A k r).log = numberedData e.log :=
  numberedData_of_moves (Endpoint.moves_afterSend k r)

theorem ctlPart_afterSend (hne : sub ≠ []) (r : Int) :
    CtlPart sub base low s (e.afterSend A k r).ctl := by
  cases k <;> simp only [Endpoint.afterSend, Endpoint.finish] <;> split_ifs <;>
    simp [CtlPart, hne]

/-- Entering `send_all_win_packets` with at least one packet numbered. -/
theorem sendStep_enterSend (hinv : GoBackN.Inv 32 w g) (hlog : numberedData e.log = old ++ g.submitted)
    (hbase : SendBase w start g.submitted g.base e.lib) (hne : g.submitted ≠ []) :
    ∃ g', SendStep w start old g g' (e.enterSend A o k).1 (e.enterSend A o k).2 := by
  have hsend : ∀ d ∈ (e.lib.sendAllWinPackets o).1, e.lib.IsSendable d := fun d hd =>
    SockLib.isSendable_of_mem_sendAllWinPackets hd
  rcases SockLib.sendAllWinPackets_outcome (s := e.lib) (o := o) with hoc | hoc
  · have hstep : e.enterSend A o k =
        ({ e with ctl := .udpSendtoEx e.lib.freshLocals k }, (e.lib.sendAllWinPackets o).1) := by
      simp [Endpoint.enterSend, Endpoint.settle, hoc]
    rw [hstep]
    refine SendStep.transmit (e := { e with ctl := .udpSendtoEx e.lib.freshLocals k }) hinv hlog
      hbase rfl ?_ (fun d hd _ => ⟨hne, hsend d hd⟩)
    refine ⟨hne, ?_, fun _ => rfl⟩
    intro i _ hmark
    cases hmark
  · have hstep : e.enterSend A o k =
        (e.afterSend A k (-1), (e.lib.sendAllWinPackets o).1) := by
      simp [Endpoint.enterSend, Endpoint.settle, hoc]
    rw [hstep]
    refine SendStep.transmit (e := e.afterSend A k (-1)) hinv ?_ hbase
      (Endpoint.moves_afterSend _ _).lib ?_
      (fun d hd _ => ⟨hne, hsend d hd⟩)
    · rw [numberedData_afterSend]
      exact hlog
    · exact ctlPart_afterSend hne _

/-! ## Numbering a packet -/

/-- `copy_2_winbuf` with room in the window submits the packet. -/
theorem SendBase.copy (h : SendBase w start sub base s) (hlt : s.winBufPos < s.wSize)
    (buf : Payload) : SendBase w start (sub ++ [buf]) base (s.copy2Winbuf buf).1 := by
  have hpos := h.pos
  have hle := h.pos_le
  have hw := h.wSize_eq
  have hpre : sub <+: sub ++ [buf] := List.prefix_append _ _
  have hnew : IsData start (sub ++ [buf]) sub.length ⟨seqField s.seq, .request, buf⟩ := by
    refine ⟨?_, rfl, by simp⟩
    simpa using h.seq_mod
  rw [SockLib.copy2Winbuf_of_lt hlt]
  refine ⟨hw, h.wSize_pos, ?_, ?_, ?_, ?_, ?_⟩
  · have hseq := seqField_add_one s.seq
    have hmod := h.seq_mod
    simp only [seqField_val] at hseq
    simp only [List.length_append, List.length_cons, List.length_nil]
    omega
  · simp only [List.length_append, List.length_cons, List.length_nil]
    omega
  · simp only
    omega
  · intro i hi
    simp only at hi ⊢
    -- the new slot holds the packet, and the others what they held
    by_cases heq : i = s.winBufPos
    · subst heq
      have hidx : base + s.winBufPos = sub.length := by omega
      rw [Function.update_self, hidx]
      exact hnew
    · rw [Function.update_of_ne heq]
      exact (h.slots i (by omega)).mono hpre
  · intro _
    simp only [List.length_append, List.length_cons, List.length_nil]
    -- the first slot is the new one just when the window was empty
    by_cases h0 : s.winBufPos = 0
    · rw [h0, Function.update_self]
      exact ⟨sub.length, ⟨by omega, by omega⟩, hnew⟩
    · rw [Function.update_of_ne (by omega)]
      exact ⟨base, ⟨by omega, by omega⟩, (h.slots 0 (by omega)).mono hpre⟩

/-- After `copy_2_winbuf` the window is sent exactly when it is full. -/
theorem SockLib.copy2Winbuf_snd (buf : Payload) :
    (s.copy2Winbuf buf).2 = ((s.copy2Winbuf buf).1.winBufPos == (s.copy2Winbuf buf).1.wSize) :=
  rfl

/-- `copy_2_winbuf` and what follows it, for whichever caller. -/
theorem sendStep_copyAndSend (hinv : GoBackN.Inv 32 w g) (hlog : numberedData e.log = old ++ g.submitted)
    (hbase : SendBase w start g.submitted g.base e.lib) (buf : Payload) :
    ∃ g', SendStep w start old g g' (e.copyAndSend A o buf k).1 (e.copyAndSend A o buf k).2 := by
  by_cases hlt : e.lib.winBufPos < e.lib.wSize
  · -- the packet is numbered, and the window is sent if this was the last free slot
    let e₁ : Endpoint π :=
      { e with
        lib := (e.lib.copy2Winbuf buf).1
        log := e.log ++ [.numbered (e.lib.addUdpheader buf).2] }
    have hroom : g.submitted.length < g.base + w := by
      have := hbase.pos
      have := hbase.wSize_eq
      omega
    have hinv₁ : GoBackN.Inv 32 w (g.submit buf) := hinv.submit buf hroom
    have hlog₁ : numberedData e₁.log = old ++ (g.submit buf).submitted := by
      simp [GoBackN.State.submit, e₁, hlog, SockLib.addUdpheader]
    have hbase₁ : SendBase w start (g.submit buf).submitted (g.submit buf).base e₁.lib :=
      hbase.copy hlt buf
    have hne : (g.submit buf).submitted ≠ [] := by simp [GoBackN.State.submit]
    have hstep : e.copyAndSend A o buf k =
        if (e.lib.copy2Winbuf buf).2 then e₁.enterSend A o k else (e₁.afterSend A k 1, []) := by
      simp [Endpoint.copyAndSend, e₁, hlt]
    have hsub : ∃ g', SendStep w start old (g.submit buf) g' (e.copyAndSend A o buf k).1
        (e.copyAndSend A o buf k).2 := by
      rw [hstep]
      split
      · exact sendStep_enterSend hinv₁ hlog₁ hbase₁ hne
      · refine SendStep.transmit (e := e₁.afterSend A k 1) hinv₁ ?_ hbase₁
          (Endpoint.moves_afterSend _ _).lib ?_ (by simp)
        · rw [numberedData_afterSend]
          exact hlog₁
        · exact ctlPart_afterSend hne _
    obtain ⟨g', h⟩ := hsub
    exact ⟨g', { h with submitted := (List.prefix_append _ _).trans h.submitted }⟩
  · -- the window is full: nothing is numbered, and the window is sent
    have hpos := hbase.pos
    have hsize := hbase.wSize_eq
    have hfull : e.lib.winBufPos = e.lib.wSize :=
      le_antisymm hbase.pos_le_wSize (Nat.le_of_not_lt hlt)
    have hne : g.submitted ≠ [] := by
      have := hbase.wSize_pos
      rw [← List.length_pos_iff]
      omega
    have hstep : e.copyAndSend A o buf k = e.enterSend A o k := by
      simp [Endpoint.copyAndSend, SockLib.copy2Winbuf, hfull]
    rw [hstep]
    exact sendStep_enterSend hinv hlog hbase hne

/-! ## Taking a reply in -/

/-- `SendPart` for a sender that has heard more. -/
theorem CtlPart.mono {c : Control} {low' : Nat} (h : CtlPart sub base low s c) (hlow : low ≤ low') :
    CtlPart sub base low' s c := by
  cases c with
  | udpSendtoEx l k =>
      obtain ⟨hne, hmarks, hbuf⟩ := h
      refine ⟨hne, ?_, hbuf⟩
      intro i hi hmark
      exact lt_of_lt_of_le (hmarks i hi hmark) hlow
  | _ => exact h

/-- A reply that confirms the packet in slot `i` moves the window past it. -/
theorem SendBase.remove (h : SendBase w start sub base s) (beyond : UdpPacket) {n : SeqNum}
    (arr : AckMarks) {i : Nat} (hfind : s.findSeq n = some i) :
    SendBase w start sub (base + (i + 1)) (s.removePacketsFromWin beyond n arr).1 := by
  have hi : i < s.winBufPos := (SockLib.findSeq_eq_some.1 hfind).1
  have hle := h.pos_le_wSize
  obtain ⟨hseq, -, -, hsize⟩ := SockLib.removePacketsFromWin_frame (s := s) beyond n arr
  obtain ⟨hpos', hslots, hempty⟩ :=
    SockLib.removePacketsFromWin_found beyond arr hle hfind
  have hpos := h.pos
  have hple := h.pos_le
  have hslot : ∀ j < (s.removePacketsFromWin beyond n arr).1.winBufPos,
      IsData start sub (base + (i + 1) + j) ((s.removePacketsFromWin beyond n arr).1.winBuf j) := by
    intro j hj
    rw [(hslots j hj).1, Nat.add_assoc]
    exact h.slots _ (by omega)
  refine ⟨by rw [hsize]; exact h.wSize_eq, h.wSize_pos, by rw [hseq]; exact h.seq_mod, by omega,
    by omega, hslot, ?_⟩
  intro hne
  by_cases h0 : (s.removePacketsFromWin beyond n arr).1.winBufPos = 0
  · rw [hempty h0]
    exact h.first hne
  · exact ⟨base + (i + 1), ⟨by omega, by omega⟩, hslot 0 (by omega)⟩

/-- A window slot whose number is the one before a reply's is confirmed by it. -/
theorem SendBase.confirmed (h : SendBase w start g.submitted g.base s) (hinv : GoBackN.Inv 32 w g)
    {i : Nat} (hi : i < s.winBufPos)
    (hmod : ((s.winBuf i).seq.val + 1) % 32 = (start + g.low) % 32) : g.base + i + 1 = g.low := by
  have hpos := h.pos
  have hslot := (h.slots i hi).1
  refine hinv.window_eq_low_of_mod start (by omega) ?_
  omega

/-- The call goes on after a reply: nothing is sent. -/
theorem sendtoExLoop_waiting {l : SendtoEx} (hwait : l.waitForACK = true) :
    (s.sendtoExLoop o l []).1 = [] ∧
      ((s.sendtoExLoop o l []).2 = .waits l ∨ (s.sendtoExLoop o l []).2 = .returns (-1)) := by
  refine ⟨?_, SockLib.sendtoExLoop_outcome⟩
  simp only [SockLib.sendtoExLoop, hwait, if_true]
  split <;> rfl

/-- The endpoint after `udp_sendtoEx` went on with the object `s'`. -/
theorem SendStep.settle (hinv : GoBackN.Inv 32 w g) {log : List Event}
    (hlog : numberedData log = old ++ g.submitted)
    (hbase : SendBase w start g.submitted g.base s) (hne : g.submitted ≠ []) {oc : Outcome}
    {out : List Datagram}
    (hwaits : ∀ l, oc = .waits l → CtlPart g.submitted g.base g.low s (.udpSendtoEx l k))
    (hout : ∀ d ∈ out, d.site = .window → s.IsSendable d) :
    ∃ g', SendStep w start old g g'
      (({ e with lib := s, log := log } : Endpoint π).settle A k oc) out := by
  cases oc with
  | waits l =>
      exact SendStep.transmit (e := { e with lib := s, log := log, ctl := .udpSendtoEx l k }) hinv
        hlog hbase rfl (hwaits l rfl) (fun d hd hsite => ⟨hne, hout d hd hsite⟩)
  | returns r =>
      let e₁ : Endpoint π := { e with lib := s, log := log }
      refine SendStep.transmit (e := e₁.afterSend A k r) hinv ?_ hbase (Endpoint.moves_afterSend _ _).lib
        (ctlPart_afterSend hne _) (fun d hd hsite => ⟨hne, hout d hd hsite⟩)
      rw [numberedData_afterSend]
      exact hlog

/-- The call goes on after a reply, with marks that only packets the peer has carry. -/
theorem SendStep.waiting (hinv : GoBackN.Inv 32 w g) {log : List Event}
    (hlog : numberedData log = old ++ g.submitted)
    (hbase : SendBase w start g.submitted g.base s) (hne : g.submitted ≠ []) {l : SendtoEx}
    (hwait : l.waitForACK = true)
    (hmarks : ∀ i < s.winBufPos, l.arrACK i = true → g.base + i < g.low) :
    ∃ g', SendStep w start old g g'
      (({ e with lib := s, log := log } : Endpoint π).settle A k (s.sendtoExLoop o l []).2)
      (s.sendtoExLoop o l []).1 := by
  obtain ⟨hout, hoc⟩ := sendtoExLoop_waiting (s := s) (o := o) hwait
  refine SendStep.settle hinv hlog hbase hne ?_ ?_
  · intro l' hl'
    rcases hoc with hoc | hoc
    · cases hoc.symm.trans hl'
      exact ⟨hne, hmarks, by simp [hwait]⟩
    · cases hoc.symm.trans hl'
  · simp [hout]

/-- A sender may free packets at any time. -/
theorem SendStep.of_free {b : Nat} {e' : Endpoint π} {out : List Datagram}
    (h : ∃ g', SendStep w start old (g.free b) g' e' out) : ∃ g', SendStep w start old g g' e' out := by
  obtain ⟨g', h⟩ := h
  exact ⟨g', { h with }⟩

/-- The branch for `ACKTYPE_ACK`.  The marks say which packets the peer has; `get_max_seq` names one
all of whose predecessors are marked, so everything removed was accepted. -/
theorem sendStep_ack (hinv : GoBackN.Inv 32 w g) (hlog : numberedData e.log = old ++ g.submitted)
    (hbase : SendBase w start g.submitted g.base e.lib) (hne : g.submitted ≠ [])
    (hmarks : ∀ i < e.lib.winBufPos, l.arrACK i = true → g.base + i < g.low) {n : SeqNum}
    (hn : (n.val + 1) % 32 = (start + g.low) % 32) :
    let r := e.lib.udpSendtoExAck o l n
    ∃ g', SendStep w start old g g' (({ e with lib := r.1 } : Endpoint π).settle A k r.2.2) r.2.1 := by
  have hpos := hbase.pos
  -- the new mark is for the packet before the reply, which the peer has
  have htag : ∀ i < e.lib.winBufPos, e.lib.tagAck n l.arrACK i = true → g.base + i < g.low := by
    intro i hi hmark
    rcases SockLib.tagAck_eq_true hmark with hmark | ⟨-, hseq⟩
    · exact hmarks i hi hmark
    · have := hbase.confirmed hinv hi (by rw [hseq]; exact hn)
      omega
  unfold SockLib.udpSendtoExAck
  cases hmax : e.lib.getMaxSeq n l.arrACK with
  | none => exact SendStep.settle hinv hlog hbase hne (by simp) (by simp)
  | some p =>
      obtain ⟨arr, biggest⟩ := p
      cases biggest with
      | none =>
          -- nothing is confirmed in order: the marks stay, and the call waits
          have harr := SockLib.getMaxSeq_none hmax
          refine SendStep.waiting hinv hlog hbase hne rfl ?_
          intro i hi hmark
          exact htag i hi (by rw [← harr]; exact hmark)
      | some m =>
          -- slot `i` is confirmed, and with it all before it: the window moves past them
          obtain ⟨harr, i, hfind, hmark⟩ := SockLib.getMaxSeq_some hmax
          subst harr
          have hi : i < e.lib.winBufPos := (SockLib.findSeq_eq_some.1 hfind).1
          have hlow := htag i hi hmark
          have hle := hbase.pos_le_wSize
          have hinv' : GoBackN.Inv 32 w (g.free (g.base + (i + 1))) :=
            hinv.free (by omega) (by omega)
          have hbase' := hbase.remove o.beyond (e.lib.tagAck n l.arrACK) hfind
          obtain ⟨hpos', hslots, -⟩ := SockLib.removePacketsFromWin_found o.beyond
            (e.lib.tagAck n l.arrACK) hle hfind
          dsimp only
          split
          · exact SendStep.of_free (SendStep.settle hinv' hlog hbase' hne (by simp) (by simp))
          · refine SendStep.of_free (SendStep.waiting hinv' hlog hbase' hne rfl ?_)
            intro i' hi' hmark'
            have := htag (i + 1 + i') (by omega) ((hslots i' hi').2.symm.trans hmark')
            simp only [GoBackN.State.free]
            omega

/-- The branch for `ACKTYPE_NACK` and `ACKTYPE_SACK`, unless it empties a window in which it has not
found the packet before the one the peer asks for. -/
theorem sendStep_nack (hinv : GoBackN.Inv 32 w g) (hlog : numberedData e.log = old ++ g.submitted)
    (hbase : SendBase w start g.submitted g.base e.lib) (hne : g.submitted ≠ []) {n : SeqNum}
    {beyond : UdpPacket} (hn : n.val = (start + g.low) % 32)
    (hclear : e.lib.winBufPos = 0 ∨ e.lib.clearsUnfound beyond (n - 1) = false) :
    let r := e.lib.udpSendtoExNack beyond l n
    ∃ g', SendStep w start old g g' (({ e with lib := r.1 } : Endpoint π).settle A k r.2.2) r.2.1 := by
  have hpos := hbase.pos
  unfold SockLib.udpSendtoExNack
  dsimp only
  cases hfind : e.lib.findSeq (n - 1) with
  | some i =>
      have hi := SockLib.findSeq_eq_some.1 hfind
      have hlow := hbase.confirmed hinv hi.1 (by rw [hi.2.1, seq_sub_one_succ]; exact hn)
      have hinv' : GoBackN.Inv 32 w (g.free (g.base + (i + 1))) := hinv.free (by omega) (by omega)
      exact SendStep.of_free (SendStep.settle hinv' hlog
        (hbase.remove beyond l.arrACK hfind) hne (by simp) (by simp))
  | none =>
      have hsame : e.lib.removePacketsFromWin beyond (n - 1) l.arrACK = (e.lib, l.arrACK) := by
        rcases hclear with h0 | hclear
        · exact SockLib.removePacketsFromWin_empty h0
        · exact SockLib.removePacketsFromWin_missing hfind hclear
      rw [hsame]
      exact SendStep.settle hinv hlog hbase hne (by simp) (by simp)

end

end Sample3
end FileTransfer
