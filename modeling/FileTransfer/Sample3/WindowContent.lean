import FileTransfer.Sample3.EndpointSpec

/-!
# What the window holds

Whatever packets arrive, an endpoint puts nothing on the wire as data but packets that its own
`copy_2_winbuf` has numbered.  `WindowNumbered` is the invariant behind this; unlike the relation of
`SenderLink.lean` it needs no condition on what arrives.
-/

namespace FileTransfer
namespace Sample3

/-- Every slot in use holds a packet of this history. -/
structure HoldsNumbered (s : SockLib) (log : List Event) : Prop where
  wSize_pos : 0 < s.wSize
  pos_le : s.winBufPos ≤ s.wSize
  slots : ∀ i < s.winBufPos, Event.numbered (s.winBuf i) ∈ log

/-- Control states from which the first slot may be sent although the window is empty. -/
def Control.SendsFirst : Control → Prop
  | .sendFile _ eof => eof = true
  | .sendFileLast => True
  | .sockSendtoEx => True
  | .udpSendtoEx _ _ => True
  | _ => False

structure WindowNumbered {π : Type*} (e : Endpoint π) : Prop where
  holds : HoldsNumbered e.lib e.log
  first : e.ctl.SendsFirst → Event.numbered (e.lib.winBuf 0) ∈ e.log
  buf : ∀ l k, e.ctl = .udpSendtoEx l k → l.waitForACK = false → l.buf = e.lib.winBufPos - 1

/-- The result of a step: the invariant, and the data packets that the step has sent. -/
structure SendsNumbered {π : Type*} (p : Endpoint π × List Datagram) : Prop where
  window : WindowNumbered p.1
  sent : ∀ d ∈ p.2, d.site = .window → Event.numbered d.pkt ∈ p.1.log

section

variable {π : Type*} {A : App π} {e e' : Endpoint π} {o : Oracle} {s : SockLib} {log log' : List Event}
  {l : SendtoEx} {k : SendCaller} {out : List Datagram} {p : Endpoint π × List Datagram}
  {d : Datagram}

theorem HoldsNumbered.mono (h : HoldsNumbered s log) (hlog : log <+: log') : HoldsNumbered s log' :=
  ⟨h.wSize_pos, h.pos_le, fun i hi => hlog.subset (h.slots i hi)⟩

theorem HoldsNumbered.sendable (h : HoldsNumbered s log) (hfirst : Event.numbered (s.winBuf 0) ∈ log)
    (hd : s.IsSendable d) : Event.numbered d.pkt ∈ log := by
  obtain ⟨i, hi | rfl, rfl⟩ := hd
  · exact h.slots i hi
  · exact hfirst

theorem not_sendsFirst_of_isRest {c : Control} (h : c.IsRest) : ¬ c.SendsFirst := by
  cases c <;> simp_all [Control.IsRest, Control.SendsFirst]

/-- At rest nothing more is asked for. -/
theorem windowNumbered_rest (h : HoldsNumbered e.lib e.log) (hrest : ¬ e.ctl.SendsFirst) :
    WindowNumbered e := by
  refine ⟨h, fun hsends => absurd hsends hrest, ?_⟩
  intro l k hctl
  rw [hctl] at hrest
  exact absurd trivial hrest

theorem sendsNumbered_moves (h : HoldsNumbered e.lib e.log) (hmoves : Endpoint.Moves A e e')
    (hrest : ¬ e'.ctl.SendsFirst) (hout : ∀ d ∈ out, d.site ≠ .window) : SendsNumbered (e', out) := by
  refine ⟨windowNumbered_rest ?_ hrest, fun d hd hsite => absurd hsite (hout d hd)⟩
  rw [hmoves.lib]
  exact h.mono hmoves.log_grows

/-! ## Inside the sending functions -/

/-- `send_all_win_packets` has returned. -/
theorem windowNumbered_afterSend (h : HoldsNumbered e.lib e.log)
    (hfirst : Event.numbered (e.lib.winBuf 0) ∈ e.log) (r : Int) :
    WindowNumbered (e.afterSend A k r) := by
  have hmoves := Endpoint.moves_afterSend (A := A) (e := e) k r
  have hrest := Endpoint.afterSend_isSendRest (A := A) (e := e) k r
  refine ⟨?_, fun _ => ?_, ?_⟩
  · rw [hmoves.lib]
    exact h.mono hmoves.log_grows
  · rw [hmoves.lib]
    exact hmoves.log_grows.subset hfirst
  · intro l k' hctl
    rw [hctl] at hrest
    cases hrest

theorem windowNumbered_settle (h : HoldsNumbered e.lib e.log)
    (hfirst : Event.numbered (e.lib.winBuf 0) ∈ e.log) {oc : Outcome}
    (hbuf : ∀ l, oc = .waits l → l.waitForACK = false → l.buf = e.lib.winBufPos - 1) :
    WindowNumbered (e.settle A k oc) := by
  cases oc with
  | waits l =>
      refine ⟨h, fun _ => hfirst, ?_⟩
      intro l' k' hctl
      cases hctl
      exact hbuf l rfl
  | returns r => exact windowNumbered_afterSend h hfirst r

/-- What a sending function has sent is in the history where the call goes on. -/
theorem sendsNumbered_settle (h : HoldsNumbered e.lib e.log)
    (hfirst : Event.numbered (e.lib.winBuf 0) ∈ e.log) {oc : Outcome}
    (hbuf : ∀ l, oc = .waits l → l.waitForACK = false → l.buf = e.lib.winBufPos - 1)
    (hout : ∀ d ∈ out, d.site = .window → Event.numbered d.pkt ∈ e.log) :
    SendsNumbered (e.settle A k oc, out) :=
  ⟨windowNumbered_settle h hfirst hbuf,
    fun d hd hsite => (Endpoint.moves_settle k oc).log_grows.subset (hout d hd hsite)⟩

theorem sendsNumbered_enterSend (h : HoldsNumbered e.lib e.log)
    (hfirst : Event.numbered (e.lib.winBuf 0) ∈ e.log) : SendsNumbered (e.enterSend A o k) := by
  refine sendsNumbered_settle h hfirst ?_ ?_
  · intro l hl _
    rcases SockLib.sendAllWinPackets_outcome (s := e.lib) (o := o) with hoc | hoc
    · cases hoc.symm.trans hl
      rfl
    · cases hoc.symm.trans hl
  · intro d hd _
    exact h.sendable hfirst (SockLib.isSendable_of_mem_sendAllWinPackets hd)

/-- `copy_2_winbuf` numbers the packet if there is room; otherwise the first slot is in use. -/
theorem sendsNumbered_copyAndSend (h : HoldsNumbered e.lib e.log) (buf : Payload) :
    SendsNumbered (e.copyAndSend A o buf k) := by
  have hcopy : ∀ log', log' = e.log ++ (if e.lib.winBufPos < e.lib.wSize then
        [Event.numbered (e.lib.addUdpheader buf).2] else []) →
      HoldsNumbered (e.lib.copy2Winbuf buf).1 log' ∧
        Event.numbered ((e.lib.copy2Winbuf buf).1.winBuf 0) ∈ log' := by
    rintro log' rfl
    by_cases hlt : e.lib.winBufPos < e.lib.wSize
    · rw [SockLib.copy2Winbuf_of_lt hlt, if_pos hlt]
      have hslots : ∀ i < e.lib.winBufPos + 1, Event.numbered
          (Function.update e.lib.winBuf e.lib.winBufPos ⟨seqField e.lib.seq, .request, buf⟩ i) ∈
            e.log ++ [Event.numbered (e.lib.addUdpheader buf).2] := by
        intro i hi
        by_cases heq : i = e.lib.winBufPos
        · -- the new packet
          subst heq
          rw [Function.update_self]
          exact List.mem_append_right _ List.mem_cons_self
        · rw [Function.update_of_ne heq]
          exact List.mem_append_left _ (h.slots i (by omega))
      exact ⟨⟨h.wSize_pos, hlt, hslots⟩, hslots 0 (by omega)⟩
    · rw [SockLib.copy2Winbuf_of_not_lt hlt, if_neg hlt, List.append_nil]
      have := h.wSize_pos
      exact ⟨h, h.slots 0 (by omega)⟩
  obtain ⟨hholds, hfirst⟩ := hcopy _ rfl
  unfold Endpoint.copyAndSend
  dsimp only
  split
  · exact sendsNumbered_enterSend hholds hfirst
  · exact ⟨windowNumbered_afterSend hholds hfirst 1, by simp⟩

/-! ## Taking packets out of the window -/

/-- What `remove_packets_from_win` leaves was there before. -/
theorem HoldsNumbered.remove (h : HoldsNumbered s log) (hfirst : Event.numbered (s.winBuf 0) ∈ log)
    (beyond : UdpPacket) (n : SeqNum) (arr : AckMarks) :
    let s' := (s.removePacketsFromWin beyond n arr).1
    HoldsNumbered s' log ∧ Event.numbered (s'.winBuf 0) ∈ log := by
  have hwsize := (SockLib.removePacketsFromWin_frame (s := s) beyond n arr).2.2.2
  have hle := h.pos_le
  cases hfind : s.findSeq n with
  | some i =>
      obtain ⟨hpos, hslots, hempty⟩ := SockLib.removePacketsFromWin_found beyond arr hle hfind
      have hkept : ∀ j < (s.removePacketsFromWin beyond n arr).1.winBufPos,
          Event.numbered ((s.removePacketsFromWin beyond n arr).1.winBuf j) ∈ log := by
        intro j hj
        rw [(hslots j hj).1]
        exact h.slots _ (by omega)
      refine ⟨⟨by rw [hwsize]; exact h.wSize_pos, by omega, hkept⟩, ?_⟩
      by_cases h0 : (s.removePacketsFromWin beyond n arr).1.winBufPos = 0
      · rw [hempty h0]
        exact hfirst
      · exact hkept 0 (by omega)
  | none =>
      -- the window is cleared or left alone, and the slots keep their content
      simp only [SockLib.removePacketsFromWin, hfind]
      split
      · exact ⟨⟨h.wSize_pos, Nat.zero_le _, by simp⟩, hfirst⟩
      · exact ⟨h, hfirst⟩

/-- What `udp_sendtoEx` leaves in the window when it takes a packet in, and how it goes on. -/
theorem HoldsNumbered.packet (h : HoldsNumbered s log) (hfirst : Event.numbered (s.winBuf 0) ∈ log)
    (hbuf : l.waitForACK = false → l.buf = s.winBufPos - 1) (udp : UdpPacket) :
    let r := s.udpSendtoExPacket o l udp
    (HoldsNumbered r.1 log ∧ Event.numbered (r.1.winBuf 0) ∈ log) ∧
      ∀ l', r.2.2 = .waits l' → l'.waitForACK = false → l'.buf = r.1.winBufPos - 1 := by
  refine ⟨?_, ?_⟩
  · rcases SockLib.udpSendtoExPacket_lib s o l udp with hlib | ⟨n, arr, hlib⟩ <;> rw [hlib]
    · exact ⟨h, hfirst⟩
    · exact h.remove hfirst o.beyond n arr
  · intro l' hwaits hunacked
    have houtcome := SockLib.udpSendtoExPacket_outcome s o l udp
    rw [hwaits] at houtcome
    cases houtcome with
    | ignores hlib =>
        rw [hlib]
        exact hbuf hunacked
    | waits hacked _ =>
        -- a call that has acted on an acknowledgement does not look at `buf` again
        rw [hacked] at hunacked
        cases hunacked

/-! ## Every step -/

theorem sendsNumbered_sendHandshake (h : HoldsNumbered e.lib e.log) (udp : UdpPacket)
    (retryCnt : Nat) (hs : Handshake) : SendsNumbered (e.sendHandshake A o udp retryCnt hs) := by
  have hfail : WindowNumbered (e.finishHandshake A (-1)) :=
    windowNumbered_rest (h.mono (List.prefix_append _ _)) id
  have hnot : ∀ d ∈ (libSendto o [] ⟨udp, .handshakeRequest⟩).1, d.site = .window →
      ∀ log : List Event, Event.numbered d.pkt ∈ log := by
    intro d hd hsite
    rcases SockLib.mem_libSendto hd with hd | rfl
    · cases hd
    · cases hsite
  unfold Endpoint.sendHandshake
  split
  · exact ⟨hfail, by simp⟩
  · split <;> rename_i heq <;> rw [heq] at hnot
    · exact ⟨windowNumbered_rest h id, fun d hd hsite => hnot d hd hsite _⟩
    · exact ⟨hfail, fun d hd hsite => hnot d hd hsite _⟩

theorem HoldsNumbered.congr {s' : SockLib} (h : HoldsNumbered s log) (hsize : s'.wSize = s.wSize)
    (hpos : s'.winBufPos = s.winBufPos) (hbuf : s'.winBuf = s.winBuf) : HoldsNumbered s' log := by
  refine ⟨by rw [hsize]; exact h.wSize_pos, by rw [hpos, hsize]; exact h.pos_le, ?_⟩
  rw [hpos, hbuf]
  exact h.slots

theorem sendsNumbered_begin (h : HoldsNumbered e.lib e.log) {c : Call}
    (hc : ∀ ws memory, c = .udpInit ws memory → 0 < ws) : SendsNumbered (e.begin A o c) := by
  have hrest : ∀ {e' : Endpoint π}, Endpoint.Moves A e e' → ¬ e'.ctl.SendsFirst →
      SendsNumbered (e', []) := fun hm hr => sendsNumbered_moves h hm hr (by simp)
  cases c with
  | udpInit windowSize memory =>
      refine ⟨windowNumbered_rest ⟨hc windowSize memory rfl, Nat.zero_le _, ?_⟩ id, by
        simp [Endpoint.begin]⟩
      intro i hi
      cases hi
  | clientHandshake clientSeq junk =>
      exact sendsNumbered_sendHandshake
        (e := { e with lib := { e.lib with hsData := ⟨0, 0⟩, seq := e.lib.seq + 1 } })
        (h.congr rfl rfl rfl) _ _ _
  | serverHandshake serverSeq =>
      exact ⟨windowNumbered_rest (h.congr rfl rfl rfl) id, by simp [Endpoint.begin]⟩
  | sockSendtoEx buf flag => exact sendsNumbered_copyAndSend h buf
  | sendFile file =>
      cases file with
      | none => exact hrest (Endpoint.moves_finish (by simp [Ret.IsHandshake])) id
      | some content => exact hrest (Endpoint.moves_ctl (A := A) _) (by simp [Control.SendsFirst])
  | sockRecvfrom length => exact hrest (Endpoint.moves_ctl (A := A) _) id
  | recvFile canOpen len =>
      cases canOpen with
      | true => exact hrest (Endpoint.moves_ctl (A := A) _) id
      | false => exact hrest (Endpoint.moves_finish (by simp [Ret.IsHandshake])) id
  | srvWait4cnn sec => exact hrest (Endpoint.moves_ctl (A := A) _) id

theorem WindowNumbered.rest {e' : Endpoint π} (h : WindowNumbered e) (hm : Endpoint.Moves A e e')
    (hr : e'.ctl.IsRest) : SendsNumbered (e', []) :=
  sendsNumbered_moves h.holds hm (not_sendsFirst_of_isRest hr) (by simp)

/-- The program goes on. -/
theorem WindowNumbered.run (h : WindowNumbered e)
    (hcall : ∀ ws memory, e.nextCall A = some (.udpInit ws memory) → 0 < ws)
    (hrun : e.run A o = some p) : SendsNumbered p := by
  have hfirst := h.first
  unfold Endpoint.run at hrun
  split at hrun <;> rename_i hctl
  · obtain ⟨c, hc, rfl⟩ := Option.map_eq_some_iff.1 hrun
    exact sendsNumbered_begin h.holds fun ws memory heq => hcall ws memory (by rw [hc, heq])
  · rename_i rest eof
    cases hrun
    unfold Endpoint.readAndCopy
    split
    · -- the file has been read, and the last loop begins
      rename_i heof
      refine ⟨⟨h.holds, fun _ => hfirst (by rw [hctl]; exact heof), ?_⟩, by simp⟩
      intro l k hc
      cases hc
    · exact sendsNumbered_copyAndSend h.holds _
  · cases hrun
    exact sendsNumbered_enterSend h.holds (hfirst (by rw [hctl]; trivial))
  · cases hrun
    exact sendsNumbered_enterSend h.holds (hfirst (by rw [hctl]; trivial))
  · cases hrun
    exact h.rest Endpoint.moves_recvPiece Endpoint.recvPiece_isRest
  · cases hrun

theorem WindowNumbered.timeout (h : WindowNumbered e) (htime : e.timeout A o = some p) :
    SendsNumbered p := by
  unfold Endpoint.timeout at htime
  split at htime <;> rename_i hctl
  · rename_i l k
    cases htime
    have hfirst := h.first (by rw [hctl]; trivial)
    have hbuf := h.buf l k hctl
    refine sendsNumbered_settle h.holds hfirst ?_ ?_
    · intro l' hl'
      rcases SockLib.udpSendtoExTimeout_outcome (s := e.lib) (o := o) (l := l) with hoc | hoc
      · cases hoc.symm.trans hl'
        exact hbuf
      · cases hoc.symm.trans hl'
    · -- what is sent again lies in the window, and so does the packet in `buf`
      intro d hd hsite
      rcases SockLib.mem_udpSendtoExTimeout hd with hd | rfl | ⟨hw, rfl⟩
      · exact h.holds.sendable hfirst hd
      · cases hsite
      · refine h.holds.sendable hfirst ⟨l.buf, ?_, rfl⟩
        have := hbuf hw
        omega
  · cases htime
    exact sendsNumbered_sendHandshake h.holds _ _ _
  · cases htime
    exact h.rest (Endpoint.moves_recvLoop _ _ _) (Endpoint.recvLoop_isRest _)
  · cases htime
    exact ⟨h, by simp⟩
  · cases htime
    exact h.rest (Endpoint.moves_lingerLoop _) (Endpoint.lingerLoop_isRest _)
  · cases htime

theorem WindowNumbered.error (h : WindowNumbered e) (herr : e.error A = some p) :
    SendsNumbered p := by
  have hfail : SendsNumbered (e.finishHandshake A (-1), []) :=
    ⟨windowNumbered_rest (h.holds.mono (List.prefix_append _ _)) id, by simp⟩
  unfold Endpoint.error at herr
  split at herr <;> rename_i hctl
  · cases herr
    exact ⟨windowNumbered_afterSend h.holds (h.first (by rw [hctl]; trivial)) _, by simp⟩
  · cases herr
    exact hfail
  · cases herr
    exact h.rest (Endpoint.moves_recvFailed _) (Endpoint.recvFailed_isRest _)
  · cases herr
    exact hfail
  · cases herr
    exact h.rest (Endpoint.moves_finish (by simp [Ret.IsHandshake])) trivial
  · cases herr

/-- A step without a packet. -/
theorem WindowNumbered.act (h : WindowNumbered e)
    (hcall : ∀ ws memory, e.nextCall A = some (.udpInit ws memory) → 0 < ws) {i : Act}
    (hact : (machine A).act e i = some p) : SendsNumbered p := by
  cases i with
  | run o => exact h.run hcall hact
  | timeout o => exact h.timeout hact
  | error => exact h.error hact

/-- A step with a packet. -/
theorem WindowNumbered.recv (h : WindowNumbered e) (hrecv : (machine A).recv e o d = some p) :
    SendsNumbered p := by
  -- outside of `udp_sendtoEx` the window stays as it is, and nothing of it is sent
  have hrest : ∀ {s' : SockLib} {log' : List Event} {e' : Endpoint π} {out : List Datagram},
      s'.wSize = e.lib.wSize → s'.winBufPos = e.lib.winBufPos → s'.winBuf = e.lib.winBuf →
      e.log <+: log' → Endpoint.Moves A { e with lib := s', log := log' } e' → e'.ctl.IsRest →
      (∀ x ∈ out, x.site ≠ .window) → SendsNumbered (e', out) := by
    intro s' log' e' out h1 h2 h3 hlog hm hr hout
    exact sendsNumbered_moves (e := { e with lib := s', log := log' })
      ((h.holds.congr h1 h2 h3).mono hlog) hm (not_sendsFirst_of_isRest hr) hout
  have hanswer : ∀ {x y : Datagram}, y.site ≠ .window → x ∈ (libSendto o [] y).1 →
      x.site ≠ .window := by
    intro x y hy hx
    rcases SockLib.mem_libSendto hx with hx | rfl
    · cases hx
    · exact hy
  have hshake : ∀ (s' : SockLib) (r : Int), s'.wSize = e.lib.wSize →
      s'.winBufPos = e.lib.winBufPos → s'.winBuf = e.lib.winBuf →
      WindowNumbered (({ e with lib := s' } : Endpoint π).finishHandshake A r) := by
    intro s' r h1 h2 h3
    exact windowNumbered_rest ((h.holds.congr h1 h2 h3).mono (List.prefix_append _ _)) id
  rcases recv_cases hrecv with ⟨l, k, hctl, rfl⟩ | ⟨udp, r, hs, hctl, rfl⟩ |
    ⟨left, got, k, hctl, rfl⟩ | ⟨hctl, rfl⟩ | ⟨sec, hctl, rfl⟩
  · have hfirst := h.first (by rw [hctl]; trivial)
    have hbuf := h.buf l k hctl
    have hpacket : ∀ log', e.log <+: log' →
        SendsNumbered ((({ e with lib := (e.lib.udpSendtoExPacket o l d.pkt).1, log := log' } :
          Endpoint π).settle A k (e.lib.udpSendtoExPacket o l d.pkt).2.2),
            (e.lib.udpSendtoExPacket o l d.pkt).2.1) := by
      intro log' hlog
      obtain ⟨⟨hholds, hfirst'⟩, hwaits⟩ :=
        (h.holds.mono hlog).packet (o := o) (hlog.subset hfirst) hbuf d.pkt
      refine sendsNumbered_settle hholds hfirst' hwaits ?_
      intro x hx hsite
      rcases SockLib.mem_udpSendtoExPacket hx with ⟨hw, rfl⟩ | ⟨-, -, rfl⟩
      · refine hlog.subset (h.holds.sendable hfirst ⟨l.buf, ?_, rfl⟩)
        have := hbuf hw
        omega
      · cases hsite
    rcases Endpoint.recvInSend_cases (A := A) (o := o) e l k d with ⟨-, -, hp⟩ | ⟨-, hp⟩ <;> rw [hp]
    · exact hpacket _ (List.prefix_append _ _)
    · exact hpacket _ (List.prefix_refl _)
  · unfold Endpoint.recvInHandshake
    dsimp only
    split
    · exact ⟨hshake _ _ rfl rfl rfl, by simp⟩
    · exact ⟨hshake _ _ rfl rfl rfl, by simp⟩
  · have hsync : (e.lib.syncLastSeq d.pkt).wSize = e.lib.wSize ∧
        (e.lib.syncLastSeq d.pkt).winBufPos = e.lib.winBufPos ∧
        (e.lib.syncLastSeq d.pkt).winBuf = e.lib.winBuf := by
      obtain ⟨n, hn⟩ := SockLib.syncLastSeq_frame e.lib d.pkt
      rw [hn]
      exact ⟨rfl, rfl, rfl⟩
    obtain ⟨h1, h2, h3⟩ := hsync
    rcases recvInData_cases (A := A) (o := o) e left got k d with
      ⟨-, hp⟩ | ⟨-, -, hp⟩ | ⟨-, -, out, hp, hout⟩ <;> rw [hp]
    · exact hrest rfl rfl rfl (List.prefix_refl _) (Endpoint.moves_recvLoop _ _ k)
        (Endpoint.recvLoop_isRest k) fun x hx => hanswer (by simp [SockLib.handshakeAck]) hx
    · refine hrest (by exact h1) (by exact h2) (by exact h3) ?_ (Endpoint.moves_recvLoop _ _ k)
        (Endpoint.recvLoop_isRest k) fun x hx => hanswer (by simp [SockLib.ackPacket]) hx
      rw [List.append_assoc]
      exact List.prefix_append _ _
    · refine hrest h1 h2 h3 (List.prefix_append _ _) (Endpoint.moves_recvLoop _ _ k)
        (Endpoint.recvLoop_isRest k) fun x hx => ?_
      rw [(hout x hx).1]
      decide
  · unfold Endpoint.recvInServerHandshake
    dsimp only
    split
    · exact ⟨hshake e.lib _ rfl rfl rfl, by simp⟩
    · exact ⟨hshake _ _ rfl rfl rfl, fun x hx hsite =>
        absurd hsite (hanswer (by simp [SockLib.handshakeReply]) hx)⟩
  · exact hrest rfl rfl rfl (List.prefix_append _ _) (Endpoint.moves_lingerLoop sec)
      (Endpoint.lingerLoop_isRest sec) fun x hx => hanswer (by simp [SockLib.ackPacket]) hx

end

end Sample3
end FileTransfer
