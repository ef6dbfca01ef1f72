import FileTransfer.Sample3.Programs
import FileTransfer.Sample3.Resending

/-!
# Only packets of the window are sent

`send_file` and `sock_sendtoEx` end with a loop that sends what is left in the window, and both enter it
without looking whether anything is left.  `only_pending_sent` is the invariant of the runs in which
something is: every packet on the wire is then one of the window.
-/

namespace FileTransfer
namespace Sample3

namespace SockLib

variable {s : SockLib} {o : Oracle} {l l' : SendtoEx} {udp : UdpPacket} {x : Datagram}

/-- A call that waits again after a packet has not emptied the window. -/
theorem udpSendtoExPacket_waits_pos (hpos : 0 < s.winBufPos)
    (h : (s.udpSendtoExPacket o l udp).2.2 = .waits l') :
    0 < (s.udpSendtoExPacket o l udp).1.winBufPos := by
  have houtcome := udpSendtoExPacket_outcome s o l udp
  rw [h] at houtcome
  cases houtcome with
  | ignores hlib =>
      rw [hlib]
      exact hpos
  | waits _ hleft =>
      rcases hleft with hlib | hleft
      · rw [hlib]
        exact hpos
      · exact hleft

theorem IsSendable.slot (h : s.IsSendable x) (hpos : 0 < s.winBufPos) :
    ∃ i < s.winBufPos, x = s.slotDatagram i := by
  obtain ⟨i, hi, rfl⟩ := h
  exact ⟨i, by omega, rfl⟩

theorem copy2Winbuf_wSize (buf : Payload) : (s.copy2Winbuf buf).1.wSize = s.wSize := by
  unfold copy2Winbuf
  split <;> rfl

/-- A window that is sent because it is full is not empty. -/
theorem copy2Winbuf_full {buf : Payload} (hsize : 0 < s.wSize) (h : (s.copy2Winbuf buf).2 = true) :
    0 < (s.copy2Winbuf buf).1.winBufPos := by
  rw [copy2Winbuf_snd, beq_iff_eq, copy2Winbuf_wSize] at h
  rw [h]
  exact hsize

end SockLib

/-- The object with which `copy_2_winbuf(buf)` enters `send_all_win_packets`. -/
def SockLib.copyFull (s : SockLib) (buf : Payload) : Option SockLib :=
  if (s.copy2Winbuf buf).2 then some (s.copy2Winbuf buf).1 else none

/-- The object with which a step of the endpoint enters `send_all_win_packets`. -/
def Endpoint.sendAllOn {π : Type*} (A : App π) (e : Endpoint π) :
    SoloEvent Act Oracle Datagram → Option SockLib
  | .act (.run _) =>
      match e.ctl with
      | .idle =>
          match e.nextCall A with
          | some (.sockSendtoEx buf _) => e.lib.copyFull buf
          | _ => none
      | .sendFile rest false => e.lib.copyFull (.ofBytes (rest.take bufferLength))
      | .sendFileLast => some e.lib
      | .sockSendtoEx => some e.lib
      | _ => none
  | .act (.timeout _) => e.ctl.locals.map fun _ => e.lib
  | _ => none

/-- The last loop of `send_file` and the loop of `sock_sendtoEx` are entered with a packet in the
window. -/
def FlushesPending {π : Type*} (t : Solo (Endpoint π) Datagram) :
    SoloEvent Act Oracle Datagram → Prop
  | .act (.run _) =>
      t.node.ctl = .sendFileLast ∨ t.node.ctl = .sockSendtoEx → 0 < t.node.lib.winBufPos
  | _ => True

/-- A call that waits has a packet to wait for. -/
structure PendingPart {π : Type*} (e : Endpoint π) : Prop where
  locals : LocalsPart e
  waits : e.ctl.locals.isSome → 0 < e.lib.winBufPos
  size : 0 < e.lib.wSize

/-- What a step from `e` does while the window is not flushed empty: a call that waits has a packet to
wait for, and only packets of the window are sent, those marked as acknowledged only after a timeout. -/
structure PendingStep {π : Type*} (e : Endpoint π) (ev : SoloEvent Act Oracle Datagram)
    (p : Endpoint π × List Datagram) : Prop where
  waits : p.1.ctl.locals.isSome → 0 < p.1.lib.winBufPos
  size : 0 < p.1.lib.wSize
  sends : ∀ d ∈ p.2, d.site = .window → ∃ i < p.1.lib.winBufPos, d = p.1.lib.slotDatagram i ∧
    ∀ l, e.ctl.locals = some l → l.arrACK i = true → ∃ o, ev = .act (.timeout o)

section

variable {π : Type*} {A : App π} {e e' : Endpoint π} {o : Oracle} {k : SendCaller}
  {l : SendtoEx} {p : Endpoint π × List Datagram} {d : Datagram}
  {ev : SoloEvent Act Oracle Datagram}

/-- A step to a state outside `udp_sendtoEx` that sends no packet of the window. -/
theorem pendingStep_rest (hsize : 0 < p.1.lib.wSize) (hnone : p.1.ctl.locals = none)
    (hsite : ∀ d ∈ p.2, d.site ≠ .window) : PendingStep e ev p := by
  refine ⟨?_, hsize, fun d hd hwin => absurd hwin (hsite d hd)⟩
  rw [hnone]
  rintro ⟨⟩

/-- A step that moves the endpoint on from a state with the same window. -/
theorem pendingStep_of_moves {e₁ e₂ : Endpoint π} {out : List Datagram} (hm : Endpoint.Moves A e₁ e₂)
    (hsize : 0 < e₁.lib.wSize) (hnone : e₂.ctl.locals = none)
    (hsite : ∀ d ∈ out, d.site ≠ .window) : PendingStep e ev (e₂, out) := by
  refine pendingStep_rest ?_ hnone hsite
  rw [hm.lib]
  exact hsize

theorem libSendto_site (hd : d.site ≠ .window) :
    ∀ x ∈ (libSendto o [] d).1, x.site ≠ .window := by
  intro x hx
  rcases SockLib.mem_libSendto hx with hx | rfl
  · cases hx
  · exact hd

/-- `send_all_win_packets` with a packet in the window. -/
theorem pendingStep_enterSend (hsize : 0 < e.lib.wSize) (hpos : 0 < e.lib.winBufPos)
    (hnone : e'.ctl.locals = none) : PendingStep e' ev (e.enterSend A o k) := by
  have hlib : (e.enterSend A o k).1.lib = e.lib := (Endpoint.moves_enterSend k).lib
  refine ⟨fun _ => by rw [hlib]; exact hpos, by rw [hlib]; exact hsize, ?_⟩
  intro d hd _
  obtain ⟨i, hi, hslot⟩ := (SockLib.isSendable_of_mem_sendAllWinPackets hd).slot hpos
  rw [hlib]
  refine ⟨i, hi, hslot, ?_⟩
  intro l hl
  rw [hnone] at hl
  cases hl

theorem pendingStep_copyAndSend (hsize : 0 < e.lib.wSize) (hnone : e'.ctl.locals = none)
    (buf : Payload) : PendingStep e' ev (e.copyAndSend A o buf k) := by
  have hsize' : 0 < (e.lib.copy2Winbuf buf).1.wSize := by
    rw [SockLib.copy2Winbuf_wSize]
    exact hsize
  rw [Endpoint.copyAndSend_eq]
  split
  · rename_i hfull
    exact pendingStep_enterSend hsize' (SockLib.copy2Winbuf_full hsize hfull) hnone
  · exact pendingStep_of_moves (Endpoint.moves_afterSend k 1) hsize'
      (Endpoint.afterSend_isSendRest k 1).locals (by simp)

theorem pendingStep_sendHandshake (hsize : 0 < e.lib.wSize) (udp : UdpPacket) (retryCnt : Nat)
    (hs : Handshake) : PendingStep e' ev (e.sendHandshake A o udp retryCnt hs) := by
  unfold Endpoint.sendHandshake
  split
  · exact pendingStep_rest hsize rfl (by simp)
  · have hsite := libSendto_site (o := o) (d := ⟨udp, .handshakeRequest⟩) (by simp)
    split <;> rename_i heq <;> rw [heq] at hsite <;> exact pendingStep_rest hsize rfl hsite

theorem pendingStep_begin (hsize : 0 < e.lib.wSize) (hnone : e'.ctl.locals = none) {c : Call}
    (hc : ∀ w m, c = .udpInit w m → 0 < w) : PendingStep e' ev (e.begin A o c) := by
  cases c with
  | udpInit w m => exact pendingStep_rest (hc w m rfl) rfl (by simp [Endpoint.begin])
  | clientHandshake _ _ =>
      refine pendingStep_sendHandshake ?_ _ _ _
      exact hsize
  | serverHandshake _ => exact pendingStep_rest hsize rfl (by simp [Endpoint.begin])
  | sockSendtoEx buf flag => exact pendingStep_copyAndSend hsize hnone buf
  | sendFile file =>
      cases file with
      | none => exact pendingStep_rest hsize rfl (by simp [Endpoint.begin])
      | some content => exact pendingStep_rest hsize rfl (by simp [Endpoint.begin])
  | sockRecvfrom _ => exact pendingStep_rest hsize rfl (by simp [Endpoint.begin])
  | recvFile canOpen _ =>
      cases canOpen with
      | true => exact pendingStep_rest hsize rfl (by simp [Endpoint.begin])
      | false => exact pendingStep_rest hsize rfl (by simp [Endpoint.begin])
  | srvWait4cnn _ => exact pendingStep_rest hsize rfl (by simp [Endpoint.begin])

theorem pendingStep_run (hsize : 0 < e.lib.wSize)
    (hflush : e.ctl = .sendFileLast ∨ e.ctl = .sockSendtoEx → 0 < e.lib.winBufPos)
    (hc : ∀ c w m, e.nextCall A = some c → c = .udpInit w m → 0 < w) (h : e.run A o = some p) :
    PendingStep e ev p := by
  unfold Endpoint.run at h
  split at h <;> rename_i hctl
  · obtain ⟨c, hcall, rfl⟩ := Option.map_eq_some_iff.1 h
    exact pendingStep_begin hsize (by rw [hctl]; rfl) fun w m => hc c w m hcall
  · cases h
    unfold Endpoint.readAndCopy
    split
    · exact pendingStep_rest hsize rfl (by simp)
    · exact pendingStep_copyAndSend hsize (by rw [hctl]; rfl) _
  · cases h
    exact pendingStep_enterSend hsize (hflush (Or.inl hctl)) (by rw [hctl]; rfl)
  · cases h
    exact pendingStep_enterSend hsize (hflush (Or.inr hctl)) (by rw [hctl]; rfl)
  · cases h
    exact pendingStep_of_moves Endpoint.moves_recvPiece hsize Endpoint.recvPiece_isRest.locals
      (by simp)
  · cases h

theorem pendingStep_timeout (h : PendingPart e) (hstep : e.timeout A o = some p) :
    PendingStep e (.act (.timeout o)) p := by
  unfold Endpoint.timeout at hstep
  split at hstep
  · rename_i l k hctl
    cases hstep
    have hlocals : e.ctl.locals = some l := by
      rw [hctl]
      rfl
    -- a call that waits has a packet in the window, and a timeout removes none
    have hpos : 0 < e.lib.winBufPos := h.waits (by rw [hlocals]; rfl)
    have hlib := fun oc : Outcome => (Endpoint.moves_settle (A := A) (e := e) k oc).lib
    refine ⟨fun _ => by rw [hlib]; exact hpos, by rw [hlib]; exact h.size, ?_⟩
    intro d hd hsite
    rw [hlib]
    rcases SockLib.mem_udpSendtoExTimeout hd with hsend | rfl | ⟨hwait, rfl⟩
    · obtain ⟨i, hi, hslot⟩ := hsend.slot hpos
      exact ⟨i, hi, hslot, fun _ _ _ => ⟨o, rfl⟩⟩
    · cases hsite
    · have hbuf := (h.locals l hlocals hwait).1
      exact ⟨l.buf, by omega, rfl, fun _ _ _ => ⟨o, rfl⟩⟩
  · cases hstep
    exact pendingStep_sendHandshake h.size _ _ _
  · cases hstep
    exact pendingStep_of_moves (Endpoint.moves_recvLoop _ _ _) h.size
      (Endpoint.recvLoop_isRest _).locals (by simp)
  · rename_i hctl
    cases hstep
    exact pendingStep_rest h.size (by rw [hctl]; rfl) (by simp)
  · cases hstep
    exact pendingStep_of_moves (Endpoint.moves_lingerLoop _) h.size
      (Endpoint.lingerLoop_isRest _).locals (by simp)
  · cases hstep

theorem pendingStep_error (hsize : 0 < e.lib.wSize) (h : e.error A = some p) :
    PendingStep e ev p := by
  unfold Endpoint.error at h
  split at h <;> cases h
  · exact pendingStep_of_moves (Endpoint.moves_afterSend _ _) hsize
      (Endpoint.afterSend_isSendRest _ _).locals (by simp)
  · exact pendingStep_rest hsize rfl (by simp)
  · exact pendingStep_of_moves (Endpoint.moves_recvFailed _) hsize
      (Endpoint.recvFailed_isRest _).locals (by simp)
  · exact pendingStep_rest hsize rfl (by simp)
  · exact pendingStep_rest hsize rfl (by simp)

/-- A packet arrives in `udp_sendtoEx`. -/
theorem pendingStep_recvInSend (h : PendingPart e) (hctl : e.ctl = .udpSendtoEx l k) :
    PendingStep e ev (e.recvInSend A o l k d) := by
  have hlocals : e.ctl.locals = some l := by
    rw [hctl]
    rfl
  have hpos : 0 < e.lib.winBufPos := h.waits (by rw [hlocals]; rfl)
  have hframe := SockLib.udpSendtoExPacket_frame e.lib o l d.pkt
  -- whatever the history says about the packet, the object, the wait and the output are these
  have hsettle : ∀ log : List Event, PendingStep e ev
      (({ e with lib := (e.lib.udpSendtoExPacket o l d.pkt).1, log := log } : Endpoint π).settle A k
        (e.lib.udpSendtoExPacket o l d.pkt).2.2, (e.lib.udpSendtoExPacket o l d.pkt).2.1) := by
    intro log
    refine ⟨?_, ?_, ?_⟩
    · intro hwaits
      obtain ⟨l', hl'⟩ := Option.isSome_iff_exists.1 hwaits
      rw [(Endpoint.moves_settle k _).lib]
      exact SockLib.udpSendtoExPacket_waits_pos hpos (settle_waits hl')
    · rw [(Endpoint.moves_settle k _).lib]
      exact lt_of_lt_of_eq h.size hframe.2.2.2.symm
    · intro x hx hsite
      rw [(Endpoint.moves_settle k _).lib]
      obtain ⟨hlib, hwait, rfl⟩ := SockLib.udpSendtoExPacket_window hx hsite
      obtain ⟨hbuf, hmarks⟩ := h.locals l hlocals hwait
      refine ⟨l.buf, ?_, ?_, ?_⟩
      · simp only [hlib]
        omega
      · simp only [hlib]
      · intro l' hl' hmark
        -- a call that has not acted on an acknowledgement has marked nothing
        rw [hlocals] at hl'
        cases hl'
        rw [hmarks] at hmark
        cases hmark
  rcases Endpoint.recvInSend_cases (A := A) (o := o) e l k d with ⟨-, -, hp⟩ | ⟨-, hp⟩ <;> rw [hp] <;>
    exact hsettle _

theorem pendingStep_recv (h : PendingPart e) (hrecv : (machine A).recv e o d = some p) :
    PendingStep e ev p := by
  -- the receiver changes `lastSeq` only
  obtain ⟨n, hn⟩ := SockLib.syncLastSeq_frame e.lib d.pkt
  have hsync : 0 < (e.lib.syncLastSeq d.pkt).wSize := by
    rw [hn]
    exact h.size
  rcases recv_cases hrecv with ⟨l, k, hctl, rfl⟩ | ⟨udp, r, hs, -, rfl⟩ | ⟨left, got, k, -, rfl⟩ |
    ⟨-, rfl⟩ | ⟨sec, -, rfl⟩
  · exact pendingStep_recvInSend h hctl
  · unfold Endpoint.recvInHandshake
    dsimp only
    split <;> exact pendingStep_rest h.size rfl (by simp)
  · rcases recvInData_cases (A := A) (o := o) e left got k d with
      ⟨-, hp⟩ | ⟨-, -, hp⟩ | ⟨-, -, out, hp, hout⟩ <;> rw [hp]
    · exact pendingStep_of_moves (Endpoint.moves_recvLoop _ _ k) h.size
        (Endpoint.recvLoop_isRest k).locals (libSendto_site (by simp [SockLib.handshakeAck]))
    · exact pendingStep_of_moves (Endpoint.moves_recvLoop _ _ k) hsync
        (Endpoint.recvLoop_isRest k).locals (libSendto_site (by simp [SockLib.ackPacket]))
    · refine pendingStep_of_moves (Endpoint.moves_recvLoop _ _ k) hsync
        (Endpoint.recvLoop_isRest k).locals ?_
      intro x hx
      rw [(hout x hx).1]
      simp
  · unfold Endpoint.recvInServerHandshake
    dsimp only
    split
    · exact pendingStep_rest h.size rfl (by simp)
    · exact pendingStep_rest h.size rfl (libSendto_site (by simp [SockLib.handshakeReply]))
  · exact pendingStep_of_moves (Endpoint.moves_lingerLoop sec) h.size
      (Endpoint.lingerLoop_isRest sec).locals (libSendto_site (by simp [SockLib.ackPacket]))

end

/-- Every object the program creates has a window of at least one slot. -/
def App.WindowsPos {π : Type*} (A : App π) : Prop :=
  ∀ x w m, A.call x = some (.udpInit w m) → 0 < w

section

variable {π : Type*} {A : App π} {start t : Solo (Endpoint π) Datagram} {e : Endpoint π} {o : Oracle}
  {p : Endpoint π × List Datagram} {es : List (SoloEvent Act Oracle Datagram)}
  {ev : SoloEvent Act Oracle Datagram}

theorem PendingPart.pendingStep (h : PendingPart t.node) (hA : A.WindowsPos)
    (hok : FlushesPending t ev) (hstep : (machine A).step t.node ev = some p) :
    PendingStep t.node ev p := by
  cases ev with
  | act i =>
      cases i with
      | run o =>
          refine pendingStep_run h.size hok ?_ hstep
          rintro c w m hcall rfl
          exact hA _ w m (Endpoint.nextCall_eq_some.1 hcall).2
      | timeout o => exact pendingStep_timeout h hstep
      | error => exact pendingStep_error h.size hstep
  | recv o d => exact pendingStep_recv h hstep

theorem PendingPart.step (h : PendingPart t.node) (hA : A.WindowsPos) (hok : FlushesPending t ev)
    (hstep : (machine A).step t.node ev = some p) : PendingPart p.1 :=
  ⟨h.locals.step hstep, (h.pendingStep hA hok hstep).waits, (h.pendingStep hA hok hstep).size⟩

/-- No step enters `send_all_win_packets` with an empty window. -/
theorem PendingPart.sendAllOn (h : PendingPart t.node) (hok : FlushesPending t ev) {s : SockLib}
    (hs : t.node.sendAllOn A ev = some s) : 0 < s.winBufPos := by
  have hcopy : ∀ buf, t.node.lib.copyFull buf = some s → 0 < s.winBufPos := by
    intro buf hbuf
    unfold SockLib.copyFull at hbuf
    split at hbuf
    · rename_i hfull
      cases hbuf
      exact SockLib.copy2Winbuf_full h.size hfull
    · cases hbuf
  unfold Endpoint.sendAllOn at hs
  split at hs
  · split at hs
    · split at hs
      · exact hcopy _ hs
      · cases hs
    · exact hcopy _ hs
    · rename_i hctl
      cases hs
      exact hok (Or.inl hctl)
    · rename_i hctl
      cases hs
      exact hok (Or.inr hctl)
    · cases hs
  · obtain ⟨l, hl, rfl⟩ := Option.map_eq_some_iff.1 hs
    exact h.waits (by rw [hl]; rfl)
  · cases hs

/-- Runs of any program on objects with any window, in which no caller flushes an empty window: a step
that meets the same condition enters `send_all_win_packets` only with a packet in the window, and every
packet of the window on the wire is in the window at that moment.  A packet that is marked as acknowledged
but not removed is sent only by the retransmission after a timeout, which forgets the marks. -/
theorem only_pending_sent (hA : A.WindowsPos) {memory : SockLib} {w : Nat} (hw : 0 < w) {app : π}
    (hstart : start.node = { lib := memory.udpInit w, ctl := .idle, app := app, log := [] })
    (hrun : Run (soloStep (machine A)) FlushesPending start es t) (hok : FlushesPending t ev)
    (hstep : (machine A).step t.node ev = some p) :
    (∀ s, t.node.sendAllOn A ev = some s → 0 < s.winBufPos) ∧
      ∀ d ∈ p.2, d.site = .window → ∃ i < p.1.lib.winBufPos, d = p.1.lib.slotDatagram i ∧
        ∀ l, t.node.ctl.locals = some l → l.arrACK i = true → ∃ o, ev = .act (.timeout o) := by
  have hinv : PendingPart t.node := by
    have hfirst : PendingPart start.node := by
      rw [hstart]
      refine ⟨localsPart_of_none rfl, ?_, hw⟩
      rintro ⟨⟩
    exact hrun.solo_invariant (fun _ _ _ hinv hok hp => hinv.step hA hok hp) hfirst
  exact ⟨fun s hs => hinv.sendAllOn hok hs, (hinv.pendingStep hA hok hstep).sends⟩

end

theorem windowsPos_ftpApp : ftpApp.WindowsPos := by
  intro x w m h
  cases x with
  | client c =>
      simp only [ftpApp, Client.call] at h
      split at h
      · split at h <;> cases h
        decide
      all_goals cases h
  | server s =>
      simp only [ftpApp, Server.call] at h
      split at h <;> cases h

/-- A server with a window of one packet that is about to send a response. -/
def respondingServer : Endpoint Program where
  lib := SockLib.zero.udpInit 1
  ctl := .idle
  app := .server ⟨9, [], .respond (sampleHandle none) msgTypeReqPut msgTypeRespOk⟩
  log := []

theorem only_pending_sent_response : ∃ p, (machine ftpApp).step respondingServer soloRuns = some p ∧
    ∀ d ∈ p.2, d.site = .window → ∃ i < p.1.lib.winBufPos, d = p.1.lib.slotDatagram i := by
  refine ⟨_, rfl, ?_⟩
  intro d hd hsite
  have hrun : Run (soloStep (machine ftpApp)) FlushesPending ⟨respondingServer, []⟩ []
      ⟨respondingServer, []⟩ := .nil
  have hok : FlushesPending ⟨respondingServer, []⟩ soloRuns := by
    rintro (h | h) <;> cases h
  obtain ⟨i, hi, hslot, -⟩ :=
    (only_pending_sent windowsPos_ftpApp (by decide) rfl hrun hok rfl).2 d hd hsite
  exact ⟨i, hi, hslot⟩

/-- An empty file on a window of one packet: its packet is sent when the window is full, confirmed, and
sent again by the last loop of `send_file`, which finds the window empty. -/
theorem removed_packet_sent : ∃ t p, Run (soloStep (machine scriptApp)) anyStep
      (scriptStart 1 [.sendFile (some [])]) [soloRuns, soloRuns, soloAnswer .ack 0, soloRuns] t ∧
    (machine scriptApp).step t.node soloRuns = some p ∧ p.1.lib.winBufPos = 0 ∧
    (∃ s, t.node.sendAllOn scriptApp soloRuns = some s ∧ s.winBufPos = 0) ∧
    ∃ d ∈ p.2, d.site = .window ∧ ¬ ∃ i < p.1.lib.winBufPos, d = p.1.lib.slotDatagram i := by
  obtain ⟨t, hrun, ⟨p, hp, hempty, d, hd, hsite⟩, s, hs, hpos⟩ := exists_solo_run (machine scriptApp)
    (scriptStart 1 [.sendFile (some [])]) [soloRuns, soloRuns, soloAnswer .ack 0, soloRuns]
    (fun t => (∃ p ∈ (machine scriptApp).step t.node soloRuns, p.1.lib.winBufPos = 0 ∧
        ∃ d ∈ p.2, d.site = .window) ∧
      ∃ s ∈ t.node.sendAllOn scriptApp soloRuns, s.winBufPos = 0) (by decide +kernel)
  refine ⟨t, p, hrun, hp, hempty, ⟨s, hs, hpos⟩, d, hd, hsite, ?_⟩
  rintro ⟨i, hi, -⟩
  omega

end Sample3
end FileTransfer
