import FileTransfer.Sample3.SendReport

/-!
# The message after a failed call

A call that returns `-1` leaves its packets in the window of the object.  `clean_send_iff` says when the
next message on the same object is not affected: exactly when the window is empty.  The run of the next
call is taken against an arbitrary network, from `copy_2_winbuf` to its return.
-/

namespace FileTransfer
namespace Sample3

/-- The call is in progress. -/
def InCall {π : Type*} (t : Solo (Endpoint π) Datagram) (_ : SoloEvent Act Oracle Datagram) : Prop :=
  t.node.ctl ≠ .idle

/-- The packet `copy_2_winbuf(buf)` numbers. -/
def SockLib.ownPacket (s : SockLib) (buf : Payload) : UdpPacket := (s.addUdpheader buf).2

/-- `sock_sendtoEx(buf, flag)`, called in the state `e`, is not disturbed by earlier calls: its packet is
the only pending one; in every run of the call no other packet of the window is sent; and a call that
returns `0`, and does not leave the packet for later, has sent it. -/
structure CleanSend {π : Type*} (A : App π) (e : Endpoint π) (buf : Payload) (flag : Bool) : Prop where
  taken : (e.copied buf).log = e.log ++ [.numbered (e.lib.ownPacket buf)]
  pending : (e.copied buf).lib.winBufPos = 1 ∧ (e.copied buf).lib.winBuf 0 = e.lib.ownPacket buf
  own : ∀ o p es t, e.run A o = some p → Run (soloStep (machine A)) InCall ⟨p.1, p.2⟩ es t →
    ∀ d ∈ t.sent, d.site = .window → d.pkt = e.lib.ownPacket buf
  sent : ∀ o p es t, e.run A o = some p → Run (soloStep (machine A)) InCall ⟨p.1, p.2⟩ es t →
    t.node.log.getLast? = some (.returned (.code 0)) → flag = false →
    ⟨e.lib.ownPacket buf, .window⟩ ∈ t.sent

/-! ## A window with at most one packet -/

namespace SockLib

variable {s : SockLib} {o : Oracle} {l : SendtoEx} {n : SeqNum} {arr : AckMarks} {udp : UdpPacket}
  {own : UdpPacket} {x : Datagram}

/-- The window holds the packet `own`, or nothing, and `own` still lies in its first slot. -/
structure HoldsOnly (s : SockLib) (own : UdpPacket) : Prop where
  first : s.winBuf 0 = own
  pos_le : s.winBufPos ≤ 1
  size : 0 < s.wSize

theorem HoldsOnly.sendable (h : s.HoldsOnly own) (hx : s.IsSendable x) : x = ⟨own, .window⟩ := by
  obtain ⟨i, hi, rfl⟩ := hx
  have h0 : i = 0 := by
    have := h.pos_le
    omega
  rw [h0, slotDatagram, h.first]

theorem HoldsOnly.remove (h : s.HoldsOnly own) (beyond : UdpPacket) (n : SeqNum) (arr : AckMarks) :
    (s.removePacketsFromWin beyond n arr).1.HoldsOnly own := by
  have hframe := removePacketsFromWin_frame (s := s) beyond n arr
  have hle : s.winBufPos ≤ s.wSize := h.pos_le.trans h.size
  cases hfind : s.findSeq n with
  | some i =>
      obtain ⟨hpos, -, hbuf⟩ := removePacketsFromWin_found beyond arr hle hfind
      have hempty : (s.removePacketsFromWin beyond n arr).1.winBufPos = 0 := by
        rw [hpos]
        have := h.pos_le
        omega
      refine ⟨?_, ?_, ?_⟩
      · rw [hbuf hempty, h.first]
      · omega
      · rw [hframe.2.2.2]
        exact h.size
  | none =>
      unfold removePacketsFromWin
      rw [hfind]
      dsimp only
      split
      · exact ⟨h.first, Nat.zero_le 1, h.size⟩
      · exact h

theorem HoldsOnly.packet (h : s.HoldsOnly own) (o : Oracle) (l : SendtoEx) (udp : UdpPacket) :
    (s.udpSendtoExPacket o l udp).1.HoldsOnly own := by
  rcases udpSendtoExPacket_lib s o l udp with hlib | ⟨n, arr, hlib⟩ <;> rw [hlib]
  · exact h
  · exact h.remove o.beyond n arr

/-- `send_all_win_packets` that reaches its wait has sent the packet. -/
theorem HoldsOnly.sendAll (h : s.HoldsOnly own) {out : List Datagram} {l' : SendtoEx}
    (hsend : s.sendAllWinPackets o = (out, .waits l')) : ⟨own, .window⟩ ∈ out := by
  unfold sendAllWinPackets at hsend
  split at hsend
  · obtain ⟨-, hout, -⟩ := sendtoExLoop_waits hsend
    have hlast : s.winBufPos - 1 = 0 := by
      have := h.pos_le
      omega
    rw [hout, hlast, slotDatagram, h.first]
    simp
  · cases hsend

/-- `copy_2_winbuf` on an empty window. -/
theorem holdsOnly_copy (hsize : 0 < s.wSize) (hempty : s.winBufPos = 0) (buf : Payload) :
    (s.copy2Winbuf buf).1.HoldsOnly (s.ownPacket buf) := by
  rw [copy2Winbuf_of_lt (by omega)]
  refine ⟨?_, ?_, hsize⟩
  · simp [hempty, ownPacket, addUdpheader]
  · simp [hempty]

end SockLib

/-! ## The run of the call -/

/-- Where `sock_sendtoEx(.., flag)` stands. -/
def MessageCaller (flag : Bool) : SendCaller → Prop
  | .sockSendtoExCopy f => f = flag
  | .sockSendtoEx => flag = false
  | _ => False

def MessageCtl (flag : Bool) : Control → Prop
  | .idle => True
  | .sockSendtoEx => flag = false
  | .udpSendtoEx _ k => MessageCaller flag k
  | _ => False

/-- The invariant of the call.  It returns `0` only after a wait, or when it leaves the packet for
later. -/
structure MessagePart {π : Type*} (own : UdpPacket) (flag : Bool)
    (t : Solo (Endpoint π) Datagram) : Prop where
  lib : t.node.lib.HoldsOnly own
  locals : LocalsPart t.node
  ctl : MessageCtl flag t.node.ctl
  only : ∀ d ∈ t.sent, d.site = .window → d = ⟨own, .window⟩
  waits : t.node.ctl.locals.isSome → ⟨own, .window⟩ ∈ t.sent
  report : t.node.log.getLast? = some (.returned (.code 0)) → flag = false →
    ⟨own, .window⟩ ∈ t.sent

section

variable {π : Type*} {A : App π} {e : Endpoint π} {o : Oracle} {k : SendCaller} {flag : Bool}
  {own : UdpPacket} {sent out : List Datagram} {t u : Solo (Endpoint π) Datagram}
  {ev : SoloEvent Act Oracle Datagram} {buf : Payload}

theorem message_failed (hlib : e.lib.HoldsOnly own)
    (honly : ∀ d ∈ sent, d.site = .window → d = ⟨own, .window⟩) :
    MessagePart own flag ⟨e.finish A (.code (-1)), sent⟩ := by
  refine ⟨hlib, localsPart_of_none rfl, trivial, honly, ?_, ?_⟩
  · rintro ⟨⟩
  · intro hlast
    simp [Endpoint.finish] at hlast

/-- The call goes on after `send_all_win_packets`, which has sent the packet. -/
theorem message_afterSend (hlib : e.lib.HoldsOnly own) (hk : MessageCaller flag k)
    (honly : ∀ d ∈ sent, d.site = .window → d = ⟨own, .window⟩) (hsent : ⟨own, .window⟩ ∈ sent)
    (r : Int) : MessagePart own flag ⟨e.afterSend A k r, sent⟩ := by
  have hctl : MessageCtl flag (e.afterSend A k r).ctl := by
    cases k with
    | sendFileCopy _ _ => cases hk
    | sendFileLast => cases hk
    | sockSendtoExCopy f =>
        have hf : f = flag := hk
        subst hf
        cases f <;> simp only [Endpoint.afterSend] <;> split_ifs <;> trivial
    | sockSendtoEx =>
        simp only [Endpoint.afterSend]
        split_ifs <;> trivial
  refine ⟨?_, localsPart_of_none (Endpoint.afterSend_isSendRest k r).locals, hctl, honly,
    fun _ => hsent, fun _ _ => hsent⟩
  rw [(Endpoint.moves_afterSend k r).lib]
  exact hlib

theorem message_settle (hlib : e.lib.HoldsOnly own) (hk : MessageCaller flag k)
    (honly : ∀ d ∈ sent, d.site = .window → d = ⟨own, .window⟩) (hsent : ⟨own, .window⟩ ∈ sent)
    {oc : Outcome} (hlocals : LocalsPart (e.settle A k oc)) :
    MessagePart own flag ⟨e.settle A k oc, sent⟩ := by
  cases oc with
  | waits l => exact ⟨hlib, hlocals, hk, honly, fun _ => hsent, fun _ _ => hsent⟩
  | returns r => exact message_afterSend hlib hk honly hsent r

/-- Entering `send_all_win_packets`: the packet is sent, or the call fails. -/
theorem message_enterSend (hlib : e.lib.HoldsOnly own) (hk : MessageCaller flag k)
    (honly : ∀ d ∈ sent, d.site = .window → d = ⟨own, .window⟩) :
    MessagePart own flag ⟨(e.enterSend A o k).1, sent ++ (e.enterSend A o k).2⟩ := by
  have honly' : ∀ d ∈ sent ++ (e.lib.sendAllWinPackets o).1, d.site = .window →
      d = ⟨own, .window⟩ := by
    intro d hd hsite
    rcases List.mem_append.1 hd with hd | hd
    · exact honly d hd hsite
    · exact hlib.sendable (SockLib.isSendable_of_mem_sendAllWinPackets hd)
  rcases SockLib.sendAllWinPackets_outcome (s := e.lib) (o := o) with hwaits | hret
  · have hmem := hlib.sendAll (Prod.ext rfl hwaits)
    exact message_settle hlib hk honly' (List.mem_append_right _ hmem) locals_enterSend
  · have hfail : e.enterSend A o k =
        (e.finish A (.code (-1)), (e.lib.sendAllWinPackets o).1) := by
      simp only [Endpoint.enterSend, Endpoint.settle, hret, afterSend_failed]
    rw [hfail]
    exact message_failed hlib honly'

/-- The step that begins the call. -/
theorem message_begin (hsize : 0 < e.lib.wSize) (hempty : e.lib.winBufPos = 0) :
    MessagePart (e.lib.ownPacket buf) flag
      ⟨(e.copyAndSend A o buf (.sockSendtoExCopy flag)).1,
        (e.copyAndSend A o buf (.sockSendtoExCopy flag)).2⟩ := by
  have hlib : (e.copied buf).lib.HoldsOnly (e.lib.ownPacket buf) :=
    SockLib.holdsOnly_copy hsize hempty buf
  rw [Endpoint.copyAndSend_eq]
  split
  · have hk : MessageCaller flag (.sockSendtoExCopy flag) := rfl
    have hnone : ∀ d ∈ ([] : List Datagram), d.site = .window →
        d = ⟨e.lib.ownPacket buf, .window⟩ := by simp
    exact message_enterSend hlib hk hnone
  · refine ⟨?_, localsPart_of_none (Endpoint.afterSend_isSendRest _ 1).locals, ?_, by simp, ?_, ?_⟩
    · rw [(Endpoint.moves_afterSend _ 1).lib]
      exact hlib
    · cases flag <;> simp [Endpoint.afterSend, MessageCtl, Endpoint.finish]
    · intro hwaits
      rw [(Endpoint.afterSend_isSendRest _ 1).locals] at hwaits
      cases hwaits
    · -- a call that leaves its packet for later has the flag set
      rintro hlast rfl
      simp [Endpoint.afterSend, Endpoint.copied, hempty, hsize] at hlast

/-- The call waits, and something happens. -/
theorem MessagePart.wait (h : MessagePart own flag t) {l : SendtoEx} (hctl : t.node.ctl = .udpSendtoEx l k)
    {p : Endpoint π × List Datagram} (hstep : (machine A).step t.node ev = some p) :
    MessagePart own flag ⟨p.1, t.sent ++ p.2⟩ := by
  have hlocals := h.locals.step hstep
  have hl : t.node.ctl.locals = some l := by
    rw [hctl]
    rfl
  have hk : MessageCaller flag k := by
    have := h.ctl
    rw [hctl] at this
    exact this
  have hsent : ⟨own, .window⟩ ∈ t.sent := h.waits (by rw [hl]; rfl)
  have hbuf : l.waitForACK = false → t.node.lib.slotDatagram l.buf = ⟨own, .window⟩ := by
    intro hwait
    have hzero : l.buf = 0 := by
      have := (h.locals l hl hwait).1
      have := h.lib.pos_le
      omega
    rw [hzero, SockLib.slotDatagram, h.lib.first]
  have honly : ∀ out : List Datagram, (∀ d ∈ out, d.site = .window → d = ⟨own, .window⟩) →
      ∀ d ∈ t.sent ++ out, d.site = .window → d = ⟨own, .window⟩ := by
    intro out hout d hd
    rcases List.mem_append.1 hd with hd | hd
    · exact h.only d hd
    · exact hout d hd
  rcases step_of_udpSendtoEx hctl hstep with ⟨o, -, rfl⟩ | ⟨-, rfl⟩ | ⟨o, d, -, rfl⟩
  · refine message_settle h.lib hk (honly _ ?_) (List.mem_append_left _ hsent) hlocals
    intro d hd hsite
    rcases SockLib.mem_udpSendtoExTimeout hd with hd | rfl | ⟨hwait, rfl⟩
    · exact h.lib.sendable hd
    · cases hsite
    · exact hbuf hwait
  · rw [afterSend_failed]
    exact message_failed h.lib (honly [] (by simp))
  · have hout : ∀ x ∈ (t.node.lib.udpSendtoExPacket o l d.pkt).2.1, x.site = .window →
        x = ⟨own, .window⟩ := by
      intro x hx hsite
      obtain ⟨-, hwait, rfl⟩ := SockLib.udpSendtoExPacket_window hx hsite
      exact hbuf hwait
    -- whether the acknowledgement is logged does not matter here
    rcases Endpoint.recvInSend_cases (A := A) (o := o) t.node l k d with
      ⟨-, -, hp⟩ | ⟨-, hp⟩ <;> rw [hp] at hlocals ⊢ <;>
      exact message_settle (h.lib.packet o l d.pkt) hk (honly _ hout)
        (List.mem_append_left _ hsent) hlocals

theorem MessagePart.step (h : MessagePart own flag t) (hcall : InCall t ev)
    (hstep : soloStep (machine A) t ev = some u) : MessagePart own flag u := by
  obtain ⟨p, hp, rfl⟩ := soloStep_eq_some.1 hstep
  have hctl := h.ctl
  cases hc : t.node.ctl <;> rw [hc] at hctl
  case idle => exact absurd hc hcall
  case sockSendtoEx =>
    obtain ⟨o, -, rfl⟩ := step_of_sockSendtoEx hc hp
    exact message_enterSend h.lib hctl h.only
  case udpSendtoEx l k => exact h.wait hc hp
  all_goals cases hctl

/-! ## When the next message is not disturbed -/

theorem run_of_nextCall {c : Call} (h : e.nextCall A = some c) : e.run A o = some (e.begin A o c) := by
  have hidle := (Endpoint.nextCall_eq_some.1 h).1
  simp only [Endpoint.run, hidle, h, Option.map_some]

/-- Whatever calls came before and however they ended: `sock_sendtoEx` is not disturbed exactly when the
window of the object is empty, and has a slot. -/
theorem clean_send_iff (hcall : e.nextCall A = some (.sockSendtoEx buf flag)) :
    CleanSend A e buf flag ↔ e.lib.winBufPos = 0 ∧ 0 < e.lib.wSize := by
  constructor
  · intro h
    obtain ⟨hone, -⟩ := h.pending
    by_cases hlt : e.lib.winBufPos < e.lib.wSize
    · simp only [Endpoint.copied, SockLib.copy2Winbuf_of_lt hlt] at hone
      omega
    · -- the window is full, and the message has not been taken in
      have htaken := h.taken
      simp [Endpoint.copied, hlt] at htaken
  · rintro ⟨hempty, hsize⟩
    have hinv : ∀ o p es t, e.run A o = some p →
        Run (soloStep (machine A)) InCall ⟨p.1, p.2⟩ es t →
        MessagePart (e.lib.ownPacket buf) flag t := by
      intro o p es t hp hrun
      rw [run_of_nextCall hcall] at hp
      cases hp
      exact hrun.invariant (fun _ _ _ hinv hcall hst => hinv.step hcall hst)
        (message_begin hsize hempty)
    have hlt : e.lib.winBufPos < e.lib.wSize := by omega
    refine ⟨?_, ?_, ?_, ?_⟩
    · simp [Endpoint.copied, hlt, SockLib.ownPacket]
    · refine ⟨?_, (SockLib.holdsOnly_copy hsize hempty buf).first⟩
      simp [Endpoint.copied, SockLib.copy2Winbuf_of_lt hlt, hempty]
    · intro o p es t hp hrun d hd hsite
      rw [(hinv o p es t hp hrun).only d hd hsite]
    · intro o p es t hp hrun hlast hflag
      exact (hinv o p es t hp hrun).report hlast hflag

end

theorem clean_send_response : CleanSend ftpApp respondingServer
    (Server.responseHeader (sampleHandle none) msgTypeReqPut msgTypeRespOk) false :=
  (clean_send_iff rfl).2 ⟨rfl, by decide⟩

/-- The message that a call sends. -/
def Call.message : Call → Option (Payload × Bool)
  | .sockSendtoEx buf flag => some (buf, flag)
  | _ => none

/-- `send_file` fails while it waits for its only packet.  The next message is put behind that packet,
and the first packet the message sends is the old one. -/
theorem failed_send_repeated : ∃ t p d, Run (soloStep (machine scriptApp)) anyStep
      (scriptStart 2 [.sendFile (some [0]), .sockSendtoEx (.ofBytes [1]) false])
      [soloRuns, soloRuns, soloRuns, soloRuns, .act .error] t ∧
    t.node.log.getLast? = some (.returned (.code (-1))) ∧
    (t.node.nextCall scriptApp).bind Call.message = some (.ofBytes [1], false) ∧
    t.node.run scriptApp .reliable = some p ∧ p.2.head? = some d ∧
    d.pkt ≠ t.node.lib.ownPacket (.ofBytes [1]) ∧ ¬ CleanSend scriptApp t.node (.ofBytes [1]) false := by
  obtain ⟨t, hrun, hlast, hcall, p, hp, d, hd, hsite, hne⟩ := exists_solo_run (machine scriptApp)
    (scriptStart 2 [.sendFile (some [0]), .sockSendtoEx (.ofBytes [1]) false])
    [soloRuns, soloRuns, soloRuns, soloRuns, .act .error]
    (fun t => t.node.log.getLast? = some (.returned (.code (-1))) ∧
      (t.node.nextCall scriptApp).bind Call.message = some (.ofBytes [1], false) ∧
      ∃ p ∈ t.node.run scriptApp .reliable, ∃ d ∈ p.2.head?, d.site = .window ∧
        d.pkt ≠ t.node.lib.ownPacket (.ofBytes [1])) (by decide +kernel)
  refine ⟨t, p, d, hrun, hlast, hcall, hp, hd, hne, fun hclean => hne ?_⟩
  exact hclean.own _ p [] ⟨p.1, p.2⟩ hp .nil d (List.mem_of_mem_head? hd) hsite

end Sample3
end FileTransfer
