import FileTransfer.Sample3.SenderLink

/-!
# Every step of an endpoint is a step of the abstract sender

The endpoint-level form of `SenderLink.lean`: whatever an endpoint does, apart from starting a session
anew, is a step of the go-back-N sender of its outgoing link.
-/

namespace FileTransfer
namespace Sample3

/-- The calls that give the object new sequence numbers. -/
def Call.Restarts : Call → Prop
  | .udpInit _ _ => True
  | .clientHandshake _ _ => True
  | _ => False

/-- The control states in which a packet gives the object new sequence numbers. -/
def Control.Restarts : Control → Prop
  | .udpSendto _ _ _ => True
  | .serverHandshake => True
  | _ => False

instance : DecidablePred Call.Restarts
  | .udpInit _ _ | .clientHandshake _ _ => inferInstanceAs (Decidable True)
  | .serverHandshake _ | .sockSendtoEx _ _ | .sendFile _ | .sockRecvfrom _ | .recvFile _ _
  | .srvWait4cnn _ => inferInstanceAs (Decidable False)

instance : DecidablePred Control.Restarts
  | .udpSendto _ _ _ | .serverHandshake => inferInstanceAs (Decidable True)
  | .idle | .sendFile _ _ | .sendFileLast | .sockSendtoEx | .recvFile _ _ | .udpSendtoEx _ _
  | .sockRecvfrom _ _ _ | .srvWait4cnn _ => inferInstanceAs (Decidable False)

/-- Two objects with the same sender's half. -/
structure SameSender (s s' : SockLib) : Prop where
  seq : s'.seq = s.seq
  wSize : s'.wSize = s.wSize
  winBuf : s'.winBuf = s.winBuf
  winBufPos : s'.winBufPos = s.winBufPos

theorem SameSender.refl (s : SockLib) : SameSender s s := by
  constructor <;> exact Eq.refl _

theorem SendBase.congr {w start : Nat} {sub : List Payload} {base : Nat} {s s' : SockLib}
    (h : SendBase w start sub base s) (hs : SameSender s s') : SendBase w start sub base s' := by
  obtain ⟨h1, h2, h3, h4, h5, h6, h7⟩ := h
  refine ⟨by rw [hs.wSize, h1], h2, by rw [hs.seq, h3], by rw [hs.winBufPos, h4],
    by rw [hs.winBufPos]; exact h5, ?_, ?_⟩
  · rw [hs.winBuf, hs.winBufPos]
    exact h6
  · rw [hs.winBuf]
    exact h7

theorem ctlPart_of_isRest {sub : List Payload} {base low : Nat} {s : SockLib} {c : Control}
    (h : c.IsRest) : CtlPart sub base low s c := by
  cases c <;> simp_all [Control.IsRest, CtlPart]

section

variable {π : Type*} {w start : Nat} {old : List Payload} {g : GoBackN.State Payload} {A : App π}
  {e e' : Endpoint π} {o : Oracle} {k : SendCaller} {l : SendtoEx}

/-- The reply the sender takes in becomes the last one it has heard. -/
theorem SendPart.hear (h : SendPart w start old g e) (hinv : GoBackN.Inv 32 w g) {x : Nat}
    {rest : List Nat} (hr : g.replies = x :: rest) : SendPart w start old (g.hear x rest) e :=
  ⟨h.submitted, h.base, h.ctl.mono (hinv.replies_low x (by simp [hr]))⟩

/-- A step that leaves the sender's half alone. -/
theorem sendStep_quiet (hinv : GoBackN.Inv 32 w g) (hpart : SendPart w start old g e)
    (hlib : SameSender e.lib e'.lib) (hlog : numberedData e'.log = numberedData e.log)
    (hctl : CtlPart g.submitted g.base g.low e'.lib e'.ctl) {out : List Datagram}
    (hout : dataOn out = []) : ∃ g', SendStep w start old g g' e' out :=
  ⟨g, hinv, ⟨by rw [hlog]; exact hpart.submitted, hpart.base.congr hlib, hctl⟩, rfl, rfl,
    List.prefix_refl _, [], by simp, by rw [hout]; exact .nil⟩

/-- So is one that goes on somewhere else, with another receiver's half. -/
theorem sendStep_goto (hinv : GoBackN.Inv 32 w g) (hpart : SendPart w start old g e) {s : SockLib}
    (hs : SameSender e.lib s) {c : Control} (hctl : CtlPart g.submitted g.base g.low s c)
    {out : List Datagram} (hout : dataOn out = []) :
    ∃ g', SendStep w start old g g' { e with lib := s, ctl := c } out :=
  ⟨g, hinv, ⟨hpart.submitted, hpart.base.congr hs, hctl⟩, rfl, rfl, List.prefix_refl _, [],
    by simp, by rw [hout]; exact .nil⟩

/-- Going to rest is a step that leaves the sender's half alone. -/
theorem sendStep_rest (hinv : GoBackN.Inv 32 w g) (hpart : SendPart w start old g e)
    (hlib : SameSender e.lib e'.lib) (hlog : numberedData e'.log = numberedData e.log)
    (hctl : e'.ctl.IsRest) {out : List Datagram} (hout : dataOn out = []) :
    ∃ g', SendStep w start old g g' e' out :=
  sendStep_quiet hinv hpart hlib hlog (ctlPart_of_isRest hctl) hout

theorem sendStep_moves (hinv : GoBackN.Inv 32 w g) (hpart : SendPart w start old g e)
    (hmoves : Endpoint.Moves A e e') (hctl : e'.ctl.IsRest) : ∃ g', SendStep w start old g g' e' [] :=
  sendStep_rest hinv hpart (by rw [hmoves.lib]; exact .refl _) (numberedData_of_moves hmoves) hctl rfl

/-! ## Steps without a packet -/

theorem sendStep_finishHandshake (hinv : GoBackN.Inv 32 w g) (hpart : SendPart w start old g e)
    (r : Int) : ∃ g', SendStep w start old g g' (e.finishHandshake A r) [] :=
  sendStep_rest hinv hpart (by exact .refl _) (by simp [Endpoint.finishHandshake, Endpoint.finish])
    (by trivial) rfl

theorem sendStep_sendHandshake (hinv : GoBackN.Inv 32 w g) (hpart : SendPart w start old g e)
    (udp : UdpPacket) (retryCnt : Nat) (hs : Handshake) :
    ∃ g', SendStep w start old g g' (e.sendHandshake A o udp retryCnt hs).1
      (e.sendHandshake A o udp retryCnt hs).2 := by
  unfold Endpoint.sendHandshake
  split
  · exact sendStep_finishHandshake hinv hpart (-1)
  · unfold libSendto
    split <;> rename_i heq <;> split_ifs at heq <;> cases heq
    · exact sendStep_goto hinv hpart (.refl _) (c := .udpSendto udp retryCnt hs) trivial rfl
    · exact sendStep_finishHandshake hinv hpart (-1)

theorem sendStep_begin (hinv : GoBackN.Inv 32 w g) (hpart : SendPart w start old g e) {c : Call}
    (hc : ¬ c.Restarts) : ∃ g', SendStep w start old g g' (e.begin A o c).1 (e.begin A o c).2 := by
  cases c with
  | udpInit _ _ => exact absurd trivial hc
  | clientHandshake _ _ => exact absurd trivial hc
  | serverHandshake serverSeq =>
      exact sendStep_goto hinv hpart (s := { e.lib with hsData := ⟨0, serverSeq⟩ })
        ⟨rfl, rfl, rfl, rfl⟩ (c := .serverHandshake) trivial dataOn_nil
  | sockSendtoEx buf _ => exact sendStep_copyAndSend hinv hpart.submitted hpart.base buf
  | sendFile file =>
      cases file with
      | none =>
          exact sendStep_moves hinv hpart (Endpoint.moves_finish (by simp [Ret.IsHandshake])) trivial
      | some content =>
          exact sendStep_goto hinv hpart (.refl _) (c := .sendFile content false)
            (by simp [CtlPart]) rfl
  | sockRecvfrom _ => exact sendStep_moves hinv hpart (Endpoint.moves_ctl (A := A) _) trivial
  | recvFile canOpen _ =>
      cases canOpen with
      | true => exact sendStep_moves hinv hpart (Endpoint.moves_ctl (A := A) _) trivial
      | false =>
          exact sendStep_moves hinv hpart (Endpoint.moves_finish (by simp [Ret.IsHandshake])) trivial
  | srvWait4cnn _ => exact sendStep_moves hinv hpart (Endpoint.moves_ctl (A := A) _) trivial

theorem sendStep_run (hinv : GoBackN.Inv 32 w g) (hpart : SendPart w start old g e)
    (hcall : ∀ c ∈ e.nextCall A, ¬ c.Restarts)
    {p : Endpoint π × List Datagram} (h : e.run A o = some p) :
    ∃ g', SendStep w start old g g' p.1 p.2 := by
  have hctl := hpart.ctl
  -- by where the endpoint stands; the read loop and `sock_sendtoEx` touch the window
  unfold Endpoint.run at h
  split at h
  · obtain ⟨c, hc, rfl⟩ := Option.map_eq_some_iff.1 h
    exact sendStep_begin hinv hpart (hcall c hc)
  · rename_i rest eof heq
    cases h
    rw [heq] at hctl
    unfold Endpoint.readAndCopy
    split
    · rename_i heof
      exact sendStep_goto hinv hpart (.refl _) (c := .sendFileLast) (hctl heof) rfl
    · exact sendStep_copyAndSend hinv hpart.submitted hpart.base _
  · rename_i heq
    cases h
    rw [heq] at hctl
    exact sendStep_enterSend hinv hpart.submitted hpart.base hctl
  · rename_i heq
    cases h
    rw [heq] at hctl
    exact sendStep_enterSend hinv hpart.submitted hpart.base hctl
  · cases h
    exact sendStep_moves hinv hpart Endpoint.moves_recvPiece Endpoint.recvPiece_isRest
  · cases h

/-- A timeout of the sender puts packets of the window on the wire again. -/
theorem sendStep_sendTimeout (hinv : GoBackN.Inv 32 w g) (hpart : SendPart w start old g e)
    (hctl : e.ctl = .udpSendtoEx l k) :
    let r := e.lib.udpSendtoExTimeout o l
    ∃ g', SendStep w start old g g' (e.settle A k r.2) r.1 := by
  have hpartCtl := hpart.ctl
  rw [hctl] at hpartCtl
  obtain ⟨hne, -, hbuf⟩ := hpartCtl
  refine SendStep.settle (e := e) (s := e.lib) hinv hpart.submitted hpart.base hne
    ?_ ?_
  · intro l' hl'
    rcases SockLib.udpSendtoExTimeout_outcome (s := e.lib) (o := o) (l := l) with hoc | hoc
    · cases hoc.symm.trans hl'
      refine ⟨hne, ?_, hbuf⟩
      intro i _ hmark
      cases hmark
    · cases hoc.symm.trans hl'
  · intro d hd hsite
    rcases SockLib.mem_udpSendtoExTimeout hd with h | rfl | ⟨hw, rfl⟩
    · exact h
    · cases hsite
    · exact ⟨e.lib.winBufPos - 1, by omega, by rw [hbuf hw]⟩

theorem sendStep_timeout (hinv : GoBackN.Inv 32 w g) (hpart : SendPart w start old g e)
    {p : Endpoint π × List Datagram} (h : e.timeout A o = some p) :
    ∃ g', SendStep w start old g g' p.1 p.2 := by
  unfold Endpoint.timeout at h
  split at h
  · rename_i heq
    cases h
    exact sendStep_sendTimeout hinv hpart heq
  · cases h
    exact sendStep_sendHandshake hinv hpart _ _ _
  · cases h
    exact sendStep_moves hinv hpart (Endpoint.moves_recvLoop _ _ _) (Endpoint.recvLoop_isRest _)
  · rename_i heq
    cases h
    exact sendStep_quiet hinv hpart (by exact .refl _) rfl (by rw [heq]; trivial) rfl
  · cases h
    exact sendStep_moves hinv hpart (Endpoint.moves_lingerLoop _) (Endpoint.lingerLoop_isRest _)
  · cases h

theorem sendStep_error (hinv : GoBackN.Inv 32 w g) (hpart : SendPart w start old g e)
    {p : Endpoint π × List Datagram} (h : e.error A = some p) :
    ∃ g', SendStep w start old g g' p.1 p.2 := by
  have hctl := hpart.ctl
  unfold Endpoint.error at h
  split at h
  · rename_i l k heq
    cases h
    rw [heq] at hctl
    exact sendStep_quiet hinv hpart (by rw [(Endpoint.moves_afterSend _ _).lib]; exact .refl _)
      (numberedData_afterSend _) (ctlPart_afterSend hctl.1 _) rfl
  · cases h
    exact sendStep_finishHandshake hinv hpart (-1)
  · cases h
    exact sendStep_moves hinv hpart (Endpoint.moves_recvFailed _) (Endpoint.recvFailed_isRest _)
  · cases h
    exact sendStep_finishHandshake hinv hpart (-1)
  · cases h
    exact sendStep_moves hinv hpart (Endpoint.moves_finish (by simp [Ret.IsHandshake])) trivial
  · cases h

theorem sendStep_act (hinv : GoBackN.Inv 32 w g) (hpart : SendPart w start old g e)
    (hcall : ∀ c ∈ e.nextCall A, ¬ c.Restarts) {i : Act}
    {p : Endpoint π × List Datagram} (h : (machine A).act e i = some p) :
    ∃ g', SendStep w start old g g' p.1 p.2 := by
  cases i with
  | run o => exact sendStep_run hinv hpart hcall h
  | timeout o => exact sendStep_timeout hinv hpart h
  | error => exact sendStep_error hinv hpart h

/-! ## Steps with a packet -/

theorem dataOn_libSendto {d : Datagram} (hd : d.site ≠ .window) :
    dataOn (libSendto o [] d).1 = [] := by
  unfold libSendto
  split <;> simp [dataOn_cons, hd]

theorem dataOn_eq_nil {out : List Datagram} (hout : ∀ x ∈ out, x.site = .sendAck) : dataOn out = [] := by
  refine List.map_eq_nil_iff.2 (List.filter_eq_nil_iff.2 ?_)
  intro x hx
  rw [hout x hx]
  decide

theorem sameSender_syncLastSeq (s : SockLib) (udp : UdpPacket) : SameSender s (s.syncLastSeq udp) := by
  obtain ⟨n, hn⟩ := SockLib.syncLastSeq_frame s udp
  rw [hn]
  exact ⟨rfl, rfl, rfl, rfl⟩

/-- `sock_recvfrom` leaves the sender's half alone. -/
theorem sendStep_recvInData (hinv : GoBackN.Inv 32 w g) (hpart : SendPart w start old g e) (left : Int)
    (got : List Byte) (k : RecvCaller) (d : Datagram) :
    ∃ g', SendStep w start old g g' (e.recvInData A o left got k d).1
      (e.recvInData A o left got k d).2 := by
  have hsync := sameSender_syncLastSeq e.lib d.pkt
  have hsynced : numberedData (if e.lib.lastSeq = -1 then [Event.synced d] else []) = [] := by
    split <;> rfl
  rcases recvInData_cases (A := A) (o := o) e left got k d with
    ⟨-, hp⟩ | ⟨-, -, hp⟩ | ⟨-, -, out, hp, hout⟩ <;> rw [hp]
  · refine sendStep_rest hinv hpart ?_ (numberedData_of_moves (Endpoint.moves_recvLoop _ _ k))
      (Endpoint.recvLoop_isRest _) (dataOn_libSendto (by simp [SockLib.handshakeAck]))
    rw [(Endpoint.moves_recvLoop _ _ k).lib]
    exact .refl _
  · refine sendStep_rest hinv hpart ?_ ?_ (Endpoint.recvLoop_isRest _)
      (dataOn_libSendto (by simp [SockLib.ackPacket]))
    · rw [(Endpoint.moves_recvLoop _ _ k).lib]
      exact ⟨hsync.seq, hsync.wSize, hsync.winBuf, hsync.winBufPos⟩
    · rw [numberedData_of_moves (Endpoint.moves_recvLoop _ _ k)]
      simp [hsynced]
  · -- whatever else is answered is not from the window
    have hdata : dataOn out = [] := dataOn_eq_nil fun x hx => (hout x hx).1
    refine sendStep_rest hinv hpart ?_ ?_ (Endpoint.recvLoop_isRest _) hdata
    · rw [(Endpoint.moves_recvLoop _ _ k).lib]
      exact hsync
    · rw [numberedData_of_moves (Endpoint.moves_recvLoop _ _ k)]
      simp [hsynced]

theorem sendStep_recvInLinger (hinv : GoBackN.Inv 32 w g) (hpart : SendPart w start old g e)
    (sec : Int) (d : Datagram) :
    ∃ g', SendStep w start old g g' (e.recvInLinger A o sec d).1 (e.recvInLinger A o sec d).2 := by
  unfold Endpoint.recvInLinger
  refine sendStep_rest hinv hpart ?_ ?_ (Endpoint.lingerLoop_isRest _)
    (dataOn_libSendto (by simp [SockLib.ackPacket]))
  · rw [(Endpoint.moves_lingerLoop sec).lib]
    exact .refl _
  · rw [numberedData_of_moves (Endpoint.moves_lingerLoop sec)]
    simp

/-- What `udp_sendtoEx` must not take in for the window to stay sound: a NACK or SACK that is no reply,
one that makes `remove_packets_from_win` empty the window without having found the packet, or a packet
of another type that it acknowledges. -/
def SendTakes (s : SockLib) (beyond : UdpPacket) (d : Datagram) : Prop :=
  match d.pkt.ackType with
  | .ack => d.site = .sendAck
  | .nack => d.site = .sendAck ∧
      (s.winBufPos = 0 ∨ s.clearsUnfound beyond (d.pkt.seq - 1) = false)
  | .sack => d.site = .sendAck ∧
      (s.winBufPos = 0 ∨ s.clearsUnfound beyond (d.pkt.seq - 1) = false)
  | _ => s.acksUnknown d.pkt = false

instance (s : SockLib) (beyond : UdpPacket) : (d : Datagram) → Decidable (SendTakes s beyond d)
  | ⟨⟨_, .ack, _⟩, _⟩ => inferInstanceAs (Decidable (_ = _))
  | ⟨⟨_, .nack, _⟩, _⟩ | ⟨⟨_, .sack, _⟩, _⟩ => inferInstanceAs (Decidable (_ ∧ (_ ∨ _)))
  | ⟨⟨_, .request, _⟩, _⟩ | ⟨⟨_, .handshake, _⟩, _⟩ | ⟨⟨_, .unknown _, _⟩, _⟩ =>
      inferInstanceAs (Decidable (_ = _))

/-- `udp_sendtoEx` takes a datagram in: a reply, which is the last one heard, or something it ignores. -/
theorem sendStep_recvInSend (hinv : GoBackN.Inv 32 w g) (hpart : SendPart w start old g e)
    (hctl : e.ctl = .udpSendtoEx l k) {d : Datagram} (htakes : SendTakes e.lib o.beyond d)
    (hreply : d.site = .sendAck → IsReply start g.low d.pkt) :
    ∃ g', SendStep w start old g g' (e.recvInSend A o l k d).1 (e.recvInSend A o l k d).2 := by
  have hpartCtl := hpart.ctl
  rw [hctl] at hpartCtl
  obtain ⟨hne, hmarks, hbuf⟩ := hpartCtl
  -- a NACK or a SACK names the packet the peer waits for
  have hnack : d.pkt.ackType = .nack ∨ d.pkt.ackType = .sack → d.site = .sendAck →
      d.pkt.seq.val = (start + g.low) % 32 := by
    intro htype hsite
    rcases hreply hsite with ⟨hack, -⟩ | ⟨-, hseq⟩
    · rcases htype with htype | htype <;> rw [hack] at htype <;> cases htype
    · exact hseq
  -- a packet of no known type changes nothing, and the call waits again
  have hother : e.lib.acksUnknown d.pkt = false →
      (∃ g', SendStep w start old g g' (({ e with lib := e.lib, log := e.log } : Endpoint π).settle A k
        (e.lib.udpSendtoExUnknown o l d.pkt).2) (e.lib.udpSendtoExUnknown o l d.pkt).1) := by
    intro hignored
    simp only [SockLib.udpSendtoExUnknown, hignored, Bool.false_eq_true, if_false]
    refine SendStep.settle hinv hpart.submitted hpart.base hne ?_ ?_
    · intro l' hl'
      have hloop : (e.lib.sendtoExLoop o l []).2 = .waits l ∨
          (e.lib.sendtoExLoop o l []).2 = .returns (-1) := SockLib.sendtoExLoop_outcome
      rcases hloop with hoc | hoc
      · cases hoc.symm.trans hl'
        exact ⟨hne, hmarks, hbuf⟩
      · cases hoc.symm.trans hl'
    · intro x hx _
      rcases SockLib.mem_sendtoExLoop hx with hx | ⟨hw, rfl⟩
      · cases hx
      · exact ⟨e.lib.winBufPos - 1, by omega, by rw [hbuf hw]⟩
  cases htype : d.pkt.ackType with
  | ack =>
      simp only [SendTakes, htype] at htakes
      simp only [Endpoint.recvInSend, SockLib.udpSendtoExPacket, htype, List.append_nil]
      rcases hreply htakes with ⟨-, hseq⟩ | ⟨hbad, -⟩
      · exact sendStep_ack hinv hpart.submitted hpart.base hne hmarks hseq
      · rcases hbad with hbad | hbad <;> rw [htype] at hbad <;> cases hbad
  | nack =>
      simp only [SendTakes, htype] at htakes
      simp only [Endpoint.recvInSend, SockLib.udpSendtoExPacket, htype, List.append_nil]
      exact sendStep_nack hinv hpart.submitted hpart.base hne (hnack (.inl htype) htakes.1) htakes.2
  | sack =>
      simp only [SendTakes, htype] at htakes
      simp only [Endpoint.recvInSend, SockLib.udpSendtoExPacket, htype, List.append_nil]
      exact sendStep_nack hinv hpart.submitted hpart.base hne (hnack (.inr htype) htakes.1) htakes.2
  | _ =>
      simp only [SendTakes, htype] at htakes
      simp only [Endpoint.recvInSend, SockLib.udpSendtoExPacket, htype, htakes, Bool.false_eq_true,
        if_false, List.append_nil]
      exact hother htakes

/-- An endpoint takes a datagram in, outside of the handshakes. -/
theorem sendStep_recv (hinv : GoBackN.Inv 32 w g) (hpart : SendPart w start old g e)
    (hctl : ¬ e.ctl.Restarts) {d : Datagram}
    (htakes : ∀ l k, e.ctl = .udpSendtoEx l k → SendTakes e.lib o.beyond d)
    (hreply : g.submitted ≠ [] → d.site = .sendAck → IsReply start g.low d.pkt)
    {p : Endpoint π × List Datagram} (h : (machine A).recv e o d = some p) :
    ∃ g', SendStep w start old g g' p.1 p.2 := by
  have hpartCtl := hpart.ctl
  have h' : e.packet A o d = some p := h
  unfold Endpoint.packet at h'
  split at h'
  · rename_i l k heq
    cases h'
    rw [heq] at hpartCtl
    exact sendStep_recvInSend hinv hpart heq (htakes l k heq) (hreply hpartCtl.1)
  · rename_i heq
    rw [heq] at hctl
    exact absurd trivial hctl
  · cases h'
    exact sendStep_recvInData hinv hpart _ _ _ _
  · rename_i heq
    rw [heq] at hctl
    exact absurd trivial hctl
  · cases h'
    exact sendStep_recvInLinger hinv hpart _ _
  · cases h'

/-! ## Which steps number a packet -/

/-- `sock_sendtoEx` hands its buffer to `copy_2_winbuf`. -/
def Call.Numbers : Call → Prop
  | .sockSendtoEx _ _ => True
  | _ => False

/-- `send_file` is about to read the next chunk. -/
def Control.Reads : Control → Prop
  | .sendFile _ eof => eof = false
  | _ => False

/-- The next step calls `copy_2_winbuf`. -/
def Endpoint.Numbers (A : App π) (e : Endpoint π) : Prop :=
  (∃ c ∈ e.nextCall A, c.Numbers) ∨ e.ctl.Reads

instance : DecidablePred Call.Numbers
  | .sockSendtoEx _ _ => inferInstanceAs (Decidable True)
  | .udpInit _ _ | .clientHandshake _ _ | .serverHandshake _ | .sendFile _ | .sockRecvfrom _
  | .recvFile _ _ | .srvWait4cnn _ => inferInstanceAs (Decidable False)

instance : DecidablePred Control.Reads
  | .sendFile _ eof => inferInstanceAs (Decidable (eof = false))
  | .idle | .sendFileLast | .sockSendtoEx | .recvFile _ _ | .udpSendtoEx _ _ | .udpSendto _ _ _
  | .sockRecvfrom _ _ _ | .serverHandshake | .srvWait4cnn _ => inferInstanceAs (Decidable False)

instance (A : App π) (e : Endpoint π) : Decidable (e.Numbers A) :=
  inferInstanceAs (Decidable ((∃ c ∈ e.nextCall A, c.Numbers) ∨ e.ctl.Reads))

theorem numberedData_begin {c : Call} (hc : ¬ c.Numbers) :
    numberedData (e.begin A o c).1.log = numberedData e.log := by
  cases c with
  | sockSendtoEx _ _ => exact absurd trivial hc
  | clientHandshake _ _ =>
      unfold Endpoint.begin Endpoint.sendHandshake
      dsimp only
      split
      · simp [Endpoint.finishHandshake, Endpoint.finish]
      · split <;> simp [Endpoint.finishHandshake, Endpoint.finish]
  | sendFile file => cases file <;> simp [Endpoint.begin, Endpoint.finish]
  | recvFile canOpen _ => cases canOpen <;> simp [Endpoint.begin, Endpoint.finish]
  | _ => simp [Endpoint.begin, Endpoint.finish]

/-- A step without a packet that numbers one is a call of `copy_2_winbuf`. -/
theorem numbers_of_act {i : Act} {p : Endpoint π × List Datagram} (h : (machine A).act e i = some p)
    (hnew : numberedData p.1.log ≠ numberedData e.log) : e.Numbers A := by
  by_contra hnot
  refine hnew ?_
  cases i with
  | run o =>
      have hrun : e.run A o = some p := h
      unfold Endpoint.run at hrun
      split at hrun
      · obtain ⟨c, hc, rfl⟩ := Option.map_eq_some_iff.1 hrun
        exact numberedData_begin fun hnum => hnot (Or.inl ⟨c, hc, hnum⟩)
      · rename_i rest eof heq
        cases hrun
        have heof : eof = true := by
          cases eof with
          | true => rfl
          | false => exact absurd (Or.inr (by rw [heq]; rfl)) hnot
        simp [Endpoint.readAndCopy, heof]
      · cases hrun
        exact numberedData_of_moves (Endpoint.moves_enterSend _)
      · cases hrun
        exact numberedData_of_moves (Endpoint.moves_enterSend _)
      · cases hrun
        exact numberedData_of_moves Endpoint.moves_recvPiece
      · cases hrun
  | timeout o =>
      have htime : e.timeout A o = some p := h
      unfold Endpoint.timeout at htime
      split at htime <;> cases htime
      · exact numberedData_of_moves (Endpoint.moves_settle _ _)
      · unfold Endpoint.sendHandshake
        split
        · simp [Endpoint.finishHandshake, Endpoint.finish]
        · split <;> simp [Endpoint.finishHandshake, Endpoint.finish]
      · exact numberedData_of_moves (Endpoint.moves_recvLoop _ _ _)
      · rfl
      · exact numberedData_of_moves (Endpoint.moves_lingerLoop _)
  | error =>
      have herr : e.error A = some p := h
      unfold Endpoint.error at herr
      split at herr <;> cases herr
      · exact numberedData_of_moves (Endpoint.moves_afterSend _ _)
      · simp [Endpoint.finishHandshake, Endpoint.finish]
      · exact numberedData_of_moves (Endpoint.moves_recvFailed _)
      · simp [Endpoint.finishHandshake, Endpoint.finish]
      · simp [Endpoint.finish]

/-- No step with a packet numbers one. -/
theorem numberedData_of_recv {d : Datagram} {p : Endpoint π × List Datagram}
    (h : (machine A).recv e o d = some p) : numberedData p.1.log = numberedData e.log := by
  have hsynced : numberedData (if e.lib.lastSeq = -1 then [Event.synced d] else []) = [] := by
    split <;> rfl
  rcases recv_cases h with ⟨l, k, -, rfl⟩ | ⟨udp, r, hs, -, rfl⟩ | ⟨left, got, k, -, rfl⟩ | ⟨-, rfl⟩ |
    ⟨sec, -, rfl⟩
  · rcases Endpoint.recvInSend_cases (A := A) (o := o) e l k d with ⟨-, -, hp⟩ | ⟨-, hp⟩ <;>
      rw [hp, numberedData_of_moves (Endpoint.moves_settle k _)]
    simp
  · unfold Endpoint.recvInHandshake
    dsimp only
    split <;> simp [Endpoint.finishHandshake, Endpoint.finish]
  · rcases recvInData_cases (A := A) (o := o) e left got k d with
      ⟨-, hp⟩ | ⟨-, -, hp⟩ | ⟨-, -, out, hp, -⟩ <;>
      rw [hp, numberedData_of_moves (Endpoint.moves_recvLoop _ _ k)] <;> simp [hsynced]
  · unfold Endpoint.recvInServerHandshake
    dsimp only
    split <;> simp [Endpoint.finishHandshake, Endpoint.finish]
  · unfold Endpoint.recvInLinger
    rw [numberedData_of_moves (Endpoint.moves_lingerLoop sec)]
    simp

end

end Sample3
end FileTransfer
