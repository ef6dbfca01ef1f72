import FileTransfer.Sample3.Reliable
import FileTransfer.Sample3.SendReport

/-!
# The special request

When the last of its thousand timeouts has passed, `udp_sendtoEx` asks the receiver which packet it waits
for.  The request goes out in the pass that leaves no retries, so the loop ends and the call returns `-1`
before the answer can arrive.  A call that still waited would take the answer as it should.
-/

namespace FileTransfer

theorem dropWhile_eq_drop {α : Type*} {p : α → Bool} {xs : List α} {i : Nat}
    (hfront : ∀ x ∈ xs.take i, p x = true) (hhead : ∀ x ∈ (xs.drop i).head?, p x = false) :
    xs.dropWhile p = xs.drop i := by
  calc
    xs.dropWhile p = (xs.take i ++ xs.drop i).dropWhile p := by rw [List.take_append_drop]
    _ = (xs.drop i).dropWhile p := List.dropWhile_append_of_pos hfront
    _ = xs.drop i := by
      cases hdrop : xs.drop i with
      | nil => rfl
      | cons x rest =>
          rw [hdrop] at hhead
          exact List.dropWhile_cons_of_neg (by simp [hhead x rfl])

namespace Sample3

section

variable {π : Type*} {A : App π} {e : Endpoint π} {o : Oracle} {l : SendtoEx} {k : SendCaller}
  {s s' : SockLib} {n : SeqNum} {i : Nat} {p : Endpoint π × List Datagram} {d : Datagram}
  {ev : SoloEvent Act Oracle Datagram} {es : List (SoloEvent Act Oracle Datagram)}
  {u : Solo (Endpoint π) Datagram}

/-! ## Recovery -/

/-- A call of `udp_sendtoEx` is in progress, and when the receiver answers that it waits for `n`, the call
removes the packets before `n` from the window and returns how many are left. -/
def Recovers (A : App π) (e : Endpoint π) (n : SeqNum) : Prop :=
  ∃ l k, e.ctl = .udpSendtoEx l k ∧ ∀ o d, d.pkt.ackType = .sack → d.pkt.seq = n →
    ∃ lib', lib'.window = e.lib.window.dropWhile (·.seq ≠ n) ∧
      (machine A).recv e o d =
        some (({ e with lib := lib' } : Endpoint π).afterSend A k lib'.winBufPos, [])

/-- The step transmits a special request. -/
def Requests (p : Endpoint π × List Datagram) : Prop := ∃ d ∈ p.2, d.site = .specialRequest

/-- If the step transmits a special request, the call that has sent it recovers. -/
def RecoversAfter (A : App π) (n : SeqNum) (t : Solo (Endpoint π) Datagram)
    (ev : SoloEvent Act Oracle Datagram) : Prop :=
  ∀ p, (machine A).step t.node ev = some p → Requests p → Recovers A p.1 n

/-- The window behind its first packets. -/
theorem window_drop (hpos : s'.winBufPos = s.winBufPos - i)
    (hslots : ∀ j < s'.winBufPos, s'.winBuf j = s.winBuf (i + j)) :
    s'.window = s.window.drop i := by
  apply List.ext_getElem
  · simp [SockLib.window, hpos]
  · intro j hj _
    have hlt : j < s'.winBufPos := by simpa [SockLib.window] using hj
    simp [SockLib.window, hslots j hlt]

/-- In a window of consecutive numbers, the packets before `n` are those up to the one before `n`. -/
theorem window_dropWhile (h : s.Consecutive) (hi : i < s.winBufPos) (hseq : (s.winBuf i).seq = n - 1) :
    s.window.dropWhile (·.seq ≠ n) = s.window.drop (i + 1) := by
  have hn : n = (s.winBuf i).seq + 1 := by
    rw [hseq]
    exact Fin.ext (seq_sub_one_succ n).symm
  have hpos := h.pos_le
  have hsize := h.size_le
  have hnum := h.seq i hi
  -- slot `j` holds `n` exactly when it is the one behind slot `i`
  have hslot : ∀ j < s.winBufPos, (s.winBuf j).seq = n ↔ j = i + 1 := by
    intro j hj
    have hj' := h.seq j hj
    rw [hn, Fin.ext_iff, Fin.val_add]
    change _ = (_ + 1) % 32 ↔ _
    omega
  apply dropWhile_eq_drop
  · intro udp hudp
    obtain ⟨j, hj, rfl⟩ := List.mem_take_iff_getElem.1 hudp
    simp only [SockLib.window, List.length_map, List.length_range, lt_min_iff] at hj
    simp only [SockLib.window, List.getElem_map, List.getElem_range, decide_eq_true_eq]
    intro heq
    have := (hslot j hj.2).1 heq
    omega
  · intro udp hudp
    rw [List.head?_drop, Option.mem_def] at hudp
    obtain ⟨hlt, rfl⟩ := List.getElem?_eq_some_iff.1 hudp
    simp only [SockLib.window, List.length_map, List.length_range] at hlt
    simpa [SockLib.window] using (hslot (i + 1) hlt).2 rfl

/-- A call that waits recovers, when the packet before the one asked for is in the window. -/
theorem recovers_of_waiting (h : e.lib.Consecutive) (hctl : e.ctl = .udpSendtoEx l k)
    (hi : i < e.lib.winBufPos) (hseq : (e.lib.winBuf i).seq = n - 1) : Recovers A e n := by
  refine ⟨l, k, hctl, ?_⟩
  intro o d htype hn
  obtain ⟨hpos, hslots, -⟩ :=
    SockLib.removePacketsFromWin_found o.beyond l.arrACK h.pos_le (h.findSeq hi hseq)
  refine ⟨(e.lib.removePacketsFromWin o.beyond (n - 1) l.arrACK).1, ?_, ?_⟩
  · rw [window_dropWhile h hi hseq]
    exact window_drop hpos fun j hj => (hslots j hj).1
  · simp [machine, Endpoint.packet, hctl, Endpoint.recvInSend, SockLib.udpSendtoExPacket, htype, hn,
      SockLib.udpSendtoExNack, Endpoint.settle]

/-! ## Where the request is sent -/

/-- A timeout that leaves `udp_sendtoEx` no retries, with sends that all work. -/
def ExhaustsRetries (e : Endpoint π) : SoloEvent Act Oracle Datagram → Prop
  | .act (.timeout o) => ∃ l, e.ctl.locals = some l ∧ l.retryCnt ≤ 1 ∧
      ∀ i ≤ e.lib.winBufPos - 1 + 1, o.sendOk i = true
  | _ => False

/-- The steps of a run in which no call uses up its retries. -/
def KeepsRetries (t : Solo (Endpoint π) Datagram) (ev : SoloEvent Act Oracle Datagram) : Prop :=
  ¬ ExhaustsRetries t.node ev

theorem SockLib.IsSendable.site (h : s.IsSendable d) : d.site = .window := by
  obtain ⟨i, -, rfl⟩ := h
  rfl

theorem timeout_requests_iff :
    (∃ d ∈ (s.udpSendtoExTimeout o l).1, d.site = .specialRequest) ↔
      l.retryCnt ≤ 1 ∧ ∀ i ≤ s.winBufPos - 1 + 1, o.sendOk i = true := by
  have hwindow : ∀ d ∈ (s.resendAll o).1, d.site ≠ .specialRequest := by
    intro d hd
    rw [(SockLib.isSendable_of_mem_resendAll hd).site]
    decide
  constructor
  · rintro ⟨d, hd, hsite⟩
    unfold SockLib.udpSendtoExTimeout at hd
    dsimp only at hd
    split at hd
    · rename_i out heq
      exact absurd hsite (hwindow d (by rw [heq]; exact hd))
    · rename_i out heq
      rw [heq] at hwindow
      by_cases hlast : l.retryCnt - 1 = 0
      · rw [if_pos hlast] at hd
        obtain ⟨hout, hok⟩ := SockLib.resendAll_true heq
        have hspecial : o.sendOk out.length = true := by
          by_contra hfail
          simp only [libSendto, if_neg hfail] at hd
          exact hwindow d hd hsite
        refine ⟨by omega, fun i hi => ?_⟩
        rcases Nat.lt_or_eq_of_le hi with hlt | rfl
        · exact hok i hlt
        · rw [hout] at hspecial
          simpa using hspecial
      · -- with retries left only slots of the window are sent
        rw [if_neg hlast] at hd
        rcases SockLib.mem_sendtoExLoop hd with hd | ⟨-, rfl⟩
        · exact absurd hsite (hwindow d hd)
        · cases hsite
  · rintro ⟨hretry, hok⟩
    have hlast : l.retryCnt - 1 = 0 := by omega
    refine ⟨s.specialRequest, ?_, rfl⟩
    have hresend := resendAll_ok (s := s) (o := o) fun i hi => hok i (by omega)
    simp only [SockLib.udpSendtoExTimeout, hresend, hlast, if_true]
    rw [libSendto_ok (hok _ (by simp))]
    simp [SockLib.sendtoExLoop]

theorem sendHandshake_site {udp : UdpPacket} {retryCnt : Nat} {hs : Handshake} :
    ∀ d ∈ (e.sendHandshake A o udp retryCnt hs).2, d.site = .handshakeRequest := by
  intro d hd
  unfold Endpoint.sendHandshake at hd
  split at hd
  · cases hd
  · have hmem : d ∈ (libSendto o [] ⟨udp, .handshakeRequest⟩).1 := by
      split at hd <;> rename_i heq <;> rw [heq] <;> exact hd
    rcases SockLib.mem_libSendto hmem with hmem | rfl
    · cases hmem
    · rfl

theorem enterSend_site : ∀ d ∈ (e.enterSend A o k).2, d.site = .window := fun _ hd =>
  (SockLib.isSendable_of_mem_sendAllWinPackets hd).site

theorem copyAndSend_site {buf : Payload} : ∀ d ∈ (e.copyAndSend A o buf k).2, d.site = .window := by
  rw [Endpoint.copyAndSend_eq]
  split
  · exact enterSend_site
  · simp

theorem begin_site {c : Call} :
    ∀ d ∈ (e.begin A o c).2, d.site = .window ∨ d.site = .handshakeRequest := by
  cases c with
  | clientHandshake _ _ => exact fun d hd => Or.inr (sendHandshake_site d hd)
  | sockSendtoEx buf flag => exact fun d hd => Or.inl (copyAndSend_site d hd)
  | sendFile file => cases file <;> simp [Endpoint.begin]
  | recvFile canOpen _ => cases canOpen <;> simp [Endpoint.begin]
  | udpInit _ _ => simp [Endpoint.begin]
  | serverHandshake _ => simp [Endpoint.begin]
  | sockRecvfrom _ => simp [Endpoint.begin]
  | srvWait4cnn _ => simp [Endpoint.begin]

theorem run_site (h : e.run A o = some p) :
    ∀ d ∈ p.2, d.site = .window ∨ d.site = .handshakeRequest := by
  unfold Endpoint.run at h
  split at h
  · obtain ⟨c, -, rfl⟩ := Option.map_eq_some_iff.1 h
    exact begin_site
  · cases h
    unfold Endpoint.readAndCopy
    split
    · simp
    · exact fun d hd => Or.inl (copyAndSend_site d hd)
  · cases h
    exact fun d hd => Or.inl (enterSend_site d hd)
  · cases h
    exact fun d hd => Or.inl (enterSend_site d hd)
  · cases h
    simp
  · cases h

/-- A timeout outside `udp_sendtoEx` sends at most a handshake request. -/
theorem timeout_site (hlocals : e.ctl.locals = none) (h : e.timeout A o = some p) :
    ∀ d ∈ p.2, d.site = .handshakeRequest := by
  unfold Endpoint.timeout at h
  split at h <;> rename_i hctl
  · rw [hctl] at hlocals
    cases hlocals
  · cases h
    exact sendHandshake_site
  · cases h
    simp
  · cases h
    simp
  · cases h
    simp
  · cases h

theorem error_sent (h : e.error A = some p) : p.2 = [] := by
  unfold Endpoint.error at h
  split at h <;> cases h <;> rfl

/-- A step with a packet sends acknowledgements and handshake answers, and nothing of `udp_sendtoEx` but
the window. -/
theorem recv_site (h : (machine A).recv e o d = some p) : ∀ x ∈ p.2, x.site ≠ .specialRequest := by
  intro x hx hsite
  have hsent := recv_sent h x hx
  unfold SentByRecv at hsent
  rw [hsite] at hsent
  exact hsent

/-- A timeout outside `udp_sendtoEx` is none that uses up its retries. -/
theorem not_exhausts_timeout (hlocals : e.ctl.locals = none) : ¬ ExhaustsRetries e (.act (.timeout o)) := by
  rintro ⟨l, hl, -⟩
  cases hlocals.symm.trans hl

/-- A step transmits a request exactly when it uses up the retries. -/
theorem requests_iff (h : (machine A).step e ev = some p) : Requests p ↔ ExhaustsRetries e ev := by
  cases ev with
  | act i =>
      cases i with
      | run o =>
          refine iff_of_false ?_ id
          rintro ⟨d, hd, hsite⟩
          rcases run_site h d hd with hd | hd <;> cases hsite.symm.trans hd
      | timeout o =>
          cases hlocals : e.ctl.locals with
          | none =>
              refine iff_of_false ?_ (not_exhausts_timeout hlocals)
              rintro ⟨d, hd, hsite⟩
              cases hsite.symm.trans (timeout_site hlocals h d hd)
          | some l =>
              -- the only place: the timeout branch of `udp_sendtoEx`
              obtain ⟨k, hctl⟩ := locals_eq_some.1 hlocals
              rcases step_of_udpSendtoEx hctl h with ⟨_, ⟨⟩, rfl⟩ | ⟨⟨⟩, -⟩ | ⟨_, _, ⟨⟩, -⟩
              refine timeout_requests_iff.trans ⟨fun hlast => ⟨l, hlocals, hlast⟩, ?_⟩
              rintro ⟨l', hl', hlast⟩
              cases hlocals.symm.trans hl'
              exact hlast
      | error =>
          refine iff_of_false ?_ id
          rintro ⟨d, hd, -⟩
          rw [error_sent h] at hd
          cases hd
  | recv o d =>
      refine iff_of_false ?_ id
      rintro ⟨x, hx, hsite⟩
      exact recv_site h x hx hsite

/-- When the retries are used up the call returns `-1` in the same pass, and waits for nothing. -/
theorem exhausts_step (h : ExhaustsRetries e ev) :
    ∃ out, (machine A).step e ev = some (e.finish A (.code (-1)), out) := by
  cases ev with
  | act i =>
      cases i with
      | timeout o =>
          obtain ⟨l, hlocals, hretry, -⟩ := h
          obtain ⟨k, hctl⟩ := locals_eq_some.1 hlocals
          have hreturns : (e.lib.udpSendtoExTimeout o l).2 = .returns (-1) :=
            SockLib.udpSendtoExTimeout_fails (Or.inl hretry)
          refine ⟨(e.lib.udpSendtoExTimeout o l).1, ?_⟩
          simp only [Machine.step, machine, Endpoint.timeout, hctl, hreturns, Endpoint.settle,
            afterSend_failed]
      | run _ => exact h.elim
      | error => exact h.elim
  | recv _ _ => exact h.elim

theorem recoversAfter_iff {t : Solo (Endpoint π) Datagram} :
    RecoversAfter A n t ev ↔ KeepsRetries t ev := by
  constructor
  · intro hrecovers hexhausts
    obtain ⟨out, hstep⟩ := exhausts_step (A := A) hexhausts
    obtain ⟨l, k, hctl, -⟩ := hrecovers _ hstep ((requests_iff hstep).2 hexhausts)
    cases hctl
  · intro hkeeps p hstep hrequests
    exact absurd ((requests_iff hstep).1 hrequests) hkeeps

/-- A run in which no call uses up its retries is one that transmits no request. -/
theorem keepsRetries_run_iff (hrun : Run (soloStep (machine A)) anyStep ⟨e, []⟩ es u) :
    Run (soloStep (machine A)) KeepsRetries ⟨e, []⟩ es u ↔ ∀ d ∈ u.sent, d.site ≠ .specialRequest := by
  induction hrun with
  | nil => exact iff_of_true .nil (by simp)
  | @snoc es ev t u hrun _ hst ih =>
      obtain ⟨p, hp, rfl⟩ := soloStep_eq_some.1 hst
      rw [Run.snoc_iff, List.forall_mem_append, ← ih]
      have hnone : KeepsRetries t ev ↔ ∀ d ∈ p.2, d.site ≠ .specialRequest := by
        unfold KeepsRetries
        rw [← requests_iff hp, Requests]
        push Not
        rfl
      constructor
      · rintro ⟨t', hrun', hkeeps, -⟩
        cases hrun.unique hrun'
        exact ⟨hrun', hnone.1 hkeeps⟩
      · rintro ⟨hrun', hsent⟩
        exact ⟨t, hrun', hnone.2 hsent, hst⟩

/-- In every run, after each special request the call that has sent it recovers, exactly when no call of
the run uses up its retries, that is when no special request is sent at all. -/
theorem recovers_by_request_iff (hrun : Run (soloStep (machine A)) anyStep ⟨e, []⟩ es u) (n : SeqNum) :
    (Run (soloStep (machine A)) (RecoversAfter A n) ⟨e, []⟩ es u ↔
        Run (soloStep (machine A)) KeepsRetries ⟨e, []⟩ es u) ∧
      (Run (soloStep (machine A)) KeepsRetries ⟨e, []⟩ es u ↔
        ∀ d ∈ u.sent, d.site ≠ .specialRequest) := by
  refine ⟨?_, keepsRetries_run_iff hrun⟩
  constructor
  · exact fun h => h.mono fun _ _ => recoversAfter_iff.1
  · exact fun h => h.mono fun _ _ => recoversAfter_iff.2

/-! ## A call that hears nothing -/

/-- While it has retries left, a call with working sends goes on through the timeouts. -/
theorem run_timeouts {t : Solo (Endpoint π) Datagram} (hctl : t.node.ctl = .udpSendtoEx l k) {j : Nat}
    (hj : j < l.retryCnt) :
    ∃ l' sent, l'.retryCnt + j = l.retryCnt ∧
      Run (soloStep (machine A)) anyStep t (List.replicate j soloTimesOut)
        ⟨{ t.node with ctl := .udpSendtoEx l' k }, sent⟩ := by
  induction j with
  | zero =>
      refine ⟨l, t.sent, rfl, ?_⟩
      rw [← hctl]
      exact .nil
  | succ j ih =>
      obtain ⟨l', sent, hcnt, hrun⟩ := ih (Nat.lt_of_succ_lt hj)
      refine ⟨{ l' with retryCnt := l'.retryCnt - 1, arrACK := .zero },
        sent ++ (t.node.lib.udpSendtoExTimeout .reliable l').1, by simp only; omega, ?_⟩
      rw [List.replicate_succ']
      refine .snoc hrun trivial ?_
      have hwaits : (t.node.lib.udpSendtoExTimeout .reliable l').2 =
          .waits { l' with retryCnt := l'.retryCnt - 1, arrACK := .zero } :=
        udpSendtoExTimeout_ok (by omega) fun _ _ => rfl
      simp only [soloStep, Machine.step, machine, soloTimesOut, Endpoint.timeout, hwaits,
        Endpoint.settle, Option.map_some]

/-- A call that hears nothing sends its request and returns `-1`, with the window as it was. -/
theorem run_unanswered {t : Solo (Endpoint π) Datagram} (hctl : t.node.ctl = .udpSendtoEx l k)
    (hretry : 0 < l.retryCnt) :
    ∃ u, Run (soloStep (machine A)) anyStep t (List.replicate l.retryCnt soloTimesOut) u ∧
      u.node = t.node.finish A (.code (-1)) ∧ ∃ d ∈ u.sent, d.site = .specialRequest := by
  obtain ⟨j, hj⟩ : ∃ j, l.retryCnt = j + 1 := Nat.exists_eq_succ_of_ne_zero hretry.ne'
  have hlt : j < l.retryCnt := by
    rw [hj]
    exact Nat.lt_succ_self j
  obtain ⟨l', sent, hcnt, hrun⟩ := run_timeouts (A := A) hctl hlt
  have hexhausts : ExhaustsRetries { t.node with ctl := .udpSendtoEx l' k } soloTimesOut :=
    ⟨l', rfl, by omega, fun _ _ => rfl⟩
  obtain ⟨out, hstep⟩ := exhausts_step (A := A) hexhausts
  obtain ⟨d, hd, hsite⟩ := (requests_iff hstep).2 hexhausts
  refine ⟨⟨_, sent ++ out⟩, ?_, rfl, d, List.mem_append_right _ hd, hsite⟩
  rw [hj, List.replicate_succ']
  exact .snoc hrun trivial (soloStep_eq_some.2 ⟨_, hstep, rfl⟩)

end

/-- A packet that is answered with a `SACK` in time. -/
theorem recovers_by_request_answered :
    ∃ u, Run (soloStep (machine scriptApp)) (RecoversAfter scriptApp 1)
      (scriptStart 1 [.sockSendtoEx (.ofBytes []) true]) [soloRuns, soloAnswer .sack 1] u := by
  obtain ⟨u, hrun, hsent⟩ := exists_solo_run (machine scriptApp)
    (scriptStart 1 [.sockSendtoEx (.ofBytes []) true]) [soloRuns, soloAnswer .sack 1]
    (fun u => ∀ d ∈ u.sent, d.site ≠ .specialRequest) (by decide +kernel)
  have hiff := recovers_by_request_iff hrun 1
  exact ⟨u, hiff.1.2 (hiff.2.2 hsent)⟩

/-- A packet that is never answered: the request is sent, and the call has returned `-1` with the packet
still in the window, so that the answer of a receiver that waits for packet 1 is not taken in. -/
theorem request_unanswered :
    ∃ u, Run (soloStep (machine scriptApp)) anyStep (scriptStart 1 [.sockSendtoEx (.ofBytes []) true])
        (soloRuns :: List.replicate 1000 soloTimesOut) u ∧
      (∃ d ∈ u.sent, d.site = .specialRequest) ∧ u.node.lib.winBufPos = 1 ∧
      u.node.log.getLast? = some (.returned (.code (-1))) ∧
      (∀ o d, (machine scriptApp).recv u.node o d = none) ∧
      ¬ Run (soloStep (machine scriptApp)) (RecoversAfter scriptApp 1)
        (scriptStart 1 [.sockSendtoEx (.ofBytes []) true])
        (soloRuns :: List.replicate 1000 soloTimesOut) u := by
  obtain ⟨t, hfirst, hpos, l, hlocals, hcnt⟩ := exists_solo_run (machine scriptApp)
    (scriptStart 1 [.sockSendtoEx (.ofBytes []) true]) [soloRuns]
    (fun t => t.node.lib.winBufPos = 1 ∧ ∃ l ∈ t.node.ctl.locals, l.retryCnt = 1000) (by decide +kernel)
  obtain ⟨k, hctl⟩ := locals_eq_some.1 hlocals
  obtain ⟨u, hrest, hnode, hrequest⟩ := run_unanswered (A := scriptApp) hctl (by rw [hcnt]; decide)
  rw [hcnt] at hrest
  have hrun := hfirst.trans hrest
  refine ⟨u, hrun, hrequest, ?_, ?_, ?_, ?_⟩
  · rw [hnode]
    exact hpos
  · rw [hnode]
    simp [Endpoint.finish]
  · intro o d
    rw [hnode]
    rfl
  · intro hrecovers
    obtain ⟨d, hd, hsite⟩ := hrequest
    exact (keepsRetries_run_iff hrun).1 (hrecovers.mono fun _ _ => recoversAfter_iff.1) d hd hsite

end Sample3
end FileTransfer
