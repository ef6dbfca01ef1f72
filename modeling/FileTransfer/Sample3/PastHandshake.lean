import FileTransfer.Sample3.Programs
import FileTransfer.Sample3.SenderSteps

/-!
# Steps outside of the handshakes

Between two handshakes `hsData` does not change and no handshake returns, whatever arrives.  `Keeps` is
the spec of one such step, which may only resume the program.  A client that is past its handshake and
has no further object, and a server that is past its handshake, make no other steps (`PastHandshake`).
-/

namespace FileTransfer
namespace Sample3

/-- The calls that write `hsData`. -/
def Call.WritesHandshake : Call → Prop
  | .udpInit _ _ => True
  | .clientHandshake _ _ => True
  | .serverHandshake _ => True
  | _ => False

/-- What a step outside of the handshakes leaves alone. -/
structure Keeps {π : Type*} (A : App π) (e : Endpoint π) (p : Endpoint π × List Datagram) : Prop where
  hsData : p.1.lib.hsData = e.lib.hsData
  app : p.1.app = e.app ∨ ∃ r, p.1.app = A.resume e.app r
  ctl : ¬ p.1.ctl.Restarts
  returns : ∀ r : Ret, r.IsHandshake → (Event.returned r ∈ p.1.log ↔ Event.returned r ∈ e.log)

section

variable {π : Type*} {A : App π} {e e' : Endpoint π} {o : Oracle} {d : Datagram}
  {p : Endpoint π × List Datagram} {out : List Datagram}

theorem Control.IsRest.not_restarts {c : Control} (h : c.IsRest) : ¬ c.Restarts := by
  cases c <;> simp_all [Control.IsRest, Control.Restarts]

theorem Control.IsSendRest.not_restarts {c : Control} (h : c.IsSendRest) : ¬ c.Restarts := by
  cases c <;> simp_all [Control.IsSendRest, Control.Restarts]

theorem settle_not_restarts (k : SendCaller) (oc : Outcome) : ¬ (e.settle A k oc).ctl.Restarts := by
  cases oc with
  | waits l => exact id
  | returns r => exact (Endpoint.afterSend_isSendRest k r).not_restarts

/-- The endpoint `e₁` differs from `e` in its object and by `evs` in its history, and moves on. -/
theorem keeps_of_moves {e₁ : Endpoint π} (hmoves : Endpoint.Moves A e₁ e')
    (hctl : ¬ e'.ctl.Restarts) (hdata : e₁.lib.hsData = e.lib.hsData) (happ : e₁.app = e.app)
    {evs : List Event} (hlog : e₁.log = e.log ++ evs) (hevs : ∀ r, Event.returned r ∉ evs) :
    Keeps A e (e', out) := by
  refine ⟨?_, ?_, hctl, ?_⟩
  · show e'.lib.hsData = e.lib.hsData
    rw [hmoves.lib, hdata]
  · rw [← happ]
    exact hmoves.app
  · intro r hr
    rcases hmoves.log with h | ⟨r', hr', h⟩
    · show Event.returned r ∈ e'.log ↔ _
      simp [h, hlog, hevs r]
    · -- the call that returned was no handshake
      have hne : r ≠ r' := fun heq => hr' (heq ▸ hr)
      show Event.returned r ∈ e'.log ↔ _
      simp [h, hlog, hevs r, hne]

theorem keeps_moves (hmoves : Endpoint.Moves A e e') (hctl : ¬ e'.ctl.Restarts) :
    Keeps A e (e', out) :=
  keeps_of_moves hmoves hctl rfl rfl (List.append_nil _).symm (by simp)

theorem keeps_copyAndSend (buf : Payload) (k : SendCaller) : Keeps A e (e.copyAndSend A o buf k) := by
  have hdata : (e.lib.copy2Winbuf buf).1.hsData = e.lib.hsData := by
    unfold SockLib.copy2Winbuf
    split <;> rfl
  have hevs : ∀ r, Event.returned r ∉ (if e.lib.winBufPos < e.lib.wSize then
      [Event.numbered (e.lib.addUdpheader buf).2] else []) := by
    intro r
    split <;> simp
  unfold Endpoint.copyAndSend
  dsimp only
  split
  · exact keeps_of_moves (Endpoint.moves_settle k _) (settle_not_restarts k _) hdata rfl rfl hevs
  · exact keeps_of_moves (Endpoint.moves_afterSend k 1)
      (Endpoint.afterSend_isSendRest k 1).not_restarts hdata rfl rfl hevs

theorem keeps_begin {c : Call} (hc : ¬ c.WritesHandshake) : Keeps A e (e.begin A o c) := by
  cases c with
  | sockSendtoEx buf flag => exact keeps_copyAndSend buf _
  | sendFile file =>
      cases file with
      | none => exact keeps_moves (Endpoint.moves_finish (by simp [Ret.IsHandshake])) id
      | some content => exact keeps_moves (Endpoint.moves_ctl _) id
  | sockRecvfrom length => exact keeps_moves (Endpoint.moves_ctl _) id
  | recvFile canOpen len =>
      cases canOpen with
      | true => exact keeps_moves (Endpoint.moves_ctl _) id
      | false => exact keeps_moves (Endpoint.moves_finish (by simp [Ret.IsHandshake])) id
  | srvWait4cnn sec => exact keeps_moves (Endpoint.moves_ctl _) id
  | _ => exact absurd trivial hc

/-- A step without a packet. -/
theorem keeps_act (hctl : ¬ e.ctl.Restarts) (hcall : ∀ c ∈ e.nextCall A, ¬ c.WritesHandshake) {i : Act}
    (hact : (machine A).act e i = some p) : Keeps A e p := by
  -- no branch reaches a handshake again but the two waits that `hctl` excludes
  cases i with
  | run o =>
      have hrun : e.run A o = some p := hact
      unfold Endpoint.run at hrun
      split at hrun
      · obtain ⟨c, hc, rfl⟩ := Option.map_eq_some_iff.1 hrun
        exact keeps_begin (hcall c hc)
      · cases hrun
        unfold Endpoint.readAndCopy
        split
        · exact keeps_moves (Endpoint.moves_ctl _) id
        · exact keeps_copyAndSend _ _
      · cases hrun
        exact keeps_moves (Endpoint.moves_enterSend _) (settle_not_restarts _ _)
      · cases hrun
        exact keeps_moves (Endpoint.moves_enterSend _) (settle_not_restarts _ _)
      · cases hrun
        exact keeps_moves Endpoint.moves_recvPiece Endpoint.recvPiece_isRest.not_restarts
      · cases hrun
  | timeout o =>
      have htime : e.timeout A o = some p := hact
      unfold Endpoint.timeout at htime
      split at htime <;> rename_i heq
      · cases htime
        exact keeps_moves (Endpoint.moves_settle _ _) (settle_not_restarts _ _)
      · exact absurd (by rw [heq]; trivial) hctl
      · cases htime
        exact keeps_moves (Endpoint.moves_recvLoop _ _ _) (Endpoint.recvLoop_isRest _).not_restarts
      · exact absurd (by rw [heq]; trivial) hctl
      · cases htime
        exact keeps_moves (Endpoint.moves_lingerLoop _) (Endpoint.lingerLoop_isRest _).not_restarts
      · cases htime
  | error =>
      have herr : e.error A = some p := hact
      unfold Endpoint.error at herr
      split at herr <;> rename_i heq
      · cases herr
        exact keeps_moves (Endpoint.moves_afterSend _ _)
          (Endpoint.afterSend_isSendRest _ _).not_restarts
      · exact absurd (by rw [heq]; trivial) hctl
      · cases herr
        exact keeps_moves (Endpoint.moves_recvFailed _) (Endpoint.recvFailed_isRest _).not_restarts
      · exact absurd (by rw [heq]; trivial) hctl
      · cases herr
        exact keeps_moves (Endpoint.moves_finish (by simp [Ret.IsHandshake])) id
      · cases herr

/-- A step with a packet. -/
theorem keeps_recv (hctl : ¬ e.ctl.Restarts) (hrecv : (machine A).recv e o d = some p) :
    Keeps A e p := by
  rcases recv_cases hrecv with ⟨l, k, -, rfl⟩ | ⟨udp, r, hs, heq, -⟩ | ⟨left, got, k, -, rfl⟩ |
    ⟨heq, -⟩ | ⟨sec, -, rfl⟩
  · have hdata := (SockLib.udpSendtoExPacket_frame e.lib o l d.pkt).2.2.1
    rcases Endpoint.recvInSend_cases (A := A) (o := o) e l k d with ⟨-, -, hp⟩ | ⟨-, hp⟩ <;> rw [hp]
    · exact keeps_of_moves (Endpoint.moves_settle k _) (settle_not_restarts k _) hdata rfl rfl (by simp)
    · exact keeps_of_moves (Endpoint.moves_settle k _) (settle_not_restarts k _) hdata rfl
        (List.append_nil _).symm (by simp)
  · exact absurd (by rw [heq]; trivial) hctl
  · have hdata : (e.lib.syncLastSeq d.pkt).hsData = e.lib.hsData := by
      obtain ⟨n, hn⟩ := SockLib.syncLastSeq_frame e.lib d.pkt
      rw [hn]
    have hsynced : ∀ r, Event.returned r ∉ if e.lib.lastSeq = -1 then [Event.synced d] else [] := by
      intro r
      split <;> simp
    rcases recvInData_cases (A := A) (o := o) e left got k d with
      ⟨-, hp⟩ | ⟨-, -, hp⟩ | ⟨-, -, out, hp, -⟩ <;> rw [hp]
    · exact keeps_moves (Endpoint.moves_recvLoop _ _ k) (Endpoint.recvLoop_isRest k).not_restarts
    · exact keeps_of_moves (Endpoint.moves_recvLoop _ _ k) (Endpoint.recvLoop_isRest k).not_restarts
        hdata rfl (List.append_assoc _ _ _) (by simp [hsynced])
    · exact keeps_of_moves (Endpoint.moves_recvLoop _ _ k) (Endpoint.recvLoop_isRest k).not_restarts
        hdata rfl rfl hsynced
  · exact absurd (by rw [heq]; trivial) hctl
  · exact keeps_of_moves (Endpoint.moves_lingerLoop sec) (Endpoint.lingerLoop_isRest sec).not_restarts
      rfl rfl rfl (by simp)

end

/-! ## The two programs after their handshakes -/

/-- The program makes no handshake any more. -/
def Program.Past : Program → Prop
  | .client c => c.ifHandShake = false ∧ c.objects = [] ∧ ∀ i, c.pc ≠ .handshake i
  | .server s => s.pc ≠ .handshake

/-- The endpoint's only handshake has returned `0` with this number and this record. -/
structure PastHandshake (seq : UInt32) (agreed : Handshake) (e : Endpoint Program) : Prop where
  ctl : ¬ e.ctl.Restarts
  app : e.app.Past
  hsData : e.lib.hsData = agreed
  returned : Event.returned (.handshake 0 seq agreed) ∈ e.log
  only : ∀ r seq' hs, Event.returned (.handshake r seq' hs) ∈ e.log → seq' = seq ∧ hs = agreed

section

variable {e : Endpoint Program} {seq : UInt32} {agreed : Handshake} {j : Act} {o : Oracle}
  {d : Datagram} {p : Endpoint Program × List Datagram}

theorem Program.Past.call {a : Program} (h : a.Past) {c : Call} (hc : ftpApp.call a = some c) :
    ¬ c.WritesHandshake := by
  cases a with
  | client a =>
      obtain ⟨-, hobjects, hpc⟩ := h
      have hc' : a.call = some c := hc
      unfold Client.call at hc'
      split at hc' <;> rename_i heq
      · -- there is no object left to create
        rw [hobjects] at hc'
        split at hc' <;> simp_all
      · exact absurd heq (hpc _)
      all_goals cases hc' <;> exact id
  | server a =>
      have hc' : a.call = some c := hc
      unfold Server.call at hc'
      split at hc' <;> rename_i heq
      · exact absurd heq h
      all_goals cases hc' <;> exact id

/-- The client at another place of its program. -/
theorem past_client {c c' : Client} (h : (Program.client c).Past)
    (hflag : c'.ifHandShake = c.ifHandShake) (hobjects : c'.objects = c.objects)
    (hpc : ∀ i, c'.pc ≠ .handshake i) : (Program.client c').Past :=
  ⟨hflag.trans h.1, hobjects.trans h.2.1, hpc⟩

theorem past_sendRequest (c : Client) (hflag : c.ifHandShake = false) (hobjects : c.objects = [])
    (i : Start) : (Program.client (c.sendRequest i)).Past := by
  unfold Client.sendRequest
  split <;> exact ⟨hflag, hobjects, by simp [Client.fail]⟩

theorem past_start {c : Client} (h : (Program.client c).Past) : (Program.client c.start).Past := by
  unfold Client.start
  split
  · exact past_client h rfl rfl (by simp)
  · dsimp only
    split
    · rename_i hflag
      rw [h.1] at hflag
      cases hflag
    · apply past_sendRequest
      · exact h.1
      · exact h.2.1

theorem past_fail {c : Client} (h : (Program.client c).Past) : (Program.client c.fail).Past :=
  past_client h rfl rfl (by simp [Client.fail])

theorem past_clientHandler (s : Server) : (Program.server s.clientHandler).Past := by
  unfold Server.clientHandler
  split <;> simp [Program.Past]

theorem past_receiveFile (s : Server) (h : Handle) (record : List Byte) (type : Byte) (len : UInt32) :
    (Program.server (s.receiveFile h record type len)).Past := by
  unfold Server.receiveFile
  split <;> simp [Program.Past]

theorem Program.Past.resume {a : Program} (h : a.Past) (r : Ret) : (ftpApp.resume a r).Past := by
  -- by the program counter: none of the calls that follow is a handshake
  cases a with
  | client c =>
      show (Program.client (c.resume r)).Past
      unfold Client.resume
      split
      · -- the object is one that does not exist
        dsimp only
        split
        · exact past_start ⟨h.1, by simp [h.2.1], h.2.2⟩
        · exact past_fail ⟨h.1, by simp [h.2.1], h.2.2⟩
      · rename_i heq
        exact absurd heq (h.2.2 _)
      · split
        · exact past_client h rfl rfl (by simp)
        · exact past_fail h
      · split
        · split <;> exact past_client h rfl rfl (by simp)
        · exact past_fail h
      · split
        · exact past_client h rfl rfl (by simp)
        · exact past_fail h
      · split_ifs
        · exact past_fail h
        · exact past_fail h
        · exact past_client h rfl rfl (by simp)
        · exact past_client h rfl rfl (by simp)
      · split
        · exact past_client h rfl rfl (by simp)
        · exact past_fail h
      · exact past_start h
      · exact h
  | server s =>
      show (Program.server (s.resume r)).Past
      unfold Server.resume
      split
      · rename_i heq
        exact absurd heq h
      · dsimp only
        split_ifs <;> first | exact past_receiveFile _ _ _ _ _ | simp [Program.Past]
      · split
        · simp [Program.Past]
        · exact past_receiveFile _ _ _ _ _
      · split <;> simp [Program.Past]
      · simp [Program.Past]
      · split
        · split
          · simp [Program.Past]
          · exact past_clientHandler _
        · exact past_clientHandler _
      · exact past_clientHandler _
      · exact h

theorem PastHandshake.keeps (h : PastHandshake seq agreed e) (hk : Keeps ftpApp e p) :
    PastHandshake seq agreed p.1 := by
  refine ⟨hk.ctl, ?_, hk.hsData.trans h.hsData,
    (hk.returns (.handshake 0 seq agreed) trivial).2 h.returned, ?_⟩
  · rcases hk.app with happ | ⟨r, happ⟩ <;> rw [happ]
    · exact h.app
    · exact h.app.resume r
  · intro r seq' hs hr
    exact h.only r seq' hs ((hk.returns (.handshake r seq' hs) trivial).1 hr)

theorem PastHandshake.act (h : PastHandshake seq agreed e) (hact : (machine ftpApp).act e j = some p) :
    PastHandshake seq agreed p.1 :=
  h.keeps (keeps_act h.ctl (fun _ hc => h.app.call (Endpoint.nextCall_eq_some.1 hc).2) hact)

theorem PastHandshake.recv (h : PastHandshake seq agreed e)
    (hrecv : (machine ftpApp).recv e o d = some p) : PastHandshake seq agreed p.1 :=
  h.keeps (keeps_recv h.ctl hrecv)

end

end Sample3
end FileTransfer
