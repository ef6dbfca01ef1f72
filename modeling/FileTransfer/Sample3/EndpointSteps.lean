import FileTransfer.Sample3.EndpointSpec
import FileTransfer.Lib.Solo

/-!
# What an endpoint does next

One lemma for each place where an endpoint can stand: the events that are enabled there, and what it does
on them.
-/

namespace FileTransfer
namespace Sample3

variable {π : Type*} {A : App π} {e : Endpoint π} {ev : SoloEvent Act Oracle Datagram}
  {p : Endpoint π × List Datagram}

/-- The endpoint stands between two calls or at the head of a loop, and waits for nothing. -/
def Control.AtHead : Control → Prop
  | .idle => True
  | .sendFile _ _ => True
  | .sendFileLast => True
  | .sockSendtoEx => True
  | .recvFile _ _ => True
  | _ => False

theorem step_of_atHead (hhead : e.ctl.AtHead) (h : (machine A).step e ev = some p) :
    ∃ o, ev = .act (.run o) ∧ e.run A o = some p := by
  have hquiet : (∀ o, e.timeout A o = none) ∧ e.error A = none ∧ ∀ o d, e.packet A o d = none := by
    cases hctl : e.ctl <;> rw [hctl] at hhead
    case idle => simp [Endpoint.timeout, Endpoint.error, Endpoint.packet, hctl]
    case sendFile => simp [Endpoint.timeout, Endpoint.error, Endpoint.packet, hctl]
    case sendFileLast => simp [Endpoint.timeout, Endpoint.error, Endpoint.packet, hctl]
    case sockSendtoEx => simp [Endpoint.timeout, Endpoint.error, Endpoint.packet, hctl]
    case recvFile => simp [Endpoint.timeout, Endpoint.error, Endpoint.packet, hctl]
    all_goals cases hhead
  obtain ⟨htimeout, herror, hpacket⟩ := hquiet
  cases ev with
  | act i =>
      cases i with
      | run o => exact ⟨o, rfl, h⟩
      | timeout o => cases (htimeout o).symm.trans h
      | error => cases herror.symm.trans h
  | recv o d => cases (hpacket o d).symm.trans h

/-- Between two calls the program makes the next one. -/
theorem step_of_idle (hctl : e.ctl = .idle) (h : (machine A).step e ev = some p) :
    ∃ o c, ev = .act (.run o) ∧ A.call e.app = some c ∧ e.begin A o c = p := by
  have hhead : e.ctl.AtHead := by
    rw [hctl]
    trivial
  obtain ⟨o, rfl, hrun⟩ := step_of_atHead hhead h
  simp only [Endpoint.run, Endpoint.nextCall, hctl, Option.map_eq_some_iff] at hrun
  obtain ⟨c, hcall, hp⟩ := hrun
  exact ⟨o, c, rfl, hcall, hp⟩

theorem step_of_sendFile {rest : List Byte} {eof : Bool} (hctl : e.ctl = .sendFile rest eof)
    (h : (machine A).step e ev = some p) :
    ∃ o, ev = .act (.run o) ∧ e.readAndCopy A o rest eof = p := by
  obtain ⟨o, rfl, hrun⟩ := step_of_atHead (by rw [hctl]; trivial) h
  simp only [Endpoint.run, hctl, Option.some.injEq] at hrun
  exact ⟨o, rfl, hrun⟩

theorem step_of_sendFileLast (hctl : e.ctl = .sendFileLast) (h : (machine A).step e ev = some p) :
    ∃ o, ev = .act (.run o) ∧ e.enterSend A o .sendFileLast = p := by
  obtain ⟨o, rfl, hrun⟩ := step_of_atHead (by rw [hctl]; trivial) h
  simp only [Endpoint.run, hctl, Option.some.injEq] at hrun
  exact ⟨o, rfl, hrun⟩

theorem step_of_sockSendtoEx (hctl : e.ctl = .sockSendtoEx) (h : (machine A).step e ev = some p) :
    ∃ o, ev = .act (.run o) ∧ e.enterSend A o .sockSendtoEx = p := by
  obtain ⟨o, rfl, hrun⟩ := step_of_atHead (by rw [hctl]; trivial) h
  simp only [Endpoint.run, hctl, Option.some.injEq] at hrun
  exact ⟨o, rfl, hrun⟩

theorem step_of_recvFile {left : Int} {written : List Byte} (hctl : e.ctl = .recvFile left written)
    (h : (machine A).step e ev = some p) :
    ∃ o, ev = .act (.run o) ∧ (e.recvPiece A left written, []) = p := by
  obtain ⟨o, rfl, hrun⟩ := step_of_atHead (by rw [hctl]; trivial) h
  simp only [Endpoint.run, hctl, Option.some.injEq] at hrun
  exact ⟨o, rfl, hrun⟩

/-- While `udp_sendto` waits for the answer to a handshake request. -/
theorem step_of_udpSendto {udp : UdpPacket} {retryCnt : Nat} {hs : Handshake}
    (hctl : e.ctl = .udpSendto udp retryCnt hs) (h : (machine A).step e ev = some p) :
    (∃ o, ev = .act (.timeout o) ∧ e.sendHandshake A o udp (retryCnt - 1) hs = p) ∨
      (ev = .act .error ∧ (e.finishHandshake A (-1), []) = p) ∨
      ∃ o d, ev = .recv o d ∧ (e.recvInHandshake A hs d, []) = p := by
  cases ev with
  | act i =>
      cases i <;> simp only [Machine.step, machine, Endpoint.run, Endpoint.timeout, Endpoint.error,
        hctl, Option.some.injEq, reduceCtorEq] at h
      · exact Or.inl ⟨_, rfl, h⟩
      · exact Or.inr (Or.inl ⟨rfl, h⟩)
  | recv o d =>
      simp only [Machine.step, machine, Endpoint.packet, hctl, Option.some.injEq] at h
      exact Or.inr (Or.inr ⟨o, d, rfl, h⟩)

/-- While the server waits for a handshake request. -/
theorem step_of_serverHandshake (hctl : e.ctl = .serverHandshake)
    (h : (machine A).step e ev = some p) :
    (∃ o, ev = .act (.timeout o) ∧ (e, []) = p) ∨
      (ev = .act .error ∧ (e.finishHandshake A (-1), []) = p) ∨
      ∃ o d, ev = .recv o d ∧ e.recvInServerHandshake A o d = p := by
  cases ev with
  | act i =>
      cases i <;> simp only [Machine.step, machine, Endpoint.run, Endpoint.timeout, Endpoint.error,
        hctl, Option.some.injEq, reduceCtorEq] at h
      · exact Or.inl ⟨_, rfl, h⟩
      · exact Or.inr (Or.inl ⟨rfl, h⟩)
  | recv o d =>
      simp only [Machine.step, machine, Endpoint.packet, hctl, Option.some.injEq] at h
      exact Or.inr (Or.inr ⟨o, d, rfl, h⟩)

/-- While `udp_sendtoEx` waits. -/
theorem step_of_udpSendtoEx {l : SendtoEx} {k : SendCaller} (hctl : e.ctl = .udpSendtoEx l k)
    (h : (machine A).step e ev = some p) :
    (∃ o, ev = .act (.timeout o) ∧
        (e.settle A k (e.lib.udpSendtoExTimeout o l).2, (e.lib.udpSendtoExTimeout o l).1) = p) ∨
      (ev = .act .error ∧ (e.afterSend A k (-1), []) = p) ∨
      ∃ o d, ev = .recv o d ∧ e.recvInSend A o l k d = p := by
  cases ev with
  | act i =>
      cases i <;> simp only [Machine.step, machine, Endpoint.run, Endpoint.timeout, Endpoint.error,
        hctl, Option.some.injEq, reduceCtorEq] at h
      · exact Or.inl ⟨_, rfl, h⟩
      · exact Or.inr (Or.inl ⟨rfl, h⟩)
  | recv o d =>
      simp only [Machine.step, machine, Endpoint.packet, hctl, Option.some.injEq] at h
      exact Or.inr (Or.inr ⟨o, d, rfl, h⟩)

/-- While `sock_recvfrom` waits. -/
theorem step_of_sockRecvfrom {left : Int} {got : List Byte} {k : RecvCaller}
    (hctl : e.ctl = .sockRecvfrom left got k) (h : (machine A).step e ev = some p) :
    (∃ o, ev = .act (.timeout o) ∧ (e.recvLoop A left got k, []) = p) ∨
      (ev = .act .error ∧ (e.recvFailed A got k, []) = p) ∨
      ∃ o d, ev = .recv o d ∧ e.recvInData A o left got k d = p := by
  cases ev with
  | act i =>
      cases i <;> simp only [Machine.step, machine, Endpoint.run, Endpoint.timeout, Endpoint.error,
        hctl, Option.some.injEq, reduceCtorEq] at h
      · exact Or.inl ⟨_, rfl, h⟩
      · exact Or.inr (Or.inl ⟨rfl, h⟩)
  | recv o d =>
      simp only [Machine.step, machine, Endpoint.packet, hctl, Option.some.injEq] at h
      exact Or.inr (Or.inr ⟨o, d, rfl, h⟩)

/-- While `srv_wait4cnn` waits. -/
theorem step_of_srvWait4cnn {sec : Int} (hctl : e.ctl = .srvWait4cnn sec)
    (h : (machine A).step e ev = some p) :
    (∃ o, ev = .act (.timeout o) ∧ (e.lingerLoop A sec, []) = p) ∨
      (ev = .act .error ∧ (e.finish A (.code (-1)), []) = p) ∨
      ∃ o d, ev = .recv o d ∧ e.recvInLinger A o sec d = p := by
  cases ev with
  | act i =>
      cases i <;> simp only [Machine.step, machine, Endpoint.run, Endpoint.timeout, Endpoint.error,
        hctl, Option.some.injEq, reduceCtorEq] at h
      · exact Or.inl ⟨_, rfl, h⟩
      · exact Or.inr (Or.inl ⟨rfl, h⟩)
  | recv o d =>
      simp only [Machine.step, machine, Endpoint.packet, hctl, Option.some.injEq] at h
      exact Or.inr (Or.inr ⟨o, d, rfl, h⟩)

end Sample3
end FileTransfer
