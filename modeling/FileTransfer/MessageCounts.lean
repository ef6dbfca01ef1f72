import FileTransfer.Assign3.Programs
import FileTransfer.Build2.Endpoint

/-!
# How many messages a file takes

The sending loops of `build 2` and of the download of `Assign3_zcl` run `while (sizeleft >= 0)`, the
receiving loops on the other side `while (fsize > 0)`.  `loops_agree_iff` says for which sizes both count
the same, and `server_sends` and `client_receives` connect the loops to the programs of `Assign3_zcl`.
-/

namespace FileTransfer

namespace Udp

/-! ## The sending loop -/

/-- What a sending loop does with its file and its socket. -/
inductive PutStep where
  | fread (count : Int)
  | udpsend (sendflag : Int)
  | udplastsend (sendflag : Int)
  | fclose
  deriving DecidableEq

/-- The loop `while (sizeleft >= 0)` on a size that `_stat` has reported, and so fits an `int`; `last` is the
routine that takes the last bytes, and `fclose` stands in its branch. -/
def sendLoop (last : Int → PutStep) (sizeleft : Int) : List PutStep :=
  if 0 ≤ sizeleft then
    if bufferLength < sizeleft then
      .fread bufferLength :: .udpsend 0 :: sendLoop last (sizeleft - bufferLength)
    else
      .fread sizeleft :: last sizeleft :: .fclose :: sendLoop last (sizeleft - bufferLength)
  else []
termination_by (sizeleft + bufferLength).toNat
decreasing_by all_goals simp only [bufferLength] at *; omega

/-- The step passes a message to a send routine. -/
def PutStep.passes : PutStep → Bool
  | .udpsend _ => true
  | .udplastsend _ => true
  | _ => false

@[simp] theorem passes_fread (n : Int) : (PutStep.fread n).passes = false := rfl

@[simp] theorem passes_udpsend (n : Int) : (PutStep.udpsend n).passes = true := rfl

@[simp] theorem passes_udplastsend (n : Int) : (PutStep.udplastsend n).passes = true := rfl

@[simp] theorem passes_fclose : PutStep.fclose.passes = false := rfl

def messagesPassed (steps : List PutStep) : Nat := steps.countP PutStep.passes

/-- The steps read the file only while it is open. -/
def ReadsOpen : Bool → List PutStep → Prop
  | _, [] => True
  | isOpen, .fread _ :: steps => isOpen = true ∧ ReadsOpen isOpen steps
  | _, .fclose :: steps => ReadsOpen false steps
  | isOpen, _ :: steps => ReadsOpen isOpen steps

/-! ## The receiving loop -/

/-- What a receiving loop does.  A `udprecv` that is repeated after `NULL` counts once. -/
inductive GetStep where
  | udprecv
  | udplastrecv
  | fwrite (count : Int)
  deriving DecidableEq

/-- The loop `while (fsize > 0)`. -/
def recvLoop (last : GetStep) (fsize : Int) : List GetStep :=
  if 0 < fsize then
    if bufferLength < fsize then
      .udprecv :: .fwrite bufferLength :: recvLoop last (fsize - bufferLength)
    else last :: .fwrite fsize :: recvLoop last (fsize - fsize)
  else []
termination_by fsize.toNat
decreasing_by all_goals simp only [bufferLength] at *; omega

/-- The step takes a message. -/
def GetStep.takes : GetStep → Bool
  | .fwrite _ => false
  | _ => true

@[simp] theorem takes_udprecv : GetStep.udprecv.takes = true := rfl

@[simp] theorem takes_udplastrecv : GetStep.udplastrecv.takes = true := rfl

@[simp] theorem takes_fwrite (n : Int) : (GetStep.fwrite n).takes = false := rfl

def messagesTaken (steps : List GetStep) : Nat := steps.countP GetStep.takes

/-! ## Counting -/

theorem messagesPassed_cons (x : PutStep) (steps : List PutStep) :
    messagesPassed (x :: steps) = messagesPassed steps + if x.passes then 1 else 0 :=
  List.countP_cons

theorem messagesTaken_cons (x : GetStep) (steps : List GetStep) :
    messagesTaken (x :: steps) = messagesTaken steps + if x.takes then 1 else 0 :=
  List.countP_cons

section

variable {last : Int → PutStep}

/-- A file of `n` bytes is passed in `n / 260 + 1` messages. -/
theorem messagesPassed_sendLoop (hlast : ∀ n, (last n).passes = true) (sizeleft : Int) :
    messagesPassed (sendLoop last sizeleft) = (sizeleft / 260 + 1).toNat := by
  have hb : (bufferLength : Int) = 260 := rfl
  fun_induction sendLoop last sizeleft with
  | case1 sizeleft hpos hmore ih =>
      simp only [messagesPassed_cons, ih, passes_fread, passes_udpsend]
      simp
      omega
  | case2 sizeleft hpos hless ih =>
      simp only [messagesPassed_cons, ih, hlast, passes_fread, passes_fclose]
      simp
      omega
  | case3 sizeleft hneg =>
      have hnone : messagesPassed [] = 0 := rfl
      rw [hnone]
      omega

/-- It is taken in as few messages as it fits into. -/
theorem messagesTaken_recvLoop {last : GetStep} (hlast : last.takes = true) (fsize : Int) :
    messagesTaken (recvLoop last fsize) = ((fsize + 259) / 260).toNat := by
  have hb : (bufferLength : Int) = 260 := rfl
  fun_induction recvLoop last fsize with
  | case1 fsize hpos hmore ih =>
      simp only [messagesTaken_cons, ih, takes_udprecv, takes_fwrite]
      simp
      omega
  | case2 fsize hpos hless ih =>
      simp only [messagesTaken_cons, ih, hlast, takes_fwrite]
      simp
      omega
  | case3 fsize hneg =>
      have hnone : messagesTaken [] = 0 := rfl
      rw [hnone]
      omega

theorem counts_eq_iff (n : Nat) :
    ((n : Int) / 260 + 1).toNat = (((n : Int) + 259) / 260).toNat ↔ ¬ bufferLength ∣ n := by
  have hb : bufferLength = 260 := rfl
  rw [hb]
  omega

/-- A file whose last buffer is not full is closed once, behind its last read. -/
theorem readsOpen_sendLoop (hlast : ∀ n, (last n).passes = true) (sizeleft : Int)
    (hpart : ¬ (260 : Int) ∣ sizeleft) (hpos : 0 ≤ sizeleft) :
    ReadsOpen true (sendLoop last sizeleft) ∧ (sendLoop last sizeleft).count .fclose = 1 := by
  have hb : (bufferLength : Int) = 260 := rfl
  fun_induction sendLoop last sizeleft with
  | case1 sizeleft _ hmore ih =>
      obtain ⟨hreads, hclose⟩ := ih (by omega) (by omega)
      exact ⟨⟨rfl, hreads⟩, by simpa using hclose⟩
  | case2 sizeleft _ hless ih =>
      -- the loop ends here
      have hend : sendLoop last (sizeleft - bufferLength) = [] := by
        rw [sendLoop, if_neg (by omega)]
      have hpass := hlast sizeleft
      rw [hend]
      cases hcall : last sizeleft <;> rw [hcall] at hpass
      case fread => cases hpass
      case fclose => cases hpass
      all_goals exact ⟨⟨rfl, trivial⟩, by simp⟩
  | case3 sizeleft hneg => exact absurd hpos hneg

end

end Udp

open Udp

/-! ## The programs -/

namespace Assign3

/-- The loops of `PutFileToClient` and `GetFileFromServer`. -/
def putFileToClientLoop : Int → List PutStep := sendLoop .udplastsend
def getFileFromServerLoop : Int → List GetStep := recvLoop .udplastrecv

/-- The calls that a program makes while they return these results, and where it stands then. -/
def App.calls {π : Type*} (A : App π) (x : π) : List Ret → List (Option Call) × π
  | [] => ([], x)
  | r :: rs =>
      let after := A.calls (A.resume x r) rs
      (A.call x :: after.1, after.2)

/-- The step of the sending loop that a call is. -/
def Call.putStep : Call → Option PutStep
  | .udpsend _ => some (.udpsend 0)
  | .udplastsend m => some (.udplastsend m.sendflag)
  | _ => none

/-- While `sizeleft` is not negative the server makes the call of its loop. -/
theorem sendLoop_continues {x : FileSending} (h : 0 ≤ x.sizeleft) (s : Server) (r : Ret) :
    ftpApp.call (.server (s.sendLoop x)) = some x.call ∧
      ftpApp.resume (.server (s.sendLoop x)) r = .server ((s.goto (.sending x)).sendLoop x.next) := by
  have hloop : s.sendLoop x = s.goto (.sending x) := if_pos h
  rw [hloop]
  exact ⟨rfl, rfl⟩

theorem putStep_call (x : FileSending) :
    x.call.putStep = some (if bufferLength < x.sizeleft then .udpsend 0
      else .udplastsend (min x.sizeleft.toNat bufferLength : Nat)) := by
  unfold FileSending.call
  split <;> simp [Call.putStep, *]

/-- One pass of the server's loop is one call. -/
theorem calls_sending {x : FileSending} (h : 0 ≤ x.sizeleft) (s : Server) (r : Ret) (rs : List Ret) :
    ftpApp.calls (.server (s.sendLoop x)) (r :: rs) =
      (some x.call :: (ftpApp.calls (.server ((s.goto (.sending x)).sendLoop x.next)) rs).1,
        (ftpApp.calls (.server ((s.goto (.sending x)).sendLoop x.next)) rs).2) := by
  obtain ⟨hcall, hresume⟩ := sendLoop_continues h s r
  simp only [App.calls, hcall, hresume]

/-- One pass of the loop passes one message. -/
theorem filter_putFileToClientLoop {n : Int} (h : 0 ≤ n) :
    (putFileToClientLoop n).filter PutStep.passes =
      (if bufferLength < n then .udpsend 0 else .udplastsend n) ::
        (putFileToClientLoop (n - bufferLength)).filter PutStep.passes := by
  unfold putFileToClientLoop
  rw [sendLoop, if_pos h]
  split <;> simp [List.filter_cons]

theorem putFileToClientLoop_done {n : Int} (h : ¬ 0 ≤ n) : putFileToClientLoop n = [] := by
  unfold putFileToClientLoop
  rw [sendLoop, if_neg h]

/-- The server makes the calls of the loop, whatever they return, and reads the next command then. -/
theorem server_sends (s : Server) (x : FileSending) (rs : List Ret)
    (hrs : rs.length = messagesPassed (putFileToClientLoop x.sizeleft)) :
    (ftpApp.calls (.server (s.sendLoop x)) rs).1.map (fun c => c.bind Call.putStep) =
        ((putFileToClientLoop x.sizeleft).filter PutStep.passes).map some ∧
      ∃ s', (ftpApp.calls (.server (s.sendLoop x)) rs).2 = .server s' ∧ s'.at = .loop := by
  rw [messagesPassed, List.countP_eq_length_filter] at hrs
  induction rs generalizing s x with
  | nil =>
      by_cases hpos : 0 ≤ x.sizeleft
      · rw [filter_putFileToClientLoop hpos] at hrs
        cases hrs
      · have hloop : s.sendLoop x = s.goto .loop := if_neg hpos
        rw [putFileToClientLoop_done hpos, hloop]
        exact ⟨rfl, s.goto .loop, rfl, rfl⟩
  | cons r rs ih =>
      by_cases hpos : 0 ≤ x.sizeleft
      · rw [filter_putFileToClientLoop hpos, List.length_cons, List.length_cons] at hrs
        obtain ⟨hcalls, hend⟩ := ih (s.goto (.sending x)) x.next (Nat.succ.inj hrs)
        rw [calls_sending hpos, filter_putFileToClientLoop hpos]
        refine ⟨?_, hend⟩
        -- the call of this pass is the step of this pass
        have hstep : x.call.putStep = some (if bufferLength < x.sizeleft then .udpsend 0
            else .udplastsend x.sizeleft) := by
          rw [putStep_call]
          split
          · rfl
          · rename_i hless
            rw [Nat.min_eq_left (by omega), Int.toNat_of_nonneg hpos]
        rw [List.map_cons, List.map_cons, Option.bind_some, hstep]
        exact congrArg _ hcalls
      · rw [putFileToClientLoop_done hpos] at hrs
        cases hrs

/-- The results that a receiving loop with `fsize` bytes to go gets, until it ends: chunks, with `NULL` in
between, and a last packet. -/
def Answers (fsize : Int) : List Ret → Prop
  | [] => fsize ≤ 0
  | r :: rs => 0 < fsize ∧
      if bufferLength < fsize then
        r = .udprecv none ∧ Answers fsize rs ∨
          ∃ chunk, r = .udprecv (some chunk) ∧ Answers (fsize - bufferLength) rs
      else ∃ p, r = .udplastrecv p ∧ Answers 0 rs

/-- The result is a message. -/
def Ret.isMessage : Ret → Bool
  | .udprecv none => false
  | _ => true

theorem recvLoop_continues {x : FileReceiving} (h : x.fsize > 0) (c : Client) (r : Ret) :
    ∃ c' : Client, ftpApp.resume (.client (c.recvLoop x)) r = .client (c'.recvLoop (x.next r).2) := by
  have hloop : c.recvLoop x = c.goto (.receiving x) := if_pos h
  rw [hloop]
  exact ⟨_, rfl⟩

/-- The client takes as many messages as the loop, and the download ends then. -/
theorem client_receives (c : Client) (x : FileReceiving) (rs : List Ret) (h : Answers x.fsize rs) :
    rs.countP Ret.isMessage = messagesTaken (getFileFromServerLoop x.fsize) ∧
      ∃ c', (ftpApp.calls (.client (c.recvLoop x)) rs).2 = .client c' ∧ c'.at = .menu := by
  unfold getFileFromServerLoop
  induction rs generalizing c x with
  | nil =>
      have hdone : ¬ x.fsize > 0 := Int.not_lt.2 h
      have hloop : c.recvLoop x = c.report .downloaded := if_neg hdone
      refine ⟨?_, c.report .downloaded, by rw [hloop]; rfl, rfl⟩
      rw [recvLoop, if_neg hdone]
      rfl
  | cons r rs ih =>
      obtain ⟨hpos, hanswer⟩ := h
      obtain ⟨c', hresume⟩ := recvLoop_continues hpos c r
      simp only [App.calls, hresume]
      rw [recvLoop, if_pos hpos]
      split at hanswer
      · rename_i hmore
        rw [if_pos hmore]
        rcases hanswer with ⟨rfl, hrest⟩ | ⟨chunk, rfl, hrest⟩
        · -- `NULL`: the loop is where it was
          obtain ⟨hcount, hend⟩ := ih c' x hrest
          refine ⟨?_, hend⟩
          rw [recvLoop, if_pos hpos, if_pos hmore] at hcount
          simpa [Ret.isMessage] using hcount
        · obtain ⟨hcount, hend⟩ := ih c' ⟨x.name, x.fsize - bufferLength⟩ hrest
          exact ⟨by simp [List.countP_cons, Ret.isMessage, hcount, messagesTaken_cons], hend⟩
      · rename_i hless
        rw [if_neg hless, Int.sub_self]
        obtain ⟨p, rfl, hrest⟩ := hanswer
        obtain ⟨hcount, hend⟩ := ih c' ⟨x.name, 0⟩ hrest
        exact ⟨by simp [List.countP_cons, Ret.isMessage, hcount, messagesTaken_cons], hend⟩

end Assign3

namespace Build2

/-- The loops of `PutFileToServer` and `GetFileFromClient`. -/
def putFileToServerLoop : Int → List PutStep := sendLoop .udpsend
def getFileFromClientLoop : Int → List GetStep := recvLoop .udprecv

/-- The loops of `PutFileToClient` and `GetFileFromServer`. -/
def putFileToClientLoop : Int → List PutStep := sendLoop .udpsend
def getFileFromServerLoop : Int → List GetStep := recvLoop .udprecv

end Build2

/-- The transfers whose sender loops while `sizeleft >= 0`. -/
inductive FileLoops where
  | assign3Download
  | build2Upload
  | build2Download
  deriving DecidableEq

namespace FileLoops

def sending : FileLoops → Int → List PutStep
  | assign3Download => Assign3.putFileToClientLoop
  | build2Upload => Build2.putFileToServerLoop
  | build2Download => Build2.putFileToClientLoop

def receiving : FileLoops → Int → List GetStep
  | assign3Download => Assign3.getFileFromServerLoop
  | build2Upload => Build2.getFileFromClientLoop
  | build2Download => Build2.getFileFromServerLoop

/-- A file of `n` bytes is passed in as many messages as are taken, read while it is open, and closed
once. -/
structure Agree (x : FileLoops) (n : Nat) : Prop where
  messages : messagesPassed (x.sending n) = messagesTaken (x.receiving n)
  reads : ReadsOpen true (x.sending n)
  closes : (x.sending n).count .fclose = 1

/-- Every sender is the loop with a routine that passes a message. -/
theorem sending_eq (x : FileLoops) :
    ∃ last : Int → PutStep, (∀ n, (last n).passes = true) ∧ x.sending = sendLoop last := by
  cases x
  · exact ⟨.udplastsend, fun _ => rfl, rfl⟩
  · exact ⟨.udpsend, fun _ => rfl, rfl⟩
  · exact ⟨.udpsend, fun _ => rfl, rfl⟩

theorem receiving_eq (x : FileLoops) :
    ∃ last : GetStep, last.takes = true ∧ x.receiving = recvLoop last := by
  cases x
  · exact ⟨.udplastrecv, rfl, rfl⟩
  · exact ⟨.udprecv, rfl, rfl⟩
  · exact ⟨.udprecv, rfl, rfl⟩

theorem messages_iff (x : FileLoops) (n : Nat) :
    messagesPassed (x.sending n) = messagesTaken (x.receiving n) ↔ ¬ bufferLength ∣ n := by
  obtain ⟨last, hlast, hsending⟩ := x.sending_eq
  obtain ⟨last', hlast', hreceiving⟩ := x.receiving_eq
  rw [hsending, hreceiving, messagesPassed_sendLoop hlast, messagesTaken_recvLoop hlast',
    counts_eq_iff]

/-- Both loops count the same, and the file is used rightly, exactly when its size is not a multiple of
`BUFFER_LENGTH`; the empty file is one. -/
theorem loops_agree_iff (x : FileLoops) (n : Nat) : x.Agree n ↔ ¬ bufferLength ∣ n := by
  constructor
  · intro hagree
    exact (x.messages_iff n).1 hagree.messages
  · intro hpart
    obtain ⟨last, hlast, hsending⟩ := x.sending_eq
    have hpart' : ¬ (260 : Int) ∣ n := by
      have hb : bufferLength = 260 := rfl
      rw [hb] at hpart
      omega
    obtain ⟨hreads, hcloses⟩ := readsOpen_sendLoop hlast n hpart' (Int.natCast_nonneg n)
    exact ⟨(x.messages_iff n).2 hpart, hsending ▸ hreads, hsending ▸ hcloses⟩

/-- A file of one buffer is passed in two messages, and taken in one. -/
theorem full_buffer_disagrees : ¬ assign3Download.Agree 260 := by
  intro hagree
  exact (assign3Download.messages_iff 260).1 hagree.messages (by decide)

end FileLoops

end FileTransfer
