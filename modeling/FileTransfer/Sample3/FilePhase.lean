import FileTransfer.Sample3.EndpointSteps
import FileTransfer.Sample3.Link

/-!
# The file phase

One endpoint runs `send_file` and its peer runs `recv_file`; neither program makes another call.
`SenderFile` says which part of the file the sender has numbered, `ReceiverFile` which part the receiver
has written, given the payloads it was handed.
-/

namespace FileTransfer
namespace Sample3

/-- A program that makes no further call. -/
def idleApp : App Unit where
  call _ := none
  resume _ _ := ()

theorem nextCall_idleApp (e : Endpoint Unit) : e.nextCall idleApp = none := by
  unfold Endpoint.nextCall
  split <;> rfl

/-- In the file phase no object is set up again. -/
theorem quiet_act_idleApp {e : Endpoint Unit} {i : Act} {p : Endpoint Unit × List Datagram}
    (h : (machine idleApp).act e i = some p) : Quiet e p := by
  refine quiet_act (fun c hc => ?_) h
  rw [nextCall_idleApp] at hc
  cases hc

/-- `send_file` of `content` on the object `sender` against `recv_file` of `len` bytes on `receiver`. -/
def fileStart (sender receiver : SockLib) (content : List Byte) (len : Int) :
    Net (Endpoint Unit) Datagram where
  node
    | .client => { lib := sender, ctl := .sendFile content false, app := (), log := [] }
    | .server => { lib := receiver, ctl := .recvFile len [], app := (), log := [] }
  wire _ := []

/-- What `recv_file` has written so far. -/
def fileWritten {π : Type*} (e : Endpoint π) : List Byte :=
  match e.ctl with
  | .recvFile _ written => written
  | .sockRecvfrom _ _ (.recvFile _ _ written) => written
  | _ =>
      match e.log.getLast? with
      | some (.returned (.file _ written)) => written
      | _ => []

/-- The `j`-th packet's data of a file. -/
def chunk (content : List Byte) (j : Nat) : Payload :=
  .ofBytes ((content.drop (bufferLength * j)).take bufferLength)

/-- The number of packets `send_file` numbers: it reads until a read is short. -/
def packetsSent (n : Nat) : Nat := n / bufferLength + 1

/-! ## The sender -/

/-- `k` reads have been made; `rest` is unread, and `eof` says whether the last read was short. -/
def ReadPart (content : List Byte) (k : Nat) (rest : List Byte) (eof : Bool) : Prop :=
  if eof then k = packetsSent content.length
  else rest = content.drop (bufferLength * k) ∧ bufferLength * k ≤ content.length

def CallerPart (content : List Byte) (k : Nat) : SendCaller → Prop
  | .sendFileCopy rest eof => ReadPart content k rest eof
  | .sendFileLast => k = packetsSent content.length
  | _ => False

def SenderCtl (content : List Byte) (k : Nat) : Control → Prop
  | .idle => True
  | .sendFile rest eof => ReadPart content k rest eof
  | .sendFileLast => k = packetsSent content.length
  | .udpSendtoEx _ c => CallerPart content k c
  | _ => False

structure SenderFile (content : List Byte) (e : Endpoint Unit) : Prop where
  chunks : numberedData e.log = (List.range (numberedData e.log).length).map (chunk content)
  ctl : SenderCtl content (numberedData e.log).length e.ctl

section

variable {content : List Byte} {e e' : Endpoint Unit} {o : Oracle} {k : SendCaller} {m : Nat}
  {p : Endpoint Unit × List Datagram} {d : Datagram}

theorem senderCtl_afterSend (h : CallerPart content m k) (r : Int) :
    SenderCtl content m (e.afterSend idleApp k r).ctl := by
  cases k with
  | sendFileCopy rest eof =>
      unfold Endpoint.afterSend
      dsimp only
      split
      · trivial
      · exact h
  | sendFileLast =>
      unfold Endpoint.afterSend
      dsimp only
      split
      · trivial
      · split
        · exact h
        · trivial
  | sockSendtoExCopy _ => cases h
  | sockSendtoEx => cases h

theorem senderCtl_settle (h : CallerPart content m k) (oc : Outcome) :
    SenderCtl content m (e.settle idleApp k oc).ctl := by
  cases oc with
  | waits l => exact h
  | returns r => exact senderCtl_afterSend h r

/-- The functions below the read loop number nothing. -/
theorem senderFile_of_moves (hchunks : numberedData e.log =
      (List.range (numberedData e.log).length).map (chunk content))
    (hmoves : Endpoint.Moves A e e') (hctl : SenderCtl content (numberedData e.log).length e'.ctl) :
    SenderFile content e' := by
  have hlog := numberedData_of_moves hmoves
  exact ⟨by rw [hlog]; exact hchunks, by rw [hlog]; exact hctl⟩

theorem senderFile_settle (hchunks : numberedData e.log =
      (List.range (numberedData e.log).length).map (chunk content))
    (hk : CallerPart content (numberedData e.log).length k) (oc : Outcome) :
    SenderFile content (e.settle idleApp k oc) :=
  senderFile_of_moves hchunks (Endpoint.moves_settle k oc) (senderCtl_settle hk oc)

/-- The next read and the number of reads after it. -/
theorem ReadPart.next {rest : List Byte} (h : ReadPart content m rest false) :
    Payload.ofBytes (rest.take bufferLength) = chunk content m ∧
      ReadPart content (m + 1) (rest.drop bufferLength) (rest.length < bufferLength) := by
  obtain ⟨rfl, hle⟩ := h
  refine ⟨rfl, ?_⟩
  unfold ReadPart packetsSent
  have hb : bufferLength = 1024 := rfl
  simp only [List.length_drop, decide_eq_true_eq, List.drop_drop, hb] at hle ⊢
  split
  · omega
  · exact ⟨by congr 1, by omega⟩

/-- A pass of the read loop that has room in the window numbers the next chunk. -/
theorem SenderFile.read (h : SenderFile content e) {rest : List Byte} {eof : Bool}
    (hctl : e.ctl = .sendFile rest eof)
    (hroom : eof = false → e.lib.winBufPos < e.lib.wSize) :
    SenderFile content (e.readAndCopy idleApp o rest eof).1 := by
  have hread := h.ctl
  rw [hctl] at hread
  cases eof with
  | true =>
      refine ⟨h.chunks, ?_⟩
      exact hread
  | false =>
      -- the chunk read is the next one of the file, and there is a slot for it
      obtain ⟨hchunk, hnext⟩ := ReadPart.next hread
      have hlt := hroom rfl
      simp only [Endpoint.readAndCopy, Bool.false_eq_true, if_false, Endpoint.copyAndSend, hlt,
        if_true]
      set e₁ : Endpoint Unit := { e with
        lib := (e.lib.copy2Winbuf (.ofBytes (rest.take bufferLength))).1
        log := e.log ++ [.numbered (e.lib.addUdpheader (.ofBytes (rest.take bufferLength))).2] }
        with he₁
      have hlog : numberedData e₁.log = numberedData e.log ++ [chunk content
          (numberedData e.log).length] := by
        simp [he₁, SockLib.addUdpheader, hchunk]
      have hchunks : numberedData e₁.log =
          (List.range (numberedData e₁.log).length).map (chunk content) := by
        rw [hlog, List.length_append, List.length_singleton, List.range_succ, List.map_append]
        rw [← h.chunks]
        rfl
      have hk : CallerPart content (numberedData e₁.log).length
          (.sendFileCopy (rest.drop bufferLength) (rest.length < bufferLength)) := by
        rw [hlog, List.length_append, List.length_singleton]
        exact hnext
      split
      · exact senderFile_settle hchunks hk _
      · have hmoves := Endpoint.moves_afterSend (A := idleApp) (e := e₁)
          (.sendFileCopy (rest.drop bufferLength) (rest.length < bufferLength)) 1
        exact senderFile_of_moves hchunks hmoves (senderCtl_afterSend hk 1)

/-- Where the sender may stand. -/
theorem SenderCtl.cases {c : Control} (h : SenderCtl content m c) :
    c = .idle ∨ (∃ rest eof, c = .sendFile rest eof) ∨
      (c = .sendFileLast ∧ m = packetsSent content.length) ∨
      ∃ l k, c = .udpSendtoEx l k ∧ CallerPart content m k := by
  cases c with
  | idle => exact Or.inl rfl
  | sendFile rest eof => exact Or.inr (Or.inl ⟨rest, eof, rfl⟩)
  | sendFileLast => exact Or.inr (Or.inr (Or.inl ⟨rfl, h⟩))
  | udpSendtoEx l k => exact Or.inr (Or.inr (Or.inr ⟨l, k, rfl, h⟩))
  | _ => cases h

/-- The sender's steps without a packet. -/
theorem SenderFile.act (h : SenderFile content e)
    (hroom : ∀ rest, e.ctl = .sendFile rest false → e.lib.winBufPos < e.lib.wSize) {i : Act}
    (hact : (machine idleApp).act e i = some p) : SenderFile content p.1 := by
  have hstep : (machine idleApp).step e (.act i) = some p := hact
  rcases h.ctl.cases with hc | ⟨rest, eof, hc⟩ | ⟨hc, hm⟩ | ⟨l, k, hc, hk⟩
  · obtain ⟨_, _, -, hcall, -⟩ := step_of_idle hc hstep
    cases hcall
  · obtain ⟨o, -, rfl⟩ := step_of_sendFile hc hstep
    exact h.read hc fun heof => hroom rest (by rw [hc, heof])
  · obtain ⟨o, -, rfl⟩ := step_of_sendFileLast hc hstep
    exact senderFile_settle (k := .sendFileLast) h.chunks hm _
  · rcases step_of_udpSendtoEx hc hstep with ⟨o, -, rfl⟩ | ⟨-, rfl⟩ | ⟨_, _, ⟨⟩, -⟩
    · exact senderFile_settle h.chunks hk _
    · exact senderFile_of_moves h.chunks (Endpoint.moves_afterSend _ _) (senderCtl_afterSend hk _)

/-- The sender takes a datagram in. -/
theorem SenderFile.recv (h : SenderFile content e) (hrecv : (machine idleApp).recv e o d = some p) :
    ∃ l k, e.ctl = .udpSendtoEx l k ∧ p = e.recvInSend idleApp o l k d ∧
      SenderFile content p.1 := by
  have hstep : (machine idleApp).step e (.recv o d) = some p := hrecv
  rcases h.ctl.cases with hc | ⟨rest, eof, hc⟩ | ⟨hc, hm⟩ | ⟨l, k, hc, hk⟩
  · obtain ⟨_, _, ⟨⟩, -⟩ := step_of_idle hc hstep
  · obtain ⟨_, ⟨⟩, -⟩ := step_of_sendFile hc hstep
  · obtain ⟨_, ⟨⟩, -⟩ := step_of_sendFileLast hc hstep
  · rcases step_of_udpSendtoEx hc hstep with ⟨_, ⟨⟩, -⟩ | ⟨⟨⟩, -⟩ | ⟨_, _, ⟨⟩, rfl⟩
    refine ⟨l, k, hc, rfl, ?_⟩
    -- an answer numbers nothing, whatever it does to the window
    have hlog : ∀ evs : List Event, (∀ ev ∈ evs, ∃ x, ev = .acked x) → ∀ (s : SockLib) (oc : Outcome),
        SenderFile content
          (({ e with lib := s, log := e.log ++ evs } : Endpoint Unit).settle idleApp k oc) := by
      intro evs hevs s oc
      have hnil : numberedData (e.log ++ evs) = numberedData e.log := by
        have hevs' : numberedData evs = [] := by
          simp only [numberedData, List.filterMap_eq_nil_iff]
          intro ev hev
          obtain ⟨x, rfl⟩ := hevs ev hev
          rfl
        rw [numberedData_append, hevs', List.append_nil]
      refine senderFile_settle (e := { e with lib := s, log := e.log ++ evs }) ?_ ?_ oc
      · simp only [hnil]
        exact h.chunks
      · simp only [hnil]
        exact hk
    rcases Endpoint.recvInSend_cases (A := idleApp) (o := o) e l k d with
      ⟨-, -, hstep⟩ | ⟨-, hstep⟩ <;> rw [hstep]
    · exact hlog [.acked d] (by simp) _ _
    · have := hlog [] (by simp) (e.lib.udpSendtoExPacket o l d.pkt).1
        (e.lib.udpSendtoExPacket o l d.pkt).2.2
      simpa using this

end

/-! ## The receiver -/

/-- `recv_file` with `left` bytes to go has written the first `m` chunks. -/
structure WritePart (content : List Byte) (len : Int) (m : Nat) (left : Int) (written : List Byte) :
    Prop where
  left_pos : 0 < left
  left_eq : left = len - bufferLength * m
  written_eq : written = content.take (bufferLength * m)

def ReceiverCtl (content : List Byte) (len : Int) (m : Nat) (log : List Event) : Control → Prop
  | .idle => ∃ r written, log.getLast? = some (.returned (.file r written)) ∧ written <+: content ∧
      (r = 0 → written = content.take len.toNat ∧ len ≤ bufferLength * m)
  | .recvFile left written => WritePart content len m left written ∨
      (left ≤ 0 ∧ written = content.take len.toNat ∧ len ≤ bufferLength * m)
  | .sockRecvfrom left got (.recvFile recvLen fleft written) =>
      WritePart content len m fleft written ∧ got = [] ∧ left = recvLen ∧
        recvLen = if bufferLength < fleft then (bufferLength : Int) else fleft
  | _ => False

/-- The receiver, given that it was handed the first `m` chunks. -/
structure ReceiverFile (content : List Byte) (len : Int) (m : Nat) (e : Endpoint Unit) : Prop where
  ctl : ReceiverCtl content len m e.log e.ctl

section

variable {content : List Byte} {len : Int} {m : Nat} {e : Endpoint Unit} {o : Oracle}
  {p : Endpoint Unit × List Datagram} {d : Datagram}

/-- What the receiver has written is a part of the file from its start. -/
theorem ReceiverFile.prefix (h : ReceiverFile content len m e) : fileWritten e <+: content := by
  obtain ⟨h⟩ := h
  unfold ReceiverCtl at h
  unfold fileWritten
  split at h
  · rename_i hc
    obtain ⟨r, written, hlast, hpre, -⟩ := h
    simpa [hc, hlast] using hpre
  · rename_i left written hc
    simp only [hc]
    rcases h with h | ⟨-, h, -⟩
    · rw [h.written_eq]
      exact List.take_prefix _ _
    · rw [h]
      exact List.take_prefix _ _
  · rename_i left got recvLen fleft written hc
    simp only [hc]
    rw [h.1.written_eq]
    exact List.take_prefix _ _
  · cases h

/-- What one pass of `recv_file` asks for, with `left` bytes to go. -/
theorem recvLen_bounds {left recvLen : Int} (h : 0 < left)
    (hr : recvLen = if bufferLength < left then (bufferLength : Int) else left) :
    0 < recvLen ∧ recvLen ≤ left ∧ recvLen ≤ bufferLength ∧
      (recvLen = bufferLength ∨ recvLen = left) := by
  have hb : bufferLength = 1024 := rfl
  rw [hr, hb]
  split <;> omega

/-- The cut of the next chunk that `recv_file` writes. -/
theorem WritePart.piece {left : Int} {written : List Byte}
    (h : WritePart content len m left written) (hlen : len ≤ content.length) :
    let recvLen : Int := if bufferLength < left then (bufferLength : Int) else left
    written ++ (chunk content m).bytes.take (min recvLen bufferLength).toNat =
        content.take (bufferLength * m + recvLen.toNat) ∧
      (WritePart content len (m + 1) (left - recvLen)
          (written ++ (chunk content m).bytes.take (min recvLen bufferLength).toNat) ∨
        (left - recvLen ≤ 0 ∧
          written ++ (chunk content m).bytes.take (min recvLen bufferLength).toNat =
            content.take len.toNat ∧ len ≤ bufferLength * (m + 1 : Nat))) := by
  obtain ⟨hpos, hleft, rfl⟩ := h
  have hb : bufferLength = 1024 := rfl
  intro recvLen
  obtain ⟨h0, h1, h2, h3⟩ := recvLen_bounds hpos (show recvLen = _ from rfl)
  rw [hb] at h2 h3
  have hmin : (min recvLen bufferLength).toNat = recvLen.toNat := by
    rw [hb]
    omega
  -- the chunk holds that many bytes of the file before its zeros
  have hcut : (chunk content m).bytes.take recvLen.toNat =
      (content.drop (bufferLength * m)).take recvLen.toNat := by
    have hlen' : recvLen.toNat ≤ ((content.drop (bufferLength * m)).take bufferLength).length := by
      simp only [List.length_take, List.length_drop, hb]
      rw [hb] at hleft
      omega
    rw [chunk, Payload.take_ofBytes hlen' (by rw [hb]; omega), List.take_take, hb]
    congr 1
    omega
  have hjoin : content.take (bufferLength * m) ++ (chunk content m).bytes.take recvLen.toNat =
      content.take (bufferLength * m + recvLen.toNat) := by
    rw [hcut, List.take_add]
  rw [hmin]
  refine ⟨hjoin, ?_⟩
  -- a whole chunk and perhaps more to go, or the last piece
  rcases h3 with h3 | h3
  · by_cases hmore : 0 < left - recvLen
    · refine Or.inl ⟨hmore, ?_, ?_⟩
      · rw [hleft, h3, hb]
        omega
      · rw [hjoin, h3, hb]
        congr 1
    · refine Or.inr ⟨by omega, ?_, by rw [hb] at hleft ⊢; omega⟩
      rw [hjoin]
      congr 1
      rw [hb] at hleft ⊢
      omega
  · refine Or.inr ⟨by omega, ?_, by rw [hb] at hleft ⊢; omega⟩
    rw [hjoin]
    congr 1
    rw [hb] at hleft ⊢
    omega

/-- Where the receiver may stand. -/
theorem ReceiverFile.cases (h : ReceiverFile content len m e) :
    e.ctl = .idle ∨ (∃ left written, e.ctl = .recvFile left written) ∨
      ∃ left recvLen fleft written,
        e.ctl = .sockRecvfrom left [] (.recvFile recvLen fleft written) := by
  obtain ⟨h⟩ := h
  unfold ReceiverCtl at h
  split at h
  · rename_i hc
    exact Or.inl hc
  · rename_i left written hc
    exact Or.inr (Or.inl ⟨left, written, hc⟩)
  · rename_i left got recvLen fleft written hc
    obtain ⟨-, rfl, -, -⟩ := h
    exact Or.inr (Or.inr ⟨left, recvLen, fleft, written, hc⟩)
  · cases h

/-- A failing `recv_file` has written a part of the file. -/
theorem receiverFile_failed {written : List Byte} (h : written <+: content) :
    ReceiverFile content len m (e.finish idleApp (.file (-1) written)) :=
  ⟨-1, written, by simp [Endpoint.finish], h, by simp⟩

/-- The receiver's steps without a packet hand nothing over and send nothing. -/
theorem ReceiverFile.act (h : ReceiverFile content len m e) {i : Act}
    (hact : (machine idleApp).act e i = some p) : ReceiverFile content len m p.1 ∧ p.2 = [] := by
  have hstep : (machine idleApp).step e (.act i) = some p := hact
  have hctl := h.ctl
  rcases h.cases with hc | ⟨left, written, hc⟩ | ⟨left, recvLen, fleft, written, hc⟩
  · obtain ⟨_, _, -, hcall, -⟩ := step_of_idle hc hstep
    cases hcall
  · rw [hc] at hctl
    obtain ⟨o, -, rfl⟩ := step_of_recvFile hc hstep
    refine ⟨⟨?_⟩, rfl⟩
    unfold Endpoint.recvPiece
    split
    · -- `sock_recvfrom` is called for the next piece
      rename_i hpos
      rcases hctl with hctl | ⟨hneg, -⟩
      · exact ⟨hctl, rfl, rfl, rfl⟩
      · omega
    · -- the loop is over, with the file written
      rename_i hpos
      rcases hctl with hctl | ⟨-, hw⟩
      · exact absurd hctl.left_pos hpos
      · exact ⟨0, written, by simp [Endpoint.finish], by rw [hw.1]; exact List.take_prefix _ _,
          fun _ => hw⟩
  · rw [hc] at hctl
    rcases step_of_sockRecvfrom hc hstep with ⟨o, -, rfl⟩ | ⟨-, rfl⟩ | ⟨_, _, ⟨⟩, -⟩
    · refine ⟨⟨?_⟩, rfl⟩
      have hpos : 0 < left := by
        obtain ⟨hw, -, rfl, hr⟩ := hctl
        exact (recvLen_bounds hw.left_pos hr).1
      rw [Endpoint.recvLoop, if_pos hpos]
      exact hctl
    · refine ⟨receiverFile_failed ?_, rfl⟩
      rw [hctl.1.written_eq]
      exact List.take_prefix _ _

/-- The receiver takes a datagram in from `sock_recvfrom` only. -/
theorem ReceiverFile.recv_ctl (h : ReceiverFile content len m e)
    (hrecv : (machine idleApp).recv e o d = some p) :
    ∃ left got k, e.ctl = .sockRecvfrom left got k := by
  have hstep : (machine idleApp).step e (.recv o d) = some p := hrecv
  rcases h.cases with hc | ⟨left, written, hc⟩ | ⟨left, recvLen, fleft, written, hc⟩
  · obtain ⟨_, _, ⟨⟩, -⟩ := step_of_idle hc hstep
  · obtain ⟨_, ⟨⟩, -⟩ := step_of_recvFile hc hstep
  · exact ⟨_, _, _, hc⟩

/-- The receiver takes a datagram in: it either hands nothing over or writes the next piece. -/
theorem ReceiverFile.recv (h : ReceiverFile content len m e) (hlen : len ≤ content.length)
    (hrecv : (machine idleApp).recv e o d = some p) :
    (handedData p.1.log = handedData e.log ∧ ReceiverFile content len m p.1) ∨
      (handedData p.1.log = handedData e.log ++ [d.pkt.data] ∧
        (d.pkt.data = chunk content m → ReceiverFile content len (m + 1) p.1)) := by
  have hstep : (machine idleApp).step e (.recv o d) = some p := hrecv
  have hctl := h.ctl
  rcases h.cases with hc | ⟨left, written, hc⟩ | ⟨left, recvLen, fleft, written, hc⟩
  · obtain ⟨_, _, ⟨⟩, -⟩ := step_of_idle hc hstep
  · obtain ⟨_, ⟨⟩, -⟩ := step_of_recvFile hc hstep
  · rw [hc] at hctl
    obtain ⟨hw, -, rfl, hr⟩ := hctl
    rcases step_of_sockRecvfrom hc hstep with ⟨_, ⟨⟩, -⟩ | ⟨⟨⟩, -⟩ | ⟨_, _, ⟨⟩, rfl⟩
    obtain ⟨hpos, -, hmax, -⟩ := recvLen_bounds hw.left_pos hr
    -- a datagram that is refused, or that is no data, leaves the call waiting
    have hloop : ∀ e₁ : Endpoint Unit, e₁.recvLoop idleApp left [] (.recvFile left fleft written) =
        { e₁ with ctl := .sockRecvfrom left [] (.recvFile left fleft written) } := by
      intro e₁
      rw [Endpoint.recvLoop, if_pos hpos]
    unfold Endpoint.recvInData
    split
    · left
      rw [hloop]
      exact ⟨rfl, ⟨hw, rfl, rfl, hr⟩⟩
    · dsimp only
      split
      · right
        -- one payload is all that the call asked for
        have hdone : ¬ 0 < left - bufferLength := by omega
        rw [Endpoint.recvLoop, if_neg hdone]
        refine ⟨?_, ?_⟩
        · dsimp only
          split_ifs <;> simp
        · intro hdata
          refine ⟨?_⟩
          have hpiece := (hw.piece hlen).2
          rw [← hr, ← hdata] at hpiece
          exact hpiece
      · left
        rw [hloop]
        refine ⟨?_, ⟨hw, rfl, rfl, hr⟩⟩
        dsimp only
        split_ifs <;> simp

end

end Sample3
end FileTransfer
