import FileTransfer.Sample3.Fragments
import FileTransfer.Sample3.PendingPackets

/-!
# The announced length of an upload

`SockServer::recv_data` subtracts the size of the request record from the announced length on 32 unsigned
bits, and passes the result to `recv_file` as an `int`.  `stores_announced_iff` says for which headers a
PUT that is answered with `MSGTYPE_RESP_OK` has stored what was announced, against an arbitrary network.
-/

namespace FileTransfer
namespace Sample3

/-! ## The length passed to `recv_file` -/

theorem toInt_eq (x : UInt32) :
    toInt x = if x.toNat < 2 ^ 31 then (x.toNat : Int) else x.toNat - 2 ^ 32 := by
  have hbits : toInt x = x.toBitVec.toInt := rfl
  have hnat : x.toBitVec.toNat = x.toNat := rfl
  rw [hbits, BitVec.toInt_eq_toNat_cond, hnat]
  split <;> split <;> omega

/-- `header.len - sizeof(MSGREQUEST)` is the announced length in this range, and negative outside. -/
theorem toInt_sub_header (len : UInt32) :
    (64 ≤ len.toNat ∧ len.toNat < 2 ^ 31 + 64 ∧ toInt (len - 64) = len.toNat - 64) ∨
      ((len.toNat < 64 ∨ 2 ^ 31 + 64 ≤ len.toNat) ∧ toInt (len - 64) < 0) := by
  have hlt : len.toNat < 2 ^ 32 := len.toNat_lt
  have hsub : (len - 64).toNat = (2 ^ 32 - 64 + len.toNat) % 2 ^ 32 := UInt32.toNat_sub len 64
  rw [toInt_eq, hsub]
  split <;> omega

/-! ## What `recv_data` has done -/

/-- The target file is open for writing. -/
def Control.Writes : Control → Prop
  | .recvFile _ _ => True
  | .sockRecvfrom _ _ (.recvFile _ _ _) => True
  | _ => False

/-- `recv_data` has read this request record. -/
def RecordRead (record : List Byte) (log : List Event) : Prop :=
  record.length = sizeofMsgRequest.toNat ∧ Event.returned (.received 0 record) ∈ log

/-- `recv_data` has read the request record. -/
def RequestRead (log : List Event) : Prop := ∃ record, RecordRead record log

/-- The target file has been written and closed, with `n` bytes. -/
def Stored (n : Int) (log : List Event) : Prop :=
  ∃ written, Event.returned (.file 0 written) ∈ log ∧ (written.length : Int) = n

/-- The result of `recv_data`, once it has returned. -/
def recvDataResult (e : Endpoint Program) : Option Byte :=
  match e.app with
  | .server s =>
      match s.pc with
      | .respond _ _ resp => some resp
      | _ => none
  | _ => none

/-- `recv_data` runs. -/
def InRecvData (t : Solo (Endpoint Program) Datagram) (_ : SoloEvent Act Oracle Datagram) : Prop :=
  recvDataResult t.node = none

/-- A call of `client_handler` has received these bytes as the header of the request. -/
def recvDataStart (lib : SockLib) (s : Server) (h : Handle) (bytes : List Byte) :
    Solo (Endpoint Program) Datagram where
  node :=
    { lib := lib
      ctl := .idle
      app := .server (({ s with pc := .header h } : Server).resume (.received 0 bytes))
      log := [] }
  sent := []

/-- `header.len` after `ntohl`. -/
def announced (bytes : List Byte) : UInt32 := htonl (headerLen bytes)

/-- Whatever arrives after the header of a PUT: if `recv_data` returns `MSGTYPE_RESP_OK`, the length
covers the request record, the record was read, and the file holds the rest of the length; and with a
shorter length no file is opened for writing. -/
def StoresAnnounced (lib : SockLib) (s : Server) (h : Handle) (bytes : List Byte) : Prop :=
  headerType bytes = msgTypeReqPut →
    ∀ es t, Run (soloStep (machine ftpApp)) InRecvData (recvDataStart lib s h bytes) es t →
      (recvDataResult t.node = some msgTypeRespOk → 64 ≤ (announced bytes).toNat ∧
        RequestRead t.node.log ∧ Stored ((announced bytes).toNat - 64) t.node.log) ∧
      ((announced bytes).toNat < 64 → ¬ t.node.ctl.Writes)

/-! ## The invariant of the upload -/

/-- `recv_file` of `n` bytes stands here; a negative `n` counts as `0`. -/
def WritingPart (n : Int) : Control → Prop
  | .recvFile left written => (written.length : Int) + max left 0 = max n 0
  | .sockRecvfrom left got (.recvFile recvLen fleft written) =>
      got = [] ∧ left = recvLen ∧ 0 < recvLen ∧ recvLen ≤ bufferLength ∧ recvLen ≤ fleft ∧
        (written.length : Int) + fleft = max n 0
  | _ => False

/-- The length asks for a record, and one whose name can be opened has been read. -/
def OpenedRead (h : Handle) (len : UInt32) (log : List Event) : Prop :=
  ∃ record, h.opens record = true ∧ 0 < len ∧ RecordRead record log

/-- What has happened when `recv_data` of a PUT stands at `pc`. -/
def UploadPart (h : Handle) (len : UInt32) (ctl : Control) (log : List Event) : ServerPc → Prop
  | .request h' type l => h' = h ∧ type = msgTypeReqPut ∧ l = len ∧ 0 < len ∧
      (ctl = .idle ∨ ctl = .sockRecvfrom sizeofMsgRequest [] .program)
  | .recvFile h' record n => h' = h ∧ n = toInt (len - 64) ∧
      (h.opens record = true → 0 < len ∧ RecordRead record log) ∧
      (ctl = .idle ∨ h.opens record = true ∧ WritingPart n ctl)
  | .linger _ => OpenedRead h len log ∧
      Stored (max (toInt (len - 64)) 0) log ∧ (ctl = .idle ∨ ∃ sec, ctl = .srvWait4cnn sec)
  | .respond _ _ resp => ctl = .idle ∧ (resp = msgTypeRespOk → OpenedRead h len log ∧
      Stored (max (toInt (len - 64)) 0) log)
  | _ => False

/-- Every file in the history has the announced length. -/
def FilesOk (len : UInt32) (log : List Event) : Prop :=
  ∀ written, Event.returned (.file 0 written) ∈ log →
    (written.length : Int) = max (toInt (len - 64)) 0

/-- The invariant of the runs of `recv_data`. -/
structure UploadInv (h : Handle) (len : UInt32) (e : Endpoint Program) : Prop where
  part : ∃ s, e.app = .server s ∧ UploadPart h len e.ctl e.log s.pc
  files : FilesOk len e.log

section

variable {π : Type*} {A : App π} {o : Oracle}

/-- `sock_recvfrom` takes a datagram in: the program has not gone on, and either nothing was taken, or the
bytes of one packet. -/
theorem recvInData_shape (e : Endpoint π) (left : Int) (got : List Byte) (k : RecvCaller)
    (d : Datagram) :
    ∃ e₁ : Endpoint π, e₁.app = e.app ∧
      (∃ evs, e₁.log = e.log ++ evs ∧ ∀ r, Event.returned r ∉ evs) ∧
      ((e.recvInData A o left got k d).1 = e₁.recvLoop A left got k ∨
        ∃ piece : List Byte, piece.length = (min left bufferLength).toNat ∧
          (e.recvInData A o left got k d).1 =
            e₁.recvLoop A (left - bufferLength) (got ++ piece) k) := by
  have hsynced : ∀ r, Event.returned r ∉ if e.lib.lastSeq = -1 then [Event.synced d] else [] := by
    intro r
    split <;> simp
  rcases recvInData_cases (A := A) (o := o) e left got k d with
    ⟨-, hp⟩ | ⟨-, -, hp⟩ | ⟨-, -, out, hp, -⟩
  · exact ⟨e, rfl, ⟨[], by simp⟩, Or.inl (by rw [hp])⟩
  · refine ⟨{ e with
      lib := { e.lib.syncLastSeq d.pkt with lastSeq := UInt32.ofNat d.pkt.seq.val }
      log := e.log ++ (if e.lib.lastSeq = -1 then [Event.synced d] else []) ++
        [.acked d, .handed d] }, rfl, ⟨_, List.append_assoc _ _ _, ?_⟩,
      Or.inr ⟨d.pkt.data.bytes.take (min left bufferLength).toNat, ?_, by rw [hp]⟩⟩
    · intro r
      simp
    · rw [List.length_take, d.pkt.data.length_eq]
      omega
  · exact ⟨{ e with
      lib := e.lib.syncLastSeq d.pkt
      log := e.log ++ if e.lib.lastSeq = -1 then [Event.synced d] else [] }, rfl, ⟨_, rfl, hsynced⟩,
      Or.inl (by rw [hp])⟩

end

section

variable {h h' : Handle} {len : UInt32} {n : Int} {e : Endpoint Program} {s : Server} {type : Byte}
  {p : Endpoint Program × List Datagram} {ev : SoloEvent Act Oracle Datagram} {o : Oracle}
  {log evs : List Event} {record : List Byte}

theorem RecordRead.append (hr : RecordRead record log) (evs : List Event) :
    RecordRead record (log ++ evs) :=
  ⟨hr.1, List.mem_append_left _ hr.2⟩

theorem OpenedRead.append (hr : OpenedRead h len log) (evs : List Event) : OpenedRead h len (log ++ evs) := by
  obtain ⟨record, hopen, hpos, hread⟩ := hr
  exact ⟨record, hopen, hpos, hread.append evs⟩

theorem Stored.append (hs : Stored n log) (evs : List Event) : Stored n (log ++ evs) := by
  obtain ⟨written, hmem, hlen⟩ := hs
  exact ⟨written, List.mem_append_left _ hmem, hlen⟩

theorem FilesOk.append (hf : FilesOk len log) (hevs : ∀ r, Event.returned r ∉ evs) :
    FilesOk len (log ++ evs) := by
  intro written hmem
  rcases List.mem_append.1 hmem with hmem | hmem
  · exact hf written hmem
  · exact absurd hmem (hevs _)

theorem FilesOk.returned (hf : FilesOk len log) {r : Ret}
    (hr : ∀ written, r = .file 0 written → (written.length : Int) = max (toInt (len - 64)) 0) :
    FilesOk len (log ++ [.returned r]) := by
  intro written hmem
  rcases List.mem_append.1 hmem with hmem | hmem
  · exact hf written hmem
  · simp only [List.mem_singleton, Event.returned.injEq] at hmem
    exact hr written hmem.symm

theorem finish_server (happ : e.app = .server s) {r : Ret} :
    (e.finish ftpApp r).app = .server (s.resume r) := by
  simp [Endpoint.finish, ftpApp, happ]

/-! ### The request record -/

/-- `sock_recvfrom` of the request record waits on. -/
theorem upload_recvLoop_request (happ : e.app = .server s)
    (hpc : s.pc = .request h msgTypeReqPut len) (hpos : 0 < len) (hf : FilesOk len e.log) :
    UploadInv h len (e.recvLoop ftpApp sizeofMsgRequest [] .program) := by
  rw [recvLoop_pos (by decide)]
  refine ⟨⟨s, happ, ?_⟩, hf⟩
  rw [hpc]
  exact ⟨rfl, rfl, rfl, hpos, Or.inr rfl⟩

/-- `sock_recvfrom` returns the request record, and `recv_file` is next. -/
theorem upload_record (happ : e.app = .server s) (hpc : s.pc = .request h msgTypeReqPut len)
    (hpos : 0 < len) (hf : FilesOk len e.log) (hlen : record.length = sizeofMsgRequest.toNat) :
    UploadInv h len (e.finish ftpApp (.received 0 record)) := by
  have hres : s.resume (.received 0 record) =
      { s with pc := .recvFile h record (toInt (len - 64)) } := by
    simp [Server.resume, hpc, Server.receiveFile]
  refine ⟨⟨{ s with pc := .recvFile h record (toInt (len - 64)) }, ?_, ?_⟩, hf.returned (by simp)⟩
  · rw [← hres]
    exact finish_server happ
  · exact ⟨rfl, rfl, fun _ => ⟨hpos, hlen, by simp [Endpoint.finish]⟩, Or.inl rfl⟩

/-- `recv_data` returns an error. -/
theorem upload_refused (h' : Handle) (type resp : Byte) (happ : e.app = .server s)
    (hf : FilesOk len e.log) {r : Ret} (hres : s.resume r = { s with pc := .respond h' type resp })
    (hresp : resp ≠ msgTypeRespOk)
    (hr : ∀ written, r ≠ .file 0 written) : UploadInv h len (e.finish ftpApp r) := by
  refine ⟨⟨{ s with pc := .respond h' type resp }, ?_, ?_⟩,
    hf.returned fun written h => absurd h (hr written)⟩
  · rw [← hres]
    exact finish_server happ
  · exact ⟨rfl, fun h => absurd h hresp⟩

theorem upload_step_request (happ : e.app = .server s)
    (hpc : s.pc = .request h msgTypeReqPut len) (hpos : 0 < len) (hf : FilesOk len e.log)
    (hctl : e.ctl = .idle ∨ e.ctl = .sockRecvfrom sizeofMsgRequest [] .program)
    (hstep : (machine ftpApp).step e ev = some p) : UploadInv h len p.1 := by
  rcases hctl with hctl | hctl
  · obtain ⟨o, c, -, hcall, rfl⟩ := step_of_idle hctl hstep
    simp only [ftpApp, happ, Server.call, hpc, Option.some.injEq] at hcall
    subst hcall
    refine ⟨⟨s, happ, ?_⟩, hf⟩
    rw [hpc]
    exact ⟨rfl, rfl, rfl, hpos, Or.inr rfl⟩
  · rcases step_of_sockRecvfrom hctl hstep with ⟨o, -, rfl⟩ | ⟨-, rfl⟩ | ⟨o, d, -, rfl⟩
    · exact upload_recvLoop_request happ hpc hpos hf
    · refine upload_refused h msgTypeReqPut msgTypeRespFailToGetInfo happ hf ?_ (by decide) (by simp)
      simp [Server.resume, hpc]
    · obtain ⟨e₁, happ₁, ⟨evs, hlog, hevs⟩, hp | ⟨piece, hpiece, hp⟩⟩ :=
        recvInData_shape (A := ftpApp) (o := o) e sizeofMsgRequest [] .program d
      · rw [hp]
        exact upload_recvLoop_request (happ₁.trans happ) hpc hpos (hlog ▸ hf.append hevs)
      · -- one packet is enough for the record
        rw [hp, Endpoint.recvLoop, if_neg (by decide), List.nil_append]
        exact upload_record (happ₁.trans happ) hpc hpos (hlog ▸ hf.append hevs) hpiece

/-! ### The file -/

/-- `recv_file` returns `0`, and `srv_wait4cnn` is next. -/
theorem upload_stored (happ : e.app = .server s) (hpc : s.pc = .recvFile h record n)
    (hn : n = toInt (len - 64)) (hopen : h.opens record = true) (hread : 0 < len ∧ RecordRead record e.log)
    (hf : FilesOk len e.log) {written : List Byte} (hlen : (written.length : Int) = max n 0) :
    UploadInv h len (e.finish ftpApp (.file 0 written)) := by
  have hres : s.resume (.file 0 written) = { s with pc := .linger h } := by
    simp [Server.resume, hpc]
  refine ⟨⟨{ s with pc := .linger h }, ?_, ?_⟩, hf.returned ?_⟩
  · rw [← hres]
    exact finish_server happ
  · refine ⟨⟨record, hopen, hread.1, hread.2.append _⟩, ?_, Or.inl rfl⟩
    exact ⟨written, by simp [Endpoint.finish], by rw [hlen, hn]⟩
  · intro w hw
    cases hw
    rw [hlen, hn]

/-- `recv_file` fails. -/
theorem upload_failed (happ : e.app = .server s) (hpc : s.pc = .recvFile h record n)
    (hf : FilesOk len e.log) (written : List Byte) :
    UploadInv h len (e.finish ftpApp (.file (-1) written)) := by
  refine upload_refused h msgTypeReqPut msgTypeRespFailToRecvFile happ hf ?_ (by decide) (by simp)
  simp [Server.resume, hpc]

/-- `recv_file` stands at one of its loop heads or waits. -/
theorem upload_writing (happ : e.app = .server s) (hpc : s.pc = .recvFile h record n)
    (hn : n = toInt (len - 64)) (hopen : h.opens record = true) (hread : 0 < len ∧ RecordRead record e.log)
    (hf : FilesOk len e.log) (hwrite : WritingPart n e.ctl) : UploadInv h len e := by
  refine ⟨⟨s, happ, ?_⟩, hf⟩
  rw [hpc]
  exact ⟨rfl, hn, fun _ => hread, Or.inr ⟨hopen, hwrite⟩⟩

/-- `recv_file` waits for the next piece of the file; any packet that is taken in completes it. -/
theorem upload_step_piece (happ : e.app = .server s) (hpc : s.pc = .recvFile h record n)
    (hn : n = toInt (len - 64)) (hopen : h.opens record = true) (hread : 0 < len ∧ RecordRead record e.log)
    (hf : FilesOk len e.log) {left : Int} {got : List Byte} {k : RecvCaller}
    (hc : e.ctl = .sockRecvfrom left got k) (hwrite : WritingPart n (.sockRecvfrom left got k))
    (hstep : (machine ftpApp).step e ev = some p) : UploadInv h len p.1 := by
  cases k with
  | program => cases hwrite
  | recvFile recvLen fleft written =>
      obtain ⟨rfl, rfl, hpos, hle, hfleft, hlen⟩ := hwrite
      -- a pass of the loop without data
      have hagain : ∀ e₁ : Endpoint Program, e₁.app = .server s →
          RecordRead record e₁.log → FilesOk len e₁.log →
          UploadInv h len (e₁.recvLoop ftpApp left [] (.recvFile left fleft written)) := by
        intro e₁ happ₁ hread₁ hf₁
        rw [recvLoop_pos hpos]
        exact upload_writing happ₁ hpc hn hopen ⟨hread.1, hread₁⟩ hf₁
          ⟨rfl, rfl, hpos, hle, hfleft, hlen⟩
      rcases step_of_sockRecvfrom hc hstep with ⟨o, -, rfl⟩ | ⟨-, rfl⟩ | ⟨o, d, -, rfl⟩
      · exact hagain e happ hread.2 hf
      · exact upload_failed happ hpc hf written
      · obtain ⟨e₁, happ₁, ⟨evs, hlog, hevs⟩, hp | ⟨piece, hpiece, hp⟩⟩ :=
          recvInData_shape (A := ftpApp) (o := o) e left [] (.recvFile left fleft written) d
        · rw [hp]
          exact hagain e₁ (happ₁.trans happ) (hlog ▸ hread.2.append evs)
            (hlog ▸ hf.append hevs)
        · -- one packet is enough for the piece
          have hdone : ¬ 0 < left - bufferLength := by omega
          rw [hp, List.nil_append]
          unfold Endpoint.recvLoop
          rw [if_neg hdone]
          refine upload_writing (happ₁.trans happ) hpc hn hopen
            ⟨hread.1, hlog ▸ hread.2.append evs⟩ (hlog ▸ hf.append hevs) ?_
          change ((written ++ piece).length : Int) + max (fleft - left) 0 = max n 0
          rw [List.length_append, hpiece]
          omega

theorem upload_step_recvFile (happ : e.app = .server s) (hpc : s.pc = .recvFile h record n)
    (hn : n = toInt (len - 64)) (hread : h.opens record = true → 0 < len ∧ RecordRead record e.log)
    (hf : FilesOk len e.log) (hctl : e.ctl = .idle ∨ h.opens record = true ∧ WritingPart n e.ctl)
    (hstep : (machine ftpApp).step e ev = some p) : UploadInv h len p.1 := by
  rcases hctl with hctl | ⟨hopen, hwrite⟩
  · -- `fopen` decides
    obtain ⟨o, c, -, hcall, rfl⟩ := step_of_idle hctl hstep
    simp only [ftpApp, happ, Server.call, hpc, Option.some.injEq] at hcall
    subst hcall
    simp only [Endpoint.begin]
    split
    · rename_i hopen
      refine upload_writing happ hpc hn hopen (hread hopen) hf ?_
      simp [WritingPart]
    · exact upload_failed happ hpc hf []
  · cases hc : e.ctl <;> rw [hc] at hwrite
    case recvFile left written =>
        have hlen : (written.length : Int) + max left 0 = max n 0 := hwrite
        obtain ⟨o, -, rfl⟩ := step_of_recvFile hc hstep
        unfold Endpoint.recvPiece
        split
        · rename_i hpos
          refine upload_writing happ hpc hn hopen (hread hopen) hf ?_
          have hb := recvLen_bounds hpos rfl
          exact ⟨rfl, rfl, by omega, by omega, by omega, by omega⟩
        · exact upload_stored happ hpc hn hopen (hread hopen) hf (by omega)
    case sockRecvfrom left got k =>
        exact upload_step_piece happ hpc hn hopen (hread hopen) hf hc hwrite hstep
    all_goals cases hwrite

/-! ### The last acknowledgement -/

theorem upload_waiting (happ : e.app = .server s) (hpc : s.pc = .linger h')
    (hopened : OpenedRead h len e.log) (hstored : Stored (max (toInt (len - 64)) 0) e.log)
    (hf : FilesOk len e.log) (sec : Int) :
    UploadInv h len { e with ctl := .srvWait4cnn sec } := by
  refine ⟨⟨s, happ, ?_⟩, hf⟩
  rw [hpc]
  exact ⟨hopened, hstored, Or.inr ⟨sec, rfl⟩⟩

/-- Whatever `srv_wait4cnn` returns, the result is `MSGTYPE_RESP_OK`. -/
theorem upload_done (happ : e.app = .server s) (hpc : s.pc = .linger h')
    (hopened : OpenedRead h len e.log) (hstored : Stored (max (toInt (len - 64)) 0) e.log)
    (hf : FilesOk len e.log) (r : Int) :
    UploadInv h len (e.finish ftpApp (.code r)) := by
  have hres : s.resume (.code r) = { s with pc := .respond h' msgTypeReqPut msgTypeRespOk } := by
    simp [Server.resume, hpc]
  refine ⟨⟨{ s with pc := .respond h' msgTypeReqPut msgTypeRespOk }, ?_, ?_⟩, hf.returned (by simp)⟩
  · rw [← hres]
    exact finish_server happ
  · exact ⟨rfl, fun _ => ⟨hopened.append _, hstored.append _⟩⟩

theorem upload_lingerLoop (happ : e.app = .server s) (hpc : s.pc = .linger h')
    (hopened : OpenedRead h len e.log) (hstored : Stored (max (toInt (len - 64)) 0) e.log)
    (hf : FilesOk len e.log) (sec : Int) :
    UploadInv h len (e.lingerLoop ftpApp sec) := by
  unfold Endpoint.lingerLoop
  split
  · exact upload_waiting happ hpc hopened hstored hf _
  · exact upload_done happ hpc hopened hstored hf _

theorem upload_step_linger (happ : e.app = .server s) (hpc : s.pc = .linger h')
    (hopened : OpenedRead h len e.log) (hstored : Stored (max (toInt (len - 64)) 0) e.log)
    (hf : FilesOk len e.log)
    (hctl : e.ctl = .idle ∨ ∃ sec, e.ctl = .srvWait4cnn sec)
    (hstep : (machine ftpApp).step e ev = some p) : UploadInv h len p.1 := by
  rcases hctl with hctl | ⟨sec, hctl⟩
  · obtain ⟨o, c, -, hcall, rfl⟩ := step_of_idle hctl hstep
    simp only [ftpApp, happ, Server.call, hpc, Option.some.injEq] at hcall
    subst hcall
    exact upload_waiting happ hpc hopened hstored hf 25
  · rcases step_of_srvWait4cnn hctl hstep with ⟨o, -, rfl⟩ | ⟨-, rfl⟩ | ⟨o, d, -, rfl⟩
    · exact upload_lingerLoop happ hpc hopened hstored hf sec
    · exact upload_done happ hpc hopened hstored hf _
    · exact upload_lingerLoop (e := { e with log := e.log ++ [.acked d] }) happ hpc
        (hopened.append _) (hstored.append _) (hf.append (by simp)) sec

theorem UploadInv.step (hinv : UploadInv h len e) (hrunning : recvDataResult e = none)
    (hstep : (machine ftpApp).step e ev = some p) : UploadInv h len p.1 := by
  obtain ⟨⟨s, happ, hpart⟩, hf⟩ := hinv
  cases hpc : s.pc <;> rw [hpc] at hpart
  case request h' type l =>
    obtain ⟨rfl, rfl, rfl, hpos, hctl⟩ := hpart
    exact upload_step_request happ hpc hpos hf hctl hstep
  case recvFile h' record n =>
    obtain ⟨rfl, hn, hread, hctl⟩ := hpart
    exact upload_step_recvFile happ hpc hn hread hf hctl hstep
  case linger h' =>
    obtain ⟨hopened, hstored, hctl⟩ := hpart
    exact upload_step_linger happ hpc hopened hstored hf hctl hstep
  case respond h' type resp => simp [recvDataResult, happ, hpc] at hrunning
  all_goals cases hpart

end

/-! ## The runs of `recv_data` -/

section

variable {lib : SockLib} {s : Server} {h : Handle} {bytes : List Byte}
  {t u : Solo (Endpoint Program) Datagram} {es : List (SoloEvent Act Oracle Datagram)}
  {record : List Byte}

theorem pos_iff_toNat (len : UInt32) : 0 < len ↔ 0 < len.toNat := Iff.rfl

/-- Without a record the path is the directory. -/
theorem opens_memset (h : Handle) :
    h.opens (List.replicate sizeofMsgRequest.toNat 0) = false := by
  have hname : recordFilename (List.replicate sizeofMsgRequest.toNat 0) = [] := by decide
  simp [Handle.opens, hname]

/-- After the header of a PUT the request record is next, and without a length the file. -/
theorem resume_put (hput : headerType bytes = msgTypeReqPut) :
    ({ s with pc := .header h } : Server).resume (.received 0 bytes) =
      { s with pc := if 0 < announced bytes then .request h msgTypeReqPut (announced bytes)
        else .recvFile h (List.replicate sizeofMsgRequest.toNat 0) (toInt (announced bytes - 64)) } := by
  have hget : msgTypeReqPut ≠ msgTypeReqGet := by decide
  unfold announced
  simp only [Server.resume, hput, hget, false_and, if_false, ne_eq, not_true_eq_false, or_true, if_true,
    Server.receiveFile]
  split <;> rfl

theorem uploadInv_start (hput : headerType bytes = msgTypeReqPut) :
    UploadInv h (announced bytes) (recvDataStart lib s h bytes).node := by
  refine ⟨⟨_, rfl, ?_⟩, by simp [FilesOk, recvDataStart]⟩
  rw [resume_put hput]
  split
  · rename_i hpos
    exact ⟨rfl, rfl, rfl, hpos, Or.inl rfl⟩
  · exact ⟨rfl, rfl, fun hopen => by simp [opens_memset] at hopen, Or.inl rfl⟩

theorem UploadInv.of_run (hput : headerType bytes = msgTypeReqPut)
    (hrun : Run (soloStep (machine ftpApp)) InRecvData (recvDataStart lib s h bytes) es t) :
    UploadInv h (announced bytes) t.node :=
  hrun.solo_invariant (fun _ _ _ hinv hrunning hst => hinv.step hrunning hst) (uploadInv_start hput)

/-- A state whose `recv_data` returns `MSGTYPE_RESP_OK` has stored the length as a signed number. -/
theorem UploadInv.result {len : UInt32} {e : Endpoint Program} (hinv : UploadInv h len e)
    (hok : recvDataResult e = some msgTypeRespOk) :
    OpenedRead h len e.log ∧ Stored (max (toInt (len - 64)) 0) e.log := by
  obtain ⟨⟨s, happ, hpart⟩, -⟩ := hinv
  cases hpc : s.pc <;> simp [recvDataResult, happ, hpc] at hok
  subst hok
  rw [hpc] at hpart
  exact hpart.2 rfl

/-- A state that writes has opened the file. -/
theorem UploadInv.writes {len : UInt32} {e : Endpoint Program} (hinv : UploadInv h len e)
    (hwrites : e.ctl.Writes) : OpenedRead h len e.log := by
  obtain ⟨⟨s, -, hpart⟩, -⟩ := hinv
  cases hpc : s.pc <;> rw [hpc] at hpart
  case request h' type l =>
    obtain ⟨-, -, -, -, hctl | hctl⟩ := hpart <;> rw [hctl] at hwrites <;> cases hwrites
  case recvFile h' record n =>
    obtain ⟨-, -, hread, hctl | ⟨hopen, -⟩⟩ := hpart
    · rw [hctl] at hwrites
      cases hwrites
    · exact ⟨record, hopen, hread hopen⟩
  case linger h' => exact hpart.1
  case respond h' type resp =>
    rw [hpart.1] at hwrites
    cases hwrites
  all_goals cases hpart

/-- One more step of `recv_data`. -/
theorem recvData_snoc (hrun : Run (soloStep (machine ftpApp)) InRecvData
      (recvDataStart lib s h bytes) es t) (hrunning : recvDataResult t.node = none)
    (ev : SoloEvent Act Oracle Datagram) (p : Endpoint Program × List Datagram)
    (hst : (machine ftpApp).step t.node ev = some p) :
    ∃ es' u, Run (soloStep (machine ftpApp)) InRecvData (recvDataStart lib s h bytes) es' u ∧
      u.node = p.1 :=
  ⟨es ++ [ev], _, .snoc hrun hrunning (soloStep_eq_some.2 ⟨p, hst, rfl⟩), rfl⟩

/-- `recv_data` of a PUT gets to `recv_file`: this request record comes in one packet. -/
theorem reaches_recvFile (lib : SockLib) (s : Server) (h : Handle)
    (hput : headerType bytes = msgTypeReqPut) (hpos : 0 < announced bytes)
    (hlen : record.length = sizeofMsgRequest.toNat) :
    ∃ es t, Run (soloStep (machine ftpApp)) InRecvData (recvDataStart lib s h bytes) es t ∧
      t.node.ctl = .idle ∧
      t.node.app = .server { s with pc := .recvFile h record (toInt (announced bytes - 64)) } := by
  have happ : (recvDataStart lib s h bytes).node.app =
      .server { s with pc := .request h msgTypeReqPut (announced bytes) } := by
    rw [recvDataStart, resume_put hput, if_pos hpos]
  have hctl : (recvDataStart lib s h bytes).node.ctl = .idle := rfl
  have hstart : Run (soloStep (machine ftpApp)) InRecvData (recvDataStart lib s h bytes) []
      (recvDataStart lib s h bytes) := .nil
  obtain ⟨es₁, t₁, hrun₁, ht₁⟩ := recvData_snoc hstart (by simp [recvDataResult, happ])
    (.act (.run .reliable)) ({ (recvDataStart lib s h bytes).node with
      ctl := .sockRecvfrom sizeofMsgRequest [] .program }, [])
    (by simp [Machine.step, machine, Endpoint.run, Endpoint.nextCall, hctl, ftpApp, happ, Server.call,
      Endpoint.begin])
  have hctl₁ : t₁.node.ctl = .sockRecvfrom sizeofMsgRequest [] .program := by rw [ht₁]
  have happ₁ : t₁.node.app = .server { s with pc := .request h msgTypeReqPut (announced bytes) } := by
    rw [ht₁]
    exact happ
  have hexp : t₁.node.lib.Expects (t₁.node.lib.lastSeq + 1) := Or.inr rfl
  -- the record is shorter than a packet
  obtain ⟨e₂, happ₂, -, hstep⟩ := recvInData_expected (A := ftpApp) sizeofMsgRequest []
    ⟨seqField (t₁.node.lib.lastSeq + 1), .request, .ofBytes record⟩ hexp rfl rfl .window
  have hdone : ¬ 0 < (sizeofMsgRequest : Int) - bufferLength := by decide
  have hbytes : (Payload.ofBytes record).bytes.take (min sizeofMsgRequest bufferLength).toNat = record := by
    have hmin : (min sizeofMsgRequest bufferLength).toNat = record.length := hlen.symm ▸ rfl
    rw [hmin, Payload.take_ofBytes le_rfl (hlen ▸ by decide), List.take_length]
  obtain ⟨es₂, t₂, hrun₂, ht₂⟩ := recvData_snoc hrun₁ (by simp [recvDataResult, happ₁])
    (.recv .reliable ⟨⟨seqField (t₁.node.lib.lastSeq + 1), .request, .ofBytes record⟩, .window⟩) _
    (by
      simp only [Machine.step, machine, Endpoint.packet, hctl₁]
      rfl)
  refine ⟨es₂, t₂, hrun₂, ?_, ?_⟩ <;> rw [ht₂, hstep, Endpoint.recvLoop, if_neg hdone]
  · rfl
  · rw [finish_server (happ₂.trans happ₁), hbytes]
    simp [Server.resume, Server.receiveFile]

/-- `fopen` succeeds. -/
theorem reaches_writes (lib : SockLib) (s : Server) (hput : headerType bytes = msgTypeReqPut)
    (hpos : 0 < announced bytes) (hlen : record.length = sizeofMsgRequest.toNat)
    (hopen : h.opens record = true) :
    ∃ es t, Run (soloStep (machine ftpApp)) InRecvData (recvDataStart lib s h bytes) es t ∧
      t.node.ctl = .recvFile (toInt (announced bytes - 64)) [] ∧
      t.node.app = .server { s with pc := .recvFile h record (toInt (announced bytes - 64)) } := by
  obtain ⟨es, t, hrun, hctl, happ⟩ := reaches_recvFile lib s h hput hpos hlen
  obtain ⟨es', t', hrun', ht'⟩ := recvData_snoc hrun (by simp [recvDataResult, happ])
    (.act (.run .reliable))
    ({ t.node with ctl := .recvFile (toInt (announced bytes - 64)) [] }, [])
    (by simp [Machine.step, machine, Endpoint.run, Endpoint.nextCall, hctl, ftpApp, happ, Server.call,
      Endpoint.begin, hopen])
  exact ⟨es', t', hrun', by rw [ht'], by rw [ht']; exact happ⟩

/-- A negative length is an empty file, and the result is `MSGTYPE_RESP_OK`. -/
theorem reaches_ok (lib : SockLib) (s : Server) (hput : headerType bytes = msgTypeReqPut)
    (hpos : 0 < announced bytes) (hlen : record.length = sizeofMsgRequest.toNat)
    (hopen : h.opens record = true) (hneg : toInt (announced bytes - 64) < 0) :
    ∃ es t, Run (soloStep (machine ftpApp)) InRecvData (recvDataStart lib s h bytes) es t ∧
      recvDataResult t.node = some msgTypeRespOk := by
  obtain ⟨es, t, hrun, hctl, happ⟩ := reaches_writes lib s hput hpos hlen hopen
  -- the loop does not run
  obtain ⟨es₁, t₁, hrun₁, ht₁⟩ := recvData_snoc hrun (by simp [recvDataResult, happ])
    (.act (.run .reliable)) (t.node.finish ftpApp (.file 0 []), [])
    (by
      have hstop : ¬ 0 < toInt (announced bytes - 64) := by omega
      simp [Machine.step, machine, Endpoint.run, hctl, Endpoint.recvPiece, hstop])
  have happ₁ : t₁.node.app = .server { s with pc := .linger h } := by
    rw [ht₁, finish_server happ]
    simp [Server.resume]
  have hctl₁ : t₁.node.ctl = .idle := by
    rw [ht₁]
    rfl
  obtain ⟨es₂, t₂, hrun₂, ht₂⟩ := recvData_snoc hrun₁ (by simp [recvDataResult, happ₁])
    (.act (.run .reliable)) ({ t₁.node with ctl := .srvWait4cnn 25 }, [])
    (by simp [Machine.step, machine, Endpoint.run, Endpoint.nextCall, hctl₁, ftpApp, happ₁, Server.call,
      Endpoint.begin])
  have happ₂ : t₂.node.app = .server { s with pc := .linger h } := by
    rw [ht₂]
    exact happ₁
  have hctl₂ : t₂.node.ctl = .srvWait4cnn 25 := by rw [ht₂]
  -- the result of `srv_wait4cnn` is not looked at
  obtain ⟨es₃, t₃, hrun₃, ht₃⟩ := recvData_snoc hrun₂ (by simp [recvDataResult, happ₂])
    (.act .error) (t₂.node.finish ftpApp (.code (-1)), [])
    (by simp [Machine.step, machine, Endpoint.error, hctl₂])
  refine ⟨es₃, t₃, hrun₃, ?_⟩
  rw [ht₃, recvDataResult, finish_server happ₂]
  simp [Server.resume]

/-- A PUT that is answered with `MSGTYPE_RESP_OK` has stored what was announced, whatever arrives, exactly
when the length covers the request record and the file is shorter than 2 GiB, or nothing is opened: no record
names a file that can be, or the length is `0` and the path is the directory. -/
theorem stores_announced_iff (lib : SockLib) (s : Server) (h : Handle) (bytes : List Byte) :
    StoresAnnounced lib s h bytes ↔ headerType bytes ≠ msgTypeReqPut ∨
      (∀ record : List Byte, record.length = sizeofMsgRequest.toNat → h.opens record = false) ∨
      (announced bytes).toNat = 0 ∨
      (64 ≤ (announced bytes).toNat ∧ (announced bytes).toNat < 2 ^ 31 + 64) := by
  constructor
  · intro hstores
    by_contra hcond
    simp only [not_or, not_forall, Decidable.not_not] at hcond
    obtain ⟨hput, ⟨record, hlen, hopen⟩, hpos, hsize⟩ := hcond
    rcases toInt_sub_header (announced bytes) with ⟨hle, hlt, -⟩ | ⟨hout, hneg⟩
    · exact hsize ⟨hle, hlt⟩
    · obtain ⟨es, t, hrun, hok⟩ := reaches_ok lib s hput ((pos_iff_toNat _).2 (Nat.pos_of_ne_zero hpos))
        hlen (by simpa using hopen) hneg
      obtain ⟨hle, -, written, hmem, hlength⟩ := (hstores hput es t hrun).1 hok
      -- every file in the history is empty
      have hempty := (UploadInv.of_run hput hrun).files written hmem
      omega
  · intro hcond hput es t hrun
    have hinv := UploadInv.of_run hput hrun
    have hshut : ¬ OpenedRead h (announced bytes) t.node.log →
        (recvDataResult t.node = some msgTypeRespOk → 64 ≤ (announced bytes).toNat ∧
          RequestRead t.node.log ∧ Stored ((announced bytes).toNat - 64) t.node.log) ∧
        ((announced bytes).toNat < 64 → ¬ t.node.ctl.Writes) := fun hnot =>
      ⟨fun hok => absurd (hinv.result hok).1 hnot, fun _ hwrites => hnot (hinv.writes hwrites)⟩
    rcases hcond with hput' | hclosed | hzero | ⟨hle, hlt⟩
    · exact absurd hput hput'
    · refine hshut ?_
      rintro ⟨record, hopen, -, hlen, -⟩
      simp [hclosed record hlen] at hopen
    · refine hshut ?_
      rintro ⟨record, -, hpos, -⟩
      exact (Nat.ne_of_gt ((pos_iff_toNat _).1 hpos)) hzero
    · refine ⟨fun hok => ?_, fun hless => by omega⟩
      obtain ⟨⟨record, -, -, hread⟩, hstored⟩ := hinv.result hok
      have hsize : max (toInt (announced bytes - 64)) 0 = (announced bytes).toNat - 64 := by
        rcases toInt_sub_header (announced bytes) with ⟨-, -, heq⟩ | ⟨hout, -⟩ <;> omega
      exact ⟨hle, ⟨record, hread⟩, hsize ▸ hstored⟩

/-- A PUT with a length of 40, less than the record that follows it, is accepted. -/
theorem short_put_accepted :
    ¬ StoresAnnounced .zero ⟨9, [], .halted⟩ (sampleHandle none)
      (msgHeader msgTypeReqPut [] (htonl 40)) := by
  intro hstores
  have hput : headerType (msgHeader msgTypeReqPut [] (htonl 40)) = msgTypeReqPut := by decide
  have hlen : (announced (msgHeader msgTypeReqPut [] (htonl 40))).toNat = 40 := by decide
  have hneg : toInt (announced (msgHeader msgTypeReqPut [] (htonl 40)) - 64) < 0 := by decide
  have hopen : (sampleHandle none).opens (List.replicate hostnameLength 0 ++ 97 :: List.replicate 31 0) =
      true := by decide
  obtain ⟨es, t, hrun, hok⟩ := reaches_ok .zero ⟨9, [], .halted⟩ hput ((pos_iff_toNat _).2 (by omega))
    (by decide) hopen hneg
  have hle := ((hstores hput es t hrun).1 hok).1
  omega

end

end Sample3
end FileTransfer
