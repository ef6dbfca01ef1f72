import FileTransfer.Sample3.Programs
import FileTransfer.Sample3.UploadLength

/-!
# The request record

`SockClient::start` copies the name that was typed into a field of 32 bytes and adds the size of the file
to the size of the record; `SockServer::recv_data` reads both back.  `request_round_trip_iff` says for
which names and sizes the server works on the request that the client meant.
-/

namespace FileTransfer
namespace Sample3

/-- `MSGREQUEST` and the memory of the client behind it, after `memset` and the two copies.  A name that
is longer than its field goes on behind the record. -/
def requestRecord (filename hostname stack : List Byte) : List Byte :=
  let request := List.replicate (hostnameLength + filenameLength) 0 ++ stack
  memmove (memmove request hostnameLength filename) 0 hostname

/-- A call of `start` with this name. -/
def Start.named (i : Start) (filename hostname : List Byte) (stack : List Byte) : Start :=
  { i with request := .ofBytes (requestRecord filename hostname stack) }

/-- The header and the record that `start` sends, `none` when it returns before. -/
def Client.sentRequest (c : Client) (i : Start) : Option (Payload × Payload) :=
  match (c.sendRequest i).call, ((c.sendRequest i).resume (.code 0)).call with
  | some (.sockSendtoEx header _), some (.sockSendtoEx request _) => some (header, request)
  | _, _ => none

/-- `recv_data` receives a header and, when it asks for one, a record. -/
def Server.recvRequest (s : Server) (h : Handle) (header request : Payload) : Server :=
  let t := ({ s with pc := .header h } : Server).resume
    (.received 0 (header.bytes.take sizeofMsgHeader.toNat))
  match t.pc with
  | .request _ _ _ => t.resume (.received 0 (request.bytes.take sizeofMsgRequest.toNat))
  | _ => t

/-- `request.filename` as a string; it ends in the record or in the memory of the server behind it. -/
def requestFilename (request : Payload) (behind : List Byte) : Option (List Byte) :=
  readCstr ((request.bytes.take sizeofMsgRequest.toNat).drop hostnameLength ++ behind)

/-- The server goes on with this operation and, for a PUT, with this record and the size of the file. -/
def Server.WorksOn (s : Server) (h : Handle) (record : List Byte) : Op → Prop
  | .get => s.pc = .respond h msgTypeReqGet msgTypeRespOk
  | .put (some content) => s.pc = .recvFile h record content.length
  | _ => False

/-- Whatever `start` sends is decoded to the operation, the name and the size it was made from. -/
def RequestRoundTrip (c : Client) (s : Server) (h : Handle) (i : Start) (filename behind : List Byte) :
    Prop :=
  ∀ header request, c.sentRequest i = some (header, request) →
    (s.recvRequest h header request).WorksOn h (request.bytes.take sizeofMsgRequest.toNat) i.op ∧
      requestFilename request behind = some filename

/-! ## The name -/

section

variable {filename hostname stack behind : List Byte}

/-- The record of the client from the name on. -/
theorem drop_requestRecord (hhost : hostname.length < hostnameLength) :
    (requestRecord filename hostname stack).drop hostnameLength =
      filename ++ (List.replicate (hostnameLength + filenameLength) 0 ++ stack).drop
        (hostnameLength + filename.length) := by
  have hlen : hostnameLength ≤ (List.replicate (hostnameLength + filenameLength) (0 : Byte) ++
      stack).length := by
    rw [List.length_append, List.length_replicate, Nat.add_assoc]
    exact Nat.le_add_right _ _
  simp only [requestRecord]
  -- the name of the host ends before the field
  rw [drop_memmove_of_le (Nat.zero_le _) (by omega), drop_memmove _ hlen]

/-- A name that fits is followed by the zeros of `memset`. -/
theorem take_drop_requestRecord_short (hhost : hostname.length < hostnameLength)
    (hfits : filename.length ≤ filenameLength) :
    ((requestRecord filename hostname stack).drop hostnameLength).take filenameLength =
      filename ++ List.replicate (filenameLength - filename.length) 0 := by
  have hzeros : (List.replicate (hostnameLength + filenameLength) (0 : Byte) ++ stack).drop
      (hostnameLength + filename.length) =
        List.replicate (filenameLength - filename.length) 0 ++ stack := by
    rw [List.drop_append_of_le_length (by simpa using hfits), List.drop_replicate,
      Nat.add_sub_add_left]
  calc
    ((requestRecord filename hostname stack).drop hostnameLength).take filenameLength =
        ((filename ++ List.replicate (filenameLength - filename.length) 0) ++ stack).take
          filenameLength := by rw [drop_requestRecord hhost, hzeros, List.append_assoc]
    _ = filename ++ List.replicate (filenameLength - filename.length) 0 := by
      apply List.take_left'
      simp [Nat.add_sub_of_le hfits]

/-- Of a longer name the field holds the beginning. -/
theorem take_drop_requestRecord_long (hhost : hostname.length < hostnameLength)
    (hlong : filenameLength ≤ filename.length) :
    ((requestRecord filename hostname stack).drop hostnameLength).take filenameLength =
      filename.take filenameLength := by
  rw [drop_requestRecord hhost, List.take_append_of_le_length hlong]

theorem le_length_requestRecord :
    sizeofMsgRequest.toNat ≤ (requestRecord filename hostname stack).length := by
  have hsize : sizeofMsgRequest.toNat = hostnameLength + filenameLength := rfl
  simp only [requestRecord, memmove, List.length_append, List.length_take, List.length_drop,
    List.length_replicate]
  omega

theorem requestFilename_ofBytes :
    requestFilename (.ofBytes (requestRecord filename hostname stack)) behind =
      readCstr (((requestRecord filename hostname stack).drop hostnameLength).take filenameLength ++
        behind) := by
  rw [requestFilename, Payload.take_ofBytes le_length_requestRecord (by decide), List.drop_take]
  rfl

/-- The server reads the name that was typed when it fits with its terminator, or when the memory behind the
record happens to go on with the rest. -/
theorem requestFilename_eq_some_iff (stack behind : List Byte) (htext : IsText filename)
    (hhost : hostname.length < hostnameLength) :
    requestFilename (.ofBytes (requestRecord filename hostname stack)) behind = some filename ↔
      filename.length < filenameLength ∨ filename.drop filenameLength ++ [0] <+: behind := by
  rw [requestFilename_ofBytes, readCstr_eq_some htext]
  by_cases hshort : filename.length < filenameLength
  · rw [take_drop_requestRecord_short hhost hshort.le]
    obtain ⟨k, hk⟩ := Nat.exists_eq_add_of_lt hshort
    have hzeros : filenameLength - filename.length = k + 1 := by omega
    simp [hshort, hzeros, List.replicate_succ]
  · have hlong : filenameLength ≤ filename.length := Nat.le_of_not_lt hshort
    rw [take_drop_requestRecord_long hhost hlong]
    conv_lhs => rw [← List.take_append_drop filenameLength filename]
    rw [List.take_append_of_le_length (by simp [hlong]), List.take_take, Nat.min_self,
      List.append_assoc, List.prefix_append_right_inj]
    simp [hshort]

end

/-! ## The operation and the size -/

section

variable {c : Client} {s : Server} {h : Handle} {i : Start} {content : List Byte}

theorem toInt_ftell (size : Nat) : toInt (ftell size) = size ↔ size < 2 ^ 31 := by
  unfold ftell
  split
  · rename_i hlt
    have hnat : (UInt32.ofNat size).toNat = size := UInt32.toNat_ofNat_of_lt' (hlt.trans (by decide))
    rw [toInt_eq, hnat, if_pos hlt]
    exact iff_of_true rfl hlt
  · rename_i hge
    have hneg : toInt (-1) = -1 := by decide
    rw [hneg]
    omega

/-- The header that arrives is the header that was built, and the record follows it. -/
theorem recvRequest_header {type : Byte} {len : UInt32} (hget : type = msgTypeReqGet → len = 64)
    (htype : type = msgTypeReqGet ∨ type = msgTypeReqPut) (hpos : 0 < len) (stack : List Byte)
    (request : Payload) :
    s.recvRequest h (.ofBytes (msgHeader type [] (htonl len) ++ stack)) request =
      s.receiveFile h (request.bytes.take sizeofMsgRequest.toNat) type len := by
  have hbytes : (Payload.ofBytes (msgHeader type [] (htonl len) ++ stack)).bytes.take
      sizeofMsgHeader.toNat = msgHeader type [] (htonl len) := by
    have hsize : sizeofMsgHeader.toNat = (msgHeader type [] (htonl len)).length := rfl
    rw [Payload.take_ofBytes (by simp [hsize]) (by decide), hsize, List.take_left]
  have hheaderType : headerType (msgHeader type [] (htonl len)) = type := rfl
  have hheaderLen : headerLen (msgHeader type [] (htonl len)) = htonl len := by
    have hdrop : (msgHeader type [] (htonl len)).drop 4 = leBytes (htonl len) ++ [] := by simp [msgHeader]
    rw [headerLen, hdrop, leWord_leBytes_append]
  have hright : ¬ (type = msgTypeReqGet ∧ len ≠ 64) := fun hwrong => hwrong.2 (hget hwrong.1)
  have hresume : ({ s with pc := .header h } : Server).resume
      (.received 0 (msgHeader type [] (htonl len))) = { s with pc := .request h type len } := by
    simp only [Server.resume, hheaderType, hheaderLen, htonl_htonl]
    rw [if_neg (by simp), if_neg hright, if_pos htype, if_pos hpos]
  simp only [Server.recvRequest, hbytes, hresume]
  simp only [Server.resume, Server.receiveFile]
  rw [if_neg (by simp)]

/-- A `start` that returns an error before its header sends nothing. -/
theorem sentRequest_fail (h : c.sendRequest i = c.fail) : c.sentRequest i = none := by
  have hcall : ∀ buf flag, c.fail.call ≠ some (.sockSendtoEx buf flag) := by
    intro buf flag hsend
    simp only [Client.fail, Client.call] at hsend
    split at hsend <;> cases hsend
  unfold Client.sentRequest
  rw [h]
  split
  · rename_i hsend _
    exact absurd hsend (hcall _ _)
  · rfl

theorem sentRequest_eq_none (hop : i.op = .other ∨ i.op = .put none) : c.sentRequest i = none := by
  refine sentRequest_fail ?_
  rcases hop with hop | hop <;> simp [Client.sendRequest, hop]

theorem sentRequest_eq_some {header request : Payload} :
    c.sentRequest i = some (header, request) ↔
      (i.op = .get ∨ ∃ content, i.op = .put (some content)) ∧
        header = Client.requestHeader i ∧ request = i.request := by
  cases hop : i.op with
  | get => simp [Client.sentRequest, Client.sendRequest, hop, Client.call, Client.resume, eq_comm]
  | other => simp [sentRequest_eq_none (Or.inl hop)]
  | put file =>
      cases file with
      | none => simp [sentRequest_eq_none (Or.inr hop)]
      | some content =>
          simp [Client.sentRequest, Client.sendRequest, hop, Client.call, Client.resume, eq_comm]

/-- A GET is decoded to a GET. -/
theorem worksOn_get (hop : i.op = .get) (request : Payload) :
    (s.recvRequest h (Client.requestHeader i) request).WorksOn h
      (request.bytes.take sizeofMsgRequest.toNat) .get := by
  have hne : msgTypeReqGet ≠ msgTypeReqPut := by decide
  have hheader : Client.requestHeader i =
      .ofBytes (msgHeader msgTypeReqGet [] (htonl 64) ++ i.stack) := by
    simp [Client.requestHeader, hop]
  rw [hheader, recvRequest_header (fun _ => rfl) (Or.inl rfl) (by decide)]
  simp [Server.receiveFile, hne, Server.WorksOn]

/-- A PUT is decoded to the result of `ftell`. -/
theorem worksOn_put (hop : i.op = .put (some content)) (request : Payload) :
    (s.recvRequest h (Client.requestHeader i) request).WorksOn h
      (request.bytes.take sizeofMsgRequest.toNat) (.put (some content)) ↔ content.length < 2 ^ 31 := by
  have hne : msgTypeReqPut ≠ msgTypeReqGet := by decide
  have hheader : Client.requestHeader i =
      .ofBytes (msgHeader msgTypeReqPut [] (htonl (64 + ftell content.length)) ++ i.stack) := by
    simp [Client.requestHeader, hop]
  have hpos : 0 < 64 + ftell content.length := by
    unfold ftell
    split
    · rename_i hlt
      have hnat : (UInt32.ofNat content.length).toNat = content.length :=
        UInt32.toNat_ofNat_of_lt' (hlt.trans (by decide))
      rw [pos_iff_toNat, UInt32.toNat_add, hnat]
      simp
      omega
    · decide
  have hback : 64 + ftell content.length - 64 = ftell content.length := by
    rw [UInt32.add_comm, UInt32.add_sub_cancel]
  rw [hheader, recvRequest_header (fun heq => absurd heq hne) (Or.inr rfl) hpos]
  simp only [Server.receiveFile, if_true, Server.WorksOn, hback]
  simp [toInt_ftell]

/-- A request that is sent survives when both of its messages are decoded. -/
theorem request_round_trip_sent {filename hostname : List Byte} (stack behind : List Byte)
    (hop : i.op = .get ∨ ∃ content, i.op = .put (some content)) :
    RequestRoundTrip c s h (i.named filename hostname stack) filename behind ↔
      (s.recvRequest h (Client.requestHeader i)
          (.ofBytes (requestRecord filename hostname stack))).WorksOn h
            ((Payload.ofBytes (requestRecord filename hostname stack)).bytes.take
              sizeofMsgRequest.toNat) i.op ∧
        requestFilename (.ofBytes (requestRecord filename hostname stack)) behind = some filename := by
  constructor
  · intro htrip
    exact htrip _ _ (sentRequest_eq_some.2 ⟨hop, rfl, rfl⟩)
  · intro hdecoded header request hsent
    obtain ⟨-, rfl, rfl⟩ := sentRequest_eq_some.1 hsent
    exact hdecoded

/-- A request survives exactly when `start` rejects it, or the name ends in its field (or the memory of the
server happens to continue it) and `ftell` knows the size of an uploaded file. -/
theorem request_round_trip_iff (c : Client) (s : Server) (h : Handle) (i : Start)
    {filename hostname : List Byte} (stack behind : List Byte) (htext : IsText filename)
    (hhost : hostname.length < hostnameLength) :
    RequestRoundTrip c s h (i.named filename hostname stack) filename behind ↔
      i.op = .other ∨ i.op = .put none ∨
        ((filename.length < filenameLength ∨ filename.drop filenameLength ++ [0] <+: behind) ∧
          ∀ content, i.op = .put (some content) → content.length < 2 ^ 31) := by
  have hname := requestFilename_eq_some_iff stack behind htext hhost
  -- a request that `start` rejects is not sent, and there is nothing to decode
  have hrejected : i.op = .other ∨ i.op = .put none →
      RequestRoundTrip c s h (i.named filename hostname stack) filename behind := by
    intro hop header request hsent
    rw [sentRequest_eq_none (i := i.named filename hostname stack) hop] at hsent
    cases hsent
  cases hop : i.op with
  | other => exact iff_of_true (hrejected (Or.inl hop)) (Or.inl rfl)
  | get =>
      rw [request_round_trip_sent stack behind (Or.inl hop), hop, hname]
      simp [worksOn_get hop]
  | put file =>
      cases file with
      | none => exact iff_of_true (hrejected (Or.inr hop)) (Or.inr (Or.inl rfl))
      | some content =>
          rw [request_round_trip_sent stack behind (Or.inr ⟨content, hop⟩), hop, hname,
            worksOn_put hop, and_comm]
          simp

end

/-- A short name and an upload of two bytes. -/
theorem request_round_trip_short :
    RequestRoundTrip ⟨false, [], [], .main⟩ ⟨9, [], .halted⟩ (sampleHandle none)
      ((sampleStart (.put (some [1, 2]))).named [97, 46, 99] [104] []) [97, 46, 99] [] :=
  (request_round_trip_iff _ _ _ _ _ _ (by decide) (by decide)).2
    (Or.inr (Or.inr ⟨Or.inl (by decide), by
      rintro _ ⟨⟩
      decide⟩))

/-- A name of 32 characters: the server reads on into the memory behind its record. -/
theorem long_name_changed :
    ¬ RequestRoundTrip ⟨false, [], [], .main⟩ ⟨9, [], .halted⟩ (sampleHandle none)
      ((sampleStart .get).named (List.replicate 32 97) [104] []) (List.replicate 32 97) [98, 0] := by
  intro htrip
  have hread := (htrip _ _ rfl).2
  revert hread
  decide +kernel

end Sample3
end FileTransfer
