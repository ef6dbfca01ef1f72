import FileTransfer.Build1.Records

/-!
# Uploads (`TcpClient::PutFileToServer` and `TcpThread::GetFileFromClient`)

The client sends the announcing record and the bytes of the file.  TCP hands the stream to the server
in pieces: a `recv` returns what has arrived, at most as much as it was asked for.
-/

namespace FileTransfer
namespace Build1

/-! ## The client -/

/-- The loop that sends the file, `while (sizeleft >= 0)`.  For a size that is a positive multiple of
`BUFFER_LENGTH` its last pass sends nothing, and reads and closes a file that is closed already. -/
def putLoop (sizeleft : Int) (rest : List Byte) : List (List Byte) :=
  if 0 ≤ sizeleft then
    if bufferLength < sizeleft then
      rest.take bufferLength :: putLoop (sizeleft - bufferLength) (rest.drop bufferLength)
    else
      rest.take sizeleft.toNat ::
        putLoop (sizeleft - bufferLength) (rest.drop sizeleft.toNat)
  else []
termination_by (sizeleft + bufferLength).toNat
decreasing_by all_goals simp only [bufferLength] at *; omega

/-- The loops that send a file see its size as a `long` and close it once. -/
def SentOnce (content : List Byte) : Prop :=
  content.length < 2 ^ 31 ∧ (bufferLength ∣ content.length → content = [])

instance (content : List Byte) : Decidable (SentOnce content) :=
  inferInstanceAs (Decidable (content.length < 2 ^ 31 ∧ (bufferLength ∣ content.length → content = [])))

/-- The record `PutFileToServer` announces a file of `size` bytes with; `mem` is what the record held. -/
def clientFile (mem : Fileinfo) (name : FileName) (size : Nat) : Fileinfo where
  filename := strcpy mem.filename name.chars
  length_eq := by
    rw [length_strcpy (by rw [mem.length_eq]; exact name.short), mem.length_eq]
  filelenth := UInt32.ofNat size

/-- `PutFileToServer` after the exchange of the command: what it passes to `send`.  `st_size` is a
`long`. -/
def putFileToServer (mem : Fileinfo) (name : FileName) (content : List Byte) : List (List Byte) :=
  let clientfile := clientFile mem name content.length
  clientfile.toBytes :: putLoop (longOfWord clientfile.filelenth) content

/-! ## The server -/

/-- The locals of `GetFileFromClient` where it calls `recv`: before the record has arrived, and in the
loop, with the content of the file so far. -/
inductive GetFile where
  | record (clientputfilename : Fileinfo)
  | data (clientputfilename : Fileinfo) (fsize : Int) (written : List Byte)

/-- What `GetFileFromClient` stores. -/
structure Stored where
  name : List Byte
  announced : Int
  content : List Byte
  deriving DecidableEq

namespace GetFile

/-- How many bytes it asks for; the loop is left at `fsize <= 0`. -/
def want : GetFile → Nat
  | .record _ => sizeofFileinfo
  | .data _ fsize _ => if bufferLength < fsize then bufferLength else fsize.toNat

/-- It goes on with what `recv` returned. -/
def take : GetFile → List Byte → GetFile
  -- a short `recv` leaves the rest of the record as it was
  | .record mem, got =>
      let clientputfilename := mem.overlay got
      .data clientputfilename (longOfWord clientputfilename.filelenth) []
  | .data clientputfilename fsize written, got =>
      .data clientputfilename (fsize - got.length) (written ++ got)

/-- The loop is left: the name, the announced length and the content of the file stored. -/
def finished : GetFile → Option Stored
  | .record _ => none
  | .data clientputfilename fsize written =>
      if fsize ≤ 0 then
        some ⟨cstr clientputfilename.filename, longOfWord clientputfilename.filelenth, written⟩
      else none

theorem want_pos {g : GetFile} (h : g.finished = none) : 0 < g.want := by
  cases g with
  | record _ => exact Nat.succ_pos _
  | data _ fsize _ =>
      have hpos : ¬ fsize ≤ 0 := by
        intro hle
        simp [finished, hle] at h
      by_cases hbig : (bufferLength : Int) < fsize
      · rw [want, if_pos hbig]
        exact Nat.succ_pos _
      · rw [want, if_neg hbig]
        omega

end GetFile

/-- The bytes that are still to be received, and how many `recv` calls there were. -/
structure Tcp where
  stream : List Byte
  calls : Nat

/-- `recv`.  `split k + 1` bytes have arrived when it is called for the `k`th time, or all there are. -/
def Tcp.recv (split : Nat → Nat) (want : Nat) (t : Tcp) : List Byte × Tcp :=
  let n := min want (split t.calls + 1)
  (t.stream.take n, ⟨t.stream.drop n, t.calls + 1⟩)

/-- `GetFileFromClient` from this point on.  It does not come to an end when nothing arrives any
more. -/
def getFileFromClient (split : Nat → Nat) (g : GetFile) (t : Tcp) : Option Stored :=
  match _hfin : g.finished with
  | some stored => some stored
  | none =>
      if _hne : t.stream = [] then none
      else
        getFileFromClient split (g.take (t.recv split g.want).1) (t.recv split g.want).2
termination_by t.stream.length
decreasing_by
  have hlen : 0 < t.stream.length := List.length_pos_iff.2 _hne
  have hwant := GetFile.want_pos _hfin
  simp only [Tcp.recv, List.length_drop]
  omega

/-- What `GetFileFromClient` stores when the client sends `sends`; `mem` is what its record held. -/
def upload (mem : Fileinfo) (split : Nat → Nat) (sends : List (List Byte)) : Option Stored :=
  getFileFromClient split (.record mem) ⟨sends.flatten, 0⟩

/-! ## What arrives -/

/-- The passes of the sending loop put the file on the stream. -/
theorem flatten_putLoop (sizeleft : Int) (rest : List Byte) (h : sizeleft ≤ rest.length) :
    (putLoop sizeleft rest).flatten = rest.take sizeleft.toNat := by
  induction sizeleft, rest using putLoop.induct with
  | case1 sizeleft rest h0 hlt ih =>
      have hsum : sizeleft.toNat = bufferLength + (sizeleft - bufferLength).toNat := by omega
      rw [putLoop, if_pos h0, if_pos hlt, List.flatten_cons, ih (by rw [List.length_drop]; omega), hsum,
        List.take_add]
  | case2 sizeleft rest h0 hle ih =>
      -- the last pass, or the one after it that sends nothing
      have hzero : (sizeleft - bufferLength).toNat = 0 := by omega
      rw [putLoop, if_pos h0, if_neg hle, List.flatten_cons, ih (by simp; omega), hzero,
        List.take_zero, List.append_nil]
  | case3 sizeleft rest h0 =>
      have hzero : sizeleft.toNat = 0 := by omega
      rw [putLoop, if_neg h0, hzero]
      rfl

theorem getFile_finished {split : Nat → Nat} {g : GetFile} {t : Tcp} {stored : Stored}
    (h : g.finished = some stored) : getFileFromClient split g t = some stored := by
  rw [getFileFromClient]
  split
  · rename_i heq
    rw [← heq, h]
  · rename_i heq
    rw [h] at heq
    cases heq

theorem getFile_recv {split : Nat → Nat} {g : GetFile} {t : Tcp} (h : g.finished = none)
    (hne : t.stream ≠ []) :
    getFileFromClient split g t =
      getFileFromClient split (g.take (t.recv split g.want).1) (t.recv split g.want).2 := by
  rw [getFileFromClient]
  split
  · rename_i heq
    rw [h] at heq
    cases heq
  · rw [dif_neg hne]

/-- Nothing arrives any more. -/
theorem getFile_nil {split : Nat → Nat} {g : GetFile} {t : Tcp} (h : g.finished = none)
    (hnil : t.stream = []) : getFileFromClient split g t = none := by
  rw [getFileFromClient]
  split
  · rename_i heq
    rw [h] at heq
    cases heq
  · rw [dif_pos hnil]

/-- However the rest of the stream is split, the loop takes the bytes announced from it. -/
theorem getFile_data (split : Nat → Nat) (info : Fileinfo) (fsize : Int) (written : List Byte)
    (t : Tcp) (h : fsize ≤ t.stream.length) :
    getFileFromClient split (.data info fsize written) t =
      some ⟨cstr info.filename, longOfWord info.filelenth, written ++ t.stream.take fsize.toNat⟩ := by
  -- on the bytes left in the stream: each `recv` of the loop takes at least one
  induction hn : t.stream.length using Nat.strongRecOn generalizing fsize written t with
  | ind n ih =>
    by_cases hdone : fsize ≤ 0
    · have hzero : fsize.toNat = 0 := by omega
      rw [hzero, List.take_zero, List.append_nil]
      exact getFile_finished (by simp [GetFile.finished, hdone])
    · have hopen : (GetFile.data info fsize written).finished = none := by
        simp [GetFile.finished, hdone]
      have hne : t.stream ≠ [] := by
        intro hnil
        rw [hnil, List.length_nil] at h
        omega
      have hwant := GetFile.want_pos hopen
      -- a call never asks for more than the file has left
      have hcap : ((GetFile.data info fsize written).want : Int) ≤ fsize := by
        simp only [GetFile.want]
        split <;> omega
      rw [getFile_recv hopen hne]
      set m := min (GetFile.data info fsize written).want (split t.calls + 1) with hm
      have hrecv : t.recv split (GetFile.data info fsize written).want =
          (t.stream.take m, ⟨t.stream.drop m, t.calls + 1⟩) := rfl
      have hgot : (t.stream.take m).length = m := by
        rw [List.length_take]
        omega
      -- what the call takes and what the rest of the loop takes are the bytes announced
      have hsum : fsize.toNat = m + (fsize - m).toNat := by omega
      rw [hrecv]
      simp only [GetFile.take, hgot]
      rw [ih (t.stream.drop m).length (by rw [List.length_drop]; omega) _ _ _
        (by simp only [List.length_drop]; omega) rfl]
      rw [hsum, List.take_add, List.append_assoc]

/-! ## Splitting the stream -/

/-- What the client sent. -/
def sent (name : FileName) (content : List Byte) : Stored := ⟨name.chars, content.length, content⟩

theorem longOfWord_size {n : Nat} (h : n < 2 ^ 31) : longOfWord (UInt32.ofNat n) = n := by
  unfold longOfWord
  rw [UInt32.toNat_ofNat', Nat.mod_eq_of_lt (by omega)]
  exact toLong_eq_self h

theorem flatten_putFileToServer (mem : Fileinfo) (name : FileName) {content : List Byte}
    (h : content.length < 2 ^ 31) :
    (putFileToServer mem name content).flatten =
      (clientFile mem name content.length).toBytes ++ content := by
  have hsize : longOfWord (clientFile mem name content.length).filelenth = content.length :=
    longOfWord_size h
  simp only [putFileToServer, List.flatten_cons, hsize]
  rw [flatten_putLoop _ _ (by omega), Int.toNat_natCast, List.take_length]

/-- The upload begins with one `recv` into the record. -/
theorem getFile_record (mem record : Fileinfo) (rest : List Byte) (split : Nat → Nat) :
    getFileFromClient split (.record mem) ⟨record.toBytes ++ rest, 0⟩ =
      getFileFromClient split ((GetFile.record mem).take (record.toBytes.take (split 0 + 1)))
        ⟨(record.toBytes ++ rest).drop (min sizeofFileinfo (split 0 + 1)), 1⟩ := by
  have hlen := Fileinfo.length_toBytes record
  have hne : record.toBytes ++ rest ≠ [] := by
    intro hnil
    have hzero := congrArg List.length hnil
    rw [List.length_append, hlen, sizeofFileinfo, List.length_nil] at hzero
    omega
  have htake : (record.toBytes ++ rest).take (min sizeofFileinfo (split 0 + 1)) =
      record.toBytes.take (split 0 + 1) := by
    rw [List.take_append_of_le_length (by omega), ← hlen]
    by_cases hwhole : record.toBytes.length ≤ split 0 + 1
    · rw [Nat.min_eq_left hwhole, List.take_length, List.take_of_length_le hwhole]
    · rw [Nat.min_eq_right (by omega)]
  rw [getFile_recv (g := .record mem) rfl hne]
  simp only [Tcp.recv, GetFile.want, htake]

/-- The announced length does not depend on how the loop ends. -/
theorem getFile_announced {split : Nat → Nat} {info : Fileinfo} {fsize : Int} {written : List Byte}
    {t : Tcp} {stored : Stored}
    (h : getFileFromClient split (.data info fsize written) t = some stored) :
    stored.announced = longOfWord info.filelenth := by
  induction hn : t.stream.length using Nat.strongRecOn generalizing fsize written t with
  | ind n ih =>
    by_cases hdone : fsize ≤ 0
    · have hend : (GetFile.data info fsize written).finished =
          some ⟨cstr info.filename, longOfWord info.filelenth, written⟩ := by
        simp [GetFile.finished, hdone]
      rw [getFile_finished hend] at h
      rw [← Option.some.inj h]
    · have hopen : (GetFile.data info fsize written).finished = none := by
        simp [GetFile.finished, hdone]
      have hwant := GetFile.want_pos hopen
      by_cases hnil : t.stream = []
      · rw [getFile_nil hopen hnil] at h
        cases h
      · have hlen : 0 < t.stream.length := List.length_pos_iff.2 hnil
        rw [getFile_recv hopen hnil] at h
        simp only [GetFile.take] at h
        have hless : (t.recv split (GetFile.data info fsize written).want).2.stream.length < n := by
          simp only [Tcp.recv, List.length_drop]
          omega
        exact ih _ hless h rfl

/-- A record that is all ones. -/
def ones : Fileinfo := ⟨List.replicate filenameLength 255, List.length_replicate, 0xFFFFFFFF⟩

/-- When a part of the record is missing, the old memory may make the length negative. -/
theorem overlay_ones_neg (got : List Byte) (h : got.length < sizeofFileinfo) :
    longOfWord (ones.overlay got).filelenth < 0 := by
  have hones : ones.toBytes = List.replicate sizeofFileinfo 255 := by
    have hword : leBytes 0xFFFFFFFF = List.replicate 4 255 := by decide
    rw [Fileinfo.toBytes, ones, hword, List.replicate_append_replicate]
    rfl
  have hsize : sizeofFileinfo = 264 := rfl
  -- the highest byte of the length is the last one of the record
  have hlast : ((got ++ ones.toBytes.drop got.length).drop filenameLength).getD 3 0 = 255 := by
    rw [List.getD_eq_getElem?_getD, List.getElem?_drop, List.getElem?_append_right (by
      simp only [filenameLength]; omega), hones, List.getElem?_drop, List.getElem?_replicate]
    rw [if_pos (by simp only [filenameLength]; omega)]
    rfl
  have hword : 2 ^ 31 ≤ (ones.overlay got).filelenth.toNat := by
    simp only [Fileinfo.overlay, Fileinfo.ofBytes]
    generalize (got ++ ones.toBytes.drop got.length).drop filenameLength = l at hlast ⊢
    have h0 := (l.getD 0 0).toNat_lt
    have h1 := (l.getD 1 0).toNat_lt
    have h2 := (l.getD 2 0).toNat_lt
    have h3 : (255 : Byte).toNat = 255 := rfl
    rw [leWord, hlast, UInt32.toNat_ofNat', h3]
    omega
  have hlt := (ones.overlay got).filelenth.toNat_lt
  unfold longOfWord toLong
  rw [Int.bmod_def]
  omega

theorem upload_record (mem cmem : Fileinfo) (name : FileName) (content : List Byte)
    (split : Nat → Nat) :
    upload mem split (putFileToServer cmem name content) =
      getFileFromClient split
        ((GetFile.record mem).take
          ((clientFile cmem name content.length).toBytes.take (split 0 + 1)))
        ⟨((putFileToServer cmem name content).flatten).drop (min sizeofFileinfo (split 0 + 1)), 1⟩ := by
  have hflat : (putFileToServer cmem name content).flatten =
      (clientFile cmem name content.length).toBytes ++
        (putLoop (longOfWord (clientFile cmem name content.length).filelenth) content).flatten := by
    unfold putFileToServer
    exact List.flatten_cons
  rw [upload, hflat, getFile_record]

/-- One splitting: the upload is exact, whatever the record of the server held, just when the record
arrives whole and a `long` can hold the size. -/
theorem upload_eq_sent_iff (cmem : Fileinfo) (name : FileName) (content : List Byte)
    (split : Nat → Nat) :
    (∀ mem, upload mem split (putFileToServer cmem name content) = some (sent name content)) ↔
      content.length < 2 ^ 31 ∧ sizeofFileinfo ≤ split 0 + 1 := by
  set record := clientFile cmem name content.length with hrecord
  have hlen : record.toBytes.length = sizeofFileinfo := Fileinfo.length_toBytes record
  have hupload : ∀ mem, upload mem split (putFileToServer cmem name content) =
      getFileFromClient split ((GetFile.record mem).take (record.toBytes.take (split 0 + 1)))
        ⟨((putFileToServer cmem name content).flatten).drop (min sizeofFileinfo (split 0 + 1)), 1⟩ :=
    fun mem => upload_record mem cmem name content split
  constructor
  · intro h
    have hwhole : sizeofFileinfo ≤ split 0 + 1 := by
      -- a record cut short keeps the ones of the memory in its length, which is then negative
      by_contra hpart
      have hannounced := getFile_announced ((hupload ones).symm.trans (h ones))
      have hneg := overlay_ones_neg (record.toBytes.take (split 0 + 1))
        (by rw [List.length_take]; omega)
      rw [← hannounced] at hneg
      simp only [sent] at hneg
      omega
    -- of a record that arrives whole, the size announced is the one a `long` holds
    refine ⟨?_, hwhole⟩
    have hannounced := getFile_announced ((hupload ones).symm.trans (h ones))
    rw [List.take_of_length_le (by omega), Fileinfo.overlay_toBytes] at hannounced
    have hlong := toLong_lt (record.filelenth.toNat)
    simp only [sent, longOfWord] at hannounced
    omega
  · -- the record is read whole, and the loop then takes the bytes announced
    rintro ⟨hsize, hwhole⟩ mem
    have hlong : longOfWord record.filelenth = content.length := longOfWord_size hsize
    rw [hupload mem, List.take_of_length_le (by omega), Nat.min_eq_left hwhole,
      flatten_putFileToServer cmem name hsize, ← hlen, List.drop_left]
    simp only [GetFile.take, Fileinfo.overlay_toBytes, hlong]
    rw [getFile_data _ _ _ _ _ (by simp)]
    simp only [hlong, Int.toNat_natCast, List.take_length, List.nil_append, sent]
    rw [hrecord, clientFile, cstr_strcpy name.isText]

/-- Two splittings of the stream of one upload: both give the server what the client sent, whatever its
record held before, just when the record arrives whole both times and a `long` can hold the size. -/
theorem split_independent_iff (cmem : Fileinfo) (name : FileName) (content : List Byte)
    (split split' : Nat → Nat) :
    (∀ mem mem', upload mem split (putFileToServer cmem name content) =
        upload mem' split' (putFileToServer cmem name content) ∧
      upload mem' split' (putFileToServer cmem name content) = some (sent name content)) ↔
      content.length < 2 ^ 31 ∧ sizeofFileinfo ≤ split 0 + 1 ∧ sizeofFileinfo ≤ split' 0 + 1 := by
  have h := upload_eq_sent_iff cmem name content split
  have h' := upload_eq_sent_iff cmem name content split'
  constructor
  · intro hboth
    have hright := h.1 fun mem => (hboth mem mem).1.trans (hboth mem mem).2
    have hright' := h'.1 fun mem => (hboth mem mem).2
    exact ⟨hright.1, hright.2, hright'.2⟩
  · rintro ⟨hsize, hwhole, hwhole'⟩ mem mem'
    have hsent := h.2 ⟨hsize, hwhole⟩ mem
    have hsent' := h'.2 ⟨hsize, hwhole'⟩ mem'
    exact ⟨hsent.trans hsent'.symm, hsent'⟩

/-- A file of one byte. -/
def smallName : FileName := ⟨[97], by decide, by decide⟩

/-- The first byte of the record arrives alone, and the old memory makes the length negative: the
server stores nothing. -/
theorem split_record :
    ¬ (upload ones (fun _ => 300) (putFileToServer ones smallName [7]) =
        upload ones (fun _ => 0) (putFileToServer ones smallName [7]) ∧
      upload ones (fun _ => 0) (putFileToServer ones smallName [7]) = some (sent smallName [7])) := by
  rintro ⟨-, h⟩
  rw [upload_record] at h
  have hannounced : (sent smallName [7]).announced =
      longOfWord (ones.overlay ((clientFile ones smallName 1).toBytes.take 1)).filelenth :=
    getFile_announced h
  have hneg := overlay_ones_neg ((clientFile ones smallName 1).toBytes.take 1)
    (by simp [sizeofFileinfo])
  have hone : (sent smallName [7]).announced = 1 := rfl
  omega

end Build1
end FileTransfer
