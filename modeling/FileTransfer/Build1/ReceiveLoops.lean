import FileTransfer.Build1.Upload
import FileTransfer.Lib.Run

/-!
# The receiving loops and what `recv` may return

`GetFileFromClient` of the server and `GetFileFromServer` of the client receive a file with the same loop.
It subtracts from the remaining count whatever `recv` returns, and looks neither for `0`, at the end of the
connection, nor for `-1`.  The loop keeps its count and stops in time exactly as long as every `recv`
returns data.
-/

namespace FileTransfer
namespace Build1

/-! ## The loop -/

/-- What `recv` returns: `SOCKET_ERROR`, or the bytes it has put into the buffer. -/
inductive Recv where
  | error
  | got (bytes : List Byte)
  deriving DecidableEq

namespace Recv

/-- The value that is assigned to `receivesize`. -/
def receivesize : Recv → Int
  | error => -1
  | got bytes => bytes.length

def bytes : Recv → List Byte
  | error => []
  | got bytes => bytes

/-- `fwrite(buffer,1,receivesize,fp)` behind this content.  As a size `-1` is larger than the buffer, and
what is written then (`none`) is not what was received. -/
def fwrite (r : Recv) (file : Option (List Byte)) : Option (List Byte) :=
  match r with
  | error => none
  | got bytes => file.map (· ++ bytes)

end Recv

/-- The state of the loop: `fsize`, and the content of the file. -/
structure FileLoop where
  fsize : Int
  file : Option (List Byte)
  deriving DecidableEq

namespace FileLoop

/-- How many bytes the pass asks for. -/
def request (length : Nat) (x : FileLoop) : Nat :=
  if length < x.fsize then length else x.fsize.toNat

/-- A pass of `while (fsize > 0)`, on what its `recv` returns. -/
def pass (x : FileLoop) (r : Recv) : Option FileLoop :=
  if 0 < x.fsize then some ⟨toLong (x.fsize - r.receivesize), r.fwrite x.file⟩ else none

/-- `recv` returns no more than it was asked for. -/
def Fits (length : Nat) (x : FileLoop) (r : Recv) : Prop := r.bytes.length ≤ x.request length

instance (length : Nat) (x : FileLoop) (r : Recv) : Decidable (x.Fits length r) :=
  inferInstanceAs (Decidable (_ ≤ _))

end FileLoop

/-- Before the first pass: the length is the one of the record. -/
def FileLoop.begin (filelenth : UInt32) : FileLoop := ⟨longOfWord filelenth, some []⟩

/-- A run of a loop with a buffer of this length, on what the `recv` calls return one after the other. -/
def LoopRun (length : Nat) (filelenth : UInt32) (rs : List Recv) (x : FileLoop) : Prop :=
  Run FileLoop.pass (FileLoop.Fits length) (.begin filelenth) rs x

/-- The loop of `TcpThread::GetFileFromClient`. -/
abbrev GetFileFromClientRun : UInt32 → List Recv → FileLoop → Prop := LoopRun bufferLength

/-- The loop of `TcpClient::GetFileFromServer`. -/
abbrev GetFileFromServerRun : UInt32 → List Recv → FileLoop → Prop := LoopRun bufferLength

/-- The bytes received. -/
def receivedBytes (rs : List Recv) : List Byte := rs.flatMap Recv.bytes

/-- What is expected after these results. -/
structure LoopInTime (length : Nat) (filelenth : UInt32) (rs : List Recv) (x : FileLoop) : Prop where
  /-- the loop is left when `recv` has returned `0` or `-1`, or what was announced has arrived -/
  stops : (∃ r ∈ rs, r.receivesize ≤ 0) ∨ longOfWord filelenth ≤ (receivedBytes rs).length →
    x.fsize ≤ 0
  /-- the remaining count never increases -/
  falls : ∀ rs' r x', rs = rs' ++ [r] → LoopRun length filelenth rs' x' → x.fsize ≤ x'.fsize
  /-- the file holds the bytes received -/
  exact : x.file = some (receivedBytes rs)
  short : (receivedBytes rs).length ≤ (longOfWord filelenth).toNat

/-- That is so after each of the results. -/
def AlwaysInTime (length : Nat) (filelenth : UInt32) (rs : List Recv) : Prop :=
  ∀ rs' x', rs' <+: rs → LoopRun length filelenth rs' x' → LoopInTime length filelenth rs' x'

/-! ## One pass -/

section Pass

variable {length : Nat} {x y : FileLoop} {r : Recv}

theorem FileLoop.pass_eq_some (h : x.pass r = some y) :
    0 < x.fsize ∧ y.fsize = toLong (x.fsize - r.receivesize) ∧ y.file = r.fwrite x.file := by
  unfold pass at h
  split at h
  · rename_i hpos
    cases h
    exact ⟨hpos, rfl, rfl⟩
  · cases h

theorem FileLoop.request_le (h : 0 < x.fsize) : (x.request length : Int) ≤ x.fsize := by
  unfold request
  split <;> omega

theorem toLong_of_range {n : Int} (hpos : 0 ≤ n) (hlt : n < 2 ^ 31) : toLong n = n := by
  have hnat := toLong_eq_self (n := n.toNat) (by omega)
  rwa [Int.toNat_of_nonneg hpos] at hnat

theorem longOfWord_lt (w : UInt32) : longOfWord w < 2 ^ 31 := by
  unfold longOfWord
  exact toLong_lt _

/-- A pass that receives bytes takes them off the count. -/
theorem FileLoop.pass_got (bytes : List Byte) (hlt : x.fsize < 2 ^ 31)
    (hfits : x.Fits length (.got bytes)) (h : x.pass (.got bytes) = some y) :
    y.fsize = x.fsize - bytes.length ∧ 0 ≤ y.fsize ∧ y.file = x.file.map (· ++ bytes) := by
  obtain ⟨hpos, hsize, hfile⟩ := pass_eq_some h
  have hle : (bytes.length : Int) ≤ x.fsize := by
    have hrequest : (x.request length : Int) ≤ x.fsize := request_le hpos
    have hbytes : bytes.length ≤ x.request length := hfits
    omega
  have hexact : y.fsize = x.fsize - bytes.length := by
    rw [hsize]
    exact toLong_of_range (by simp only [Recv.receivesize]; omega)
      (by simp only [Recv.receivesize]; omega)
  exact ⟨hexact, by omega, hfile⟩

/-- The loop is that of the upload as long as `recv` does not fail. -/
theorem FileLoop.pass_getFile {info : Fileinfo} {written bytes : List Byte} {fsize : Int}
    (hlt : fsize < 2 ^ 31) (hpos : 0 < fsize)
    (hfits : bytes.length ≤ (GetFile.data info fsize written).want) :
    ∃ y, (⟨fsize, some written⟩ : FileLoop).pass (.got bytes) = some ⟨y, some (written ++ bytes)⟩ ∧
      (GetFile.data info fsize written).take bytes = .data info y (written ++ bytes) := by
  refine ⟨fsize - bytes.length, ?_, rfl⟩
  have hpass : (⟨fsize, some written⟩ : FileLoop).pass (.got bytes) =
      some ⟨toLong (fsize - bytes.length), some (written ++ bytes)⟩ := if_pos hpos
  have hfits' : (⟨fsize, some written⟩ : FileLoop).Fits bufferLength (.got bytes) := hfits
  have hexact : toLong (fsize - bytes.length) = fsize - bytes.length :=
    (pass_got bytes hlt hfits' hpass).1
  rw [hpass, hexact]

end Pass

/-! ## Runs -/

section Runs

variable {length : Nat} {filelenth : UInt32} {rs rs' : List Recv} {x x' : FileLoop}

theorem receivedBytes_snoc (rs : List Recv) (r : Recv) :
    receivedBytes (rs ++ [r]) = receivedBytes rs ++ r.bytes := by
  simp [receivedBytes]

theorem fsize_lt (h : LoopRun length filelenth rs x) : x.fsize < 2 ^ 31 := by
  induction h with
  | nil =>
      dsimp only [FileLoop.begin]
      exact longOfWord_lt filelenth
  | snoc _ _ hpass _ =>
      rw [(FileLoop.pass_eq_some hpass).2.1]
      exact toLong_lt _

/-- As long as `recv` does not fail, the count and the file account for all that was received. -/
theorem accounts_of_got (h : LoopRun length filelenth rs x) (hgot : ∀ r ∈ rs, r ≠ .error) :
    x.fsize = longOfWord filelenth - (receivedBytes rs).length ∧
      x.file = some (receivedBytes rs) ∧ (receivedBytes rs).length ≤ (longOfWord filelenth).toNat := by
  induction h with
  | nil => simp [FileLoop.begin, receivedBytes]
  | @snoc rs r x y hrun hfits hpass ih =>
      obtain ⟨hsize, hfile, -⟩ := ih fun r hr => hgot r (List.mem_append_left _ hr)
      cases r with
      | error => exact absurd rfl (hgot .error (by simp))
      | got bytes =>
          obtain ⟨hsize', hpos, hfile'⟩ := FileLoop.pass_got bytes (fsize_lt hrun) hfits hpass
          have hlen : (receivedBytes (rs ++ [.got bytes])).length =
              (receivedBytes rs).length + bytes.length := by
            rw [receivedBytes_snoc, List.length_append]
            rfl
          refine ⟨?_, ?_, ?_⟩
          · rw [hsize', hsize, hlen]
            omega
          · rw [hfile', hfile, receivedBytes_snoc]
            rfl
          · rw [hlen]
            omega

theorem ne_error_of_pos {r : Recv} (h : 0 < r.receivesize) : r ≠ .error := by
  rintro rfl
  exact absurd h (by decide)

theorem inTime_of_pos (h : LoopRun length filelenth rs x) (hpos : ∀ r ∈ rs, 0 < r.receivesize) :
    LoopInTime length filelenth rs x := by
  obtain ⟨hsize, hfile, hshort⟩ := accounts_of_got h fun r hr => ne_error_of_pos (hpos r hr)
  constructor
  · rintro (⟨r, hr, hnot⟩ | hall)
    · exact absurd (hpos r hr) (Int.not_lt.2 hnot)
    · omega
  · rintro rs' r x' rfl hrun
    have hgot : ∀ r ∈ rs', r ≠ .error := fun r hr =>
      ne_error_of_pos (hpos r (List.mem_append_left _ hr))
    rw [hsize, (accounts_of_got hrun hgot).1, receivedBytes_snoc, List.length_append]
    omega
  · exact hfile
  · exact hshort

/-- After a `recv` that returns `0` or `-1` the loop is not left, or the file is spoilt. -/
theorem pos_of_inTime {r : Recv} (h : LoopRun length filelenth (rs ++ [r]) x)
    (hin : LoopInTime length filelenth (rs ++ [r]) x) : 0 < r.receivesize := by
  by_contra hnot
  have hstop := hin.stops (Or.inl ⟨r, by simp, Int.not_lt.1 hnot⟩)
  obtain ⟨y, hrun, hfits, hpass⟩ := Run.snoc_iff.1 h
  cases r with
  | error =>
      have hfile := (FileLoop.pass_eq_some hpass).2.2
      rw [hin.exact] at hfile
      cases hfile
  | got bytes =>
      have hnone : bytes.length = 0 := by
        simp only [Recv.receivesize] at hnot
        omega
      have hopen := (FileLoop.pass_eq_some hpass).1
      have hsame := (FileLoop.pass_got bytes (fsize_lt hrun) hfits hpass).1
      omega

/-- The loop is in time after each result exactly when every `recv` returned data. -/
theorem alwaysInTime_iff (h : LoopRun length filelenth rs x) :
    AlwaysInTime length filelenth rs ↔ ∀ r ∈ rs, 0 < r.receivesize := by
  constructor
  · intro hall r hr
    obtain ⟨rs₁, rs₂, rfl⟩ := List.append_of_mem hr
    have hsplit : rs₁ ++ r :: rs₂ = rs₁ ++ [r] ++ rs₂ := by simp
    rw [hsplit] at h
    obtain ⟨y, hrun, -⟩ := Run.append_iff.1 h
    exact pos_of_inTime hrun (hall _ y ⟨rs₂, hsplit.symm⟩ hrun)
  · intro hpos rs' x' hgrown hrun
    exact inTime_of_pos hrun fun r hr => hpos r (hgrown.subset hr)

theorem one_le_length_bytes {r : Recv} (h : 0 < r.receivesize) : 1 ≤ r.bytes.length := by
  cases r with
  | error => exact absurd h (by decide)
  | got bytes => exact Int.ofNat_lt.1 h

/-- Each `recv` that returns data brings at least one byte. -/
theorem length_le_receivedBytes (hpos : ∀ r ∈ rs, 0 < r.receivesize) :
    rs.length ≤ (receivedBytes rs).length := by
  induction rs with
  | nil => exact Nat.le_refl _
  | cons r rs ih =>
      have hrest := ih fun r' hr' => hpos r' (List.mem_cons_of_mem _ hr')
      have hone := one_le_length_bytes (hpos r List.mem_cons_self)
      calc
        (r :: rs).length = rs.length + 1 := List.length_cons
        _ ≤ (receivedBytes rs).length + r.bytes.length := Nat.add_le_add hrest hone
        _ = (receivedBytes (r :: rs)).length := by
          simp only [receivedBytes, List.flatMap_cons, List.length_append, Nat.add_comm]

/-- With data in every `recv` the loop ends after at most as many calls as bytes were announced. -/
theorem calls_le (h : LoopRun length filelenth rs x) (hpos : ∀ r ∈ rs, 0 < r.receivesize) :
    rs.length ≤ (longOfWord filelenth).toNat :=
  (length_le_receivedBytes hpos).trans (inTime_of_pos h hpos).short

/-- At the end of the connection the loop goes on for ever. -/
theorem spins (length : Nat) (hopen : 0 < longOfWord filelenth) (k : Nat) :
    LoopRun length filelenth (List.replicate k (.got [])) (.begin filelenth) := by
  have hpass : (FileLoop.begin filelenth).pass (.got []) = some (.begin filelenth) := by
    have hsame : toLong (longOfWord filelenth) = longOfWord filelenth :=
      toLong_of_range (Int.le_of_lt hopen) (longOfWord_lt filelenth)
    simp [FileLoop.pass, FileLoop.begin, hopen, Recv.receivesize, Recv.fwrite, hsame]
  induction k with
  | zero => exact .nil
  | succ k ih => exact Run.cons (Nat.zero_le _) hpass ih

end Runs

/-! ## Both loops -/

/-- For every announced length and all results of `recv`, each of the two loops stops in time and keeps its
count and its file exactly when every `recv` it makes returns data. -/
theorem receive_loops_iff (filelenth : UInt32) (rs : List Recv) :
    (∀ x, GetFileFromClientRun filelenth rs x →
        (AlwaysInTime bufferLength filelenth rs ↔ ∀ r ∈ rs, 0 < r.receivesize)) ∧
      ∀ x, GetFileFromServerRun filelenth rs x →
        (AlwaysInTime bufferLength filelenth rs ↔ ∀ r ∈ rs, 0 < r.receivesize) :=
  ⟨fun _ h => alwaysInTime_iff h, fun _ h => alwaysInTime_iff h⟩

/-- A file of 130 bytes in two pieces. -/
theorem receive_loops_two :
    AlwaysInTime bufferLength 130 [.got (List.replicate 128 7), .got [7, 7]] ↔
      ∀ r ∈ [Recv.got (List.replicate 128 7), .got [7, 7]], 0 < r.receivesize := by
  have hexec : ∃ x, GetFileFromClientRun 130 [.got (List.replicate 128 7), .got [7, 7]] x ∧
      x.fsize = 0 := exists_run_of_exec (by decide +kernel)
  obtain ⟨x, hrun, -⟩ := hexec
  exact (receive_loops_iff 130 _).1 x hrun

/-- The peer closes before the first of five bytes, and both loops call `recv` again; `recv` fails, and they
wait for six bytes then. -/
theorem receive_loops_late :
    (∃ x, GetFileFromClientRun 5 [.got []] x ∧ GetFileFromServerRun 5 [.got []] x ∧ x.fsize = 5) ∧
      (∃ x, GetFileFromClientRun 5 [.error] x ∧ GetFileFromServerRun 5 [.error] x ∧
        x.fsize = 6 ∧ x.file = none) ∧
      ¬ AlwaysInTime bufferLength 5 [.got []] ∧ ¬ AlwaysInTime bufferLength 5 [.error] := by
  have hzero : GetFileFromClientRun 5 [.got []] (.begin 5) := spins bufferLength (by decide) 1
  have herror : GetFileFromClientRun 5 [.error] ⟨6, none⟩ :=
    Run.cons (by decide) (by decide) .nil
  refine ⟨⟨_, hzero, hzero, by decide⟩, ⟨_, herror, herror, rfl, rfl⟩, ?_, ?_⟩
  · rw [alwaysInTime_iff hzero]
    decide
  · rw [alwaysInTime_iff herror]
    decide

end Build1
end FileTransfer
