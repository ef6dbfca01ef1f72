import FileTransfer.Lib.CString

/-!
# Records of the threaded TCP build (`build 1`)

The record that announces an upload, as it lies in memory: `ClientFile` in the client and `Fileinfo`
in the server have the same layout.
-/

namespace FileTransfer
namespace Build1

/-- `BUFFER_LENGTH` -/
def bufferLength : Nat := 128

/-- The length of the `filename` fields and of the server's name buffers, and the client's `FILENAME_LENGTH` (the
server's is 20). -/
def filenameLength : Nat := 260

/-- What a `long` of 32 bits keeps of a number. -/
def toLong (n : Int) : Int := n.bmod (2 ^ 32)

theorem toLong_eq_self {n : Nat} (h : n < 2 ^ 31) : toLong n = n := by
  unfold toLong
  rw [Int.bmod_eq_of_le] <;> omega

theorem toLong_lt (n : Int) : toLong n < 2 ^ 31 := by
  have := Int.bmod_lt (x := n) (m := 2 ^ 32) (by decide)
  unfold toLong
  omega

/-- The `long` in a word. -/
def longOfWord (w : UInt32) : Int := toLong w.toNat

/-- A file name that fits into the program's buffers. -/
structure FileName where
  chars : List Byte
  isText : IsText chars
  short : chars.length < filenameLength

/-- `ClientFile` and `Fileinfo` -/
structure Fileinfo where
  filename : List Byte
  length_eq : filename.length = filenameLength
  filelenth : UInt32
  deriving DecidableEq

/-- `sizeof(Fileinfo)` -/
def sizeofFileinfo : Nat := 264

namespace Fileinfo

def toBytes (r : Fileinfo) : List Byte := r.filename ++ leBytes r.filelenth

@[simp] theorem length_toBytes (r : Fileinfo) : r.toBytes.length = sizeofFileinfo := by
  simp only [toBytes, List.length_append, r.length_eq, length_leBytes]
  rfl

/-- The record in the first bytes of a piece of memory. -/
def ofBytes (l : List Byte) : Fileinfo where
  filename := (l ++ List.replicate filenameLength 0).take filenameLength
  length_eq := by simp
  filelenth := leWord (l.drop filenameLength)

/-- What `recv` leaves in a record that held `r`, when it returns these bytes. -/
def overlay (r : Fileinfo) (got : List Byte) : Fileinfo :=
  ofBytes (got ++ r.toBytes.drop got.length)

theorem ofBytes_toBytes_append (r : Fileinfo) (l : List Byte) : ofBytes (r.toBytes ++ l) = r := by
  have hname : (ofBytes (r.toBytes ++ l)).filename = r.filename := by
    simp only [ofBytes, toBytes, List.append_assoc]
    rw [← r.length_eq]
    exact List.take_left
  have hlen : (ofBytes (r.toBytes ++ l)).filelenth = r.filelenth := by
    simp only [ofBytes, toBytes, List.append_assoc]
    rw [← r.length_eq, List.drop_left, leWord_leBytes_append]
  cases r
  cases h : ofBytes _
  rw [h] at hname hlen
  cases hname
  cases hlen
  rfl

/-- A record that arrives whole replaces the old one. -/
theorem overlay_toBytes (r r' : Fileinfo) : r.overlay r'.toBytes = r' :=
  ofBytes_toBytes_append r' _

end Fileinfo

end Build1
end FileTransfer
