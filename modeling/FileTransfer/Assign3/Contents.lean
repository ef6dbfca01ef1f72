import FileTransfer.Assign3.LastChunk
import FileTransfer.Assign3.Operations

/-!
# The content of a file over a calm network

From the two heads of the loops to the end of the file: pairs while more than a buffer is left (`Streams`), then
the final chunk.  The client's final chunk arrives whole.  The server's is cut by the four bytes of its number,
so that the last bytes of a download are zeros.
-/

namespace FileTransfer
namespace Assign3

open Udp

/-! ## A sending loop -/

/-- A sending loop with `rest` to go. -/
def FileSending.of (rest : List Byte) (filebuffer : Buffer) : FileSending :=
  ⟨rest, rest.length, filebuffer⟩

section Loop

variable {rest : List Byte} {filebuffer : Buffer}

theorem fread_more (h : bufferLength < rest.length) :
    (FileSending.of rest filebuffer).fread.bytes = rest.take bufferLength := by
  have hmore : (FileSending.of rest filebuffer).sizeleft > bufferLength := Int.ofNat_lt.2 h
  have hread : (FileSending.of rest filebuffer).fread =
      filebuffer.overlay (rest.take bufferLength) := by
    rw [FileSending.fread, if_pos hmore]
    rfl
  have hlen : (rest.take bufferLength).length = bufferLength := List.length_take_of_le h.le
  have hdrop : filebuffer.bytes.drop bufferLength = [] :=
    List.drop_of_length_le (Nat.le_of_eq filebuffer.length_eq)
  simp only [hread, Buffer.overlay, hlen, hdrop, List.append_nil, List.take_take, Nat.min_self]

theorem call_more (h : bufferLength < rest.length) :
    (FileSending.of rest filebuffer).call = .udpsend (FileSending.of rest filebuffer).fread :=
  if_pos (Int.ofNat_lt.2 h)

theorem next_more (h : bufferLength < rest.length) : (FileSending.of rest filebuffer).next =
    .of (rest.drop bufferLength) (FileSending.of rest filebuffer).fread := by
  have hlen : ((rest.drop bufferLength).length : Int) = rest.length - bufferLength := by
    rw [List.length_drop]
    exact Int.natCast_sub h.le
  simp only [FileSending.of, FileSending.next, hlen]

/-- The final chunk. -/
theorem call_last (filebuffer : Buffer) (h : rest.length ≤ bufferLength) (hpos : 0 < rest.length) :
    ∃ m, (FileSending.of rest filebuffer).call = .udplastsend m ∧ m.sendflag = rest.length ∧
      m.payload = rest := by
  obtain ⟨m, hcall, hflag, hpayload⟩ := call_final (x := .of rest filebuffer) (Int.ofNat_lt.2 hpos)
    (Int.ofNat_le.2 h) (Int.le_refl _)
  have hflag' : m.sendflag = rest.length := Int.ofNat_inj.1 hflag
  refine ⟨m, hcall, hflag', ?_⟩
  rw [hpayload, hflag']
  exact List.take_length

theorem sizeleft_last (h : rest.length ≤ bufferLength) :
    (FileSending.of rest filebuffer).next.sizeleft ≤ 0 :=
  Int.sub_nonpos_of_le (Int.ofNat_le.2 h)

/-- A packet that brings the final chunk whole. -/
theorem take_data {m : Message} (hpos : 0 < rest.length) (hflag : m.sendflag = rest.length)
    (hpayload : m.payload = rest) : m.data.bytes.take rest.length = rest := by
  have hisIn := m.isIn_data 0
  rw [Message.IsIn, length_payload (by omega), hpayload, hflag] at hisIn
  exact hisIn

end Loop

/-! ## All but the last buffer -/

section Streams

variable {π : Type*} {A : App π}

/-- `snd` is a sending loop with so much to go, and `rcv` a receiving loop that has written its first
argument and waits for so many bytes. -/
structure Streams (A : App π) (snd : List Byte → Buffer → π) (rcv : List Byte → Nat → π) : Prop where
  sends {rest : List Byte} {buf : Buffer} : bufferLength < rest.length →
    A.call (snd rest buf) = some (.udpsend (FileSending.of rest buf).fread)
  sent {rest : List Byte} {buf b : Buffer} : bufferLength < rest.length →
    A.resume (snd rest buf) (.udpsend b) = snd (rest.drop bufferLength) (FileSending.of rest buf).fread
  takes {done : List Byte} {n : Nat} : bufferLength < n → A.call (rcv done n) = some .udprecv
  taken {done : List Byte} {n : Nat} {chunk : Buffer} : bufferLength < n →
    A.resume (rcv done n) (.udprecv (some chunk)) = rcv (done ++ chunk.bytes) (n - bufferLength)
  listens {done : List Byte} {n : Nat} {d : Call} : 0 < n → A.call (rcv done n) = some d →
    d = .udplastrecv ∨ d = .udprecv

/-- Every run comes to the last buffer, or to an empty file. -/
theorem Streams.leads {snd : List Byte → Buffer → π} {rcv : List Byte → Nat → π} (h : Streams A snd rcv)
    {P : Joint π → Prop} {a b : Int} {φ ψ : Frame} {e f : Endpoint π} {rest : List Byte} (done : List Byte)
    {buf : Buffer} (hagree : ψ.recTempSeq = φ.sendTempSeq)
    (hthen : ∀ e f front last buf φ' ψ', rest = front ++ last → bufferLength ∣ front.length →
      last.length ≤ bufferLength → (front ≠ [] → last ≠ []) → φ'.side = φ.side → ψ'.side = ψ.side →
      Placed e (snd last buf) .idle a b φ' → Resting A f (rcv (done ++ front) last.length) b a ψ' →
      Leads A P ⟨e, f, [], []⟩)
    (he : Placed e (snd rest buf) .idle a b φ) (hf : Resting A f (rcv done rest.length) b a ψ) :
    Leads A P ⟨e, f, [], []⟩ := by
  induction hn : rest.length using Nat.strong_induction_on generalizing rest done buf φ ψ e f with
  | _ n ih =>
      subst hn
      by_cases hmore : bufferLength < rest.length
      · have hbuffer : 0 < bufferLength := by decide
        let chunk := (FileSending.of rest buf).fread
        have hbytes : chunk.bytes = rest.take bufferLength := fread_more hmore
        have hlen : (rest.drop bufferLength).length = rest.length - bufferLength := List.length_drop
        let T : PairExchange π := ⟨snd rest buf, rcv done rest.length, chunk, a, b, φ, ψ⟩
        have hcalls : T.Calls A := ⟨h.sends hmore, h.takes hmore, hagree⟩
        have hx : T.x' A = snd (rest.drop bufferLength) chunk := h.sent hmore
        have hy : T.y' A = rcv (done ++ rest.take bufferLength) (rest.drop bufferLength).length := by
          rw [hlen, ← hbytes]
          exact h.taken hmore
        have hquiet : ∀ d, A.call (T.y' A) = some d → d = .udplastrecv ∨ d = .udprecv := by
          intro d hd
          rw [hy] at hd
          exact h.listens (by omega) hd
        refine PairExchange.leads hcalls (quiet_listening hquiet) (fun f hf => ⟨1, .inl ⟨rfl, hf⟩⟩) ?_
          he hf
        rintro e f he ⟨k, hf⟩
        have hf' := hf.resting
        rw [hx] at he
        rw [hy] at hf'
        refine ih _ (by omega) _ (by simpa [T, PairExchange.φ', PairExchange.ψ'] using hagree) ?_ he hf' rfl
        intro e f front last buf' φ' ψ' hrest hfront hlast hne hφ hψ he hf
        refine hthen e f (rest.take bufferLength ++ front) last buf' φ' ψ' ?_ ?_ hlast ?_ hφ hψ he ?_
        · rw [List.append_assoc, ← hrest, List.take_append_drop]
        · rw [List.length_append, List.length_take_of_le hmore.le]
          exact Nat.dvd_add (Nat.dvd_refl _) hfront
        · rintro - rfl
          have hempty : front = [] := by
            by_contra hfront
            exact hne hfront rfl
          rw [hempty] at hrest
          rw [List.append_nil, List.drop_eq_nil_iff] at hrest
          omega
        · rwa [List.append_assoc] at hf
      · exact hthen e f [] rest buf φ ψ rfl (Nat.dvd_zero _) (by omega) (fun h => absurd rfl h) rfl rfl he
          (by rwa [List.append_nil])

end Streams

/-! ## `PutFileToServer` -/

theorem FileReceiving.call_listens {x : FileReceiving} {d : Call} (h : x.call = d) :
    d = .udplastrecv ∨ d = .udprecv := by
  unfold call at h
  split at h
  · exact .inr h.symm
  · exact .inl h.symm

/-- What was received is written. -/
def Client.wrote (c : Client) (name bytes : List Byte) : Client :=
  { c with dir := c.dir.append name bytes }

def Server.wrote (s : Server) (name bytes : List Byte) : Server :=
  { s with dir := s.dir.append name bytes }

section Upload

variable {c : Client} {s : Server} {name : List Byte}

theorem Client.sendLoop_goto (c : Client) («at» : ClientAt) (x : FileSending) :
    (c.goto «at»).sendLoop x = c.sendLoop x := by
  unfold sendLoop
  split <;> rfl

theorem Server.recvLoop_goto (s : Server) («at» : ServerAt) (x : FileReceiving) :
    (s.goto «at»).recvLoop x = s.recvLoop x := by
  unfold recvLoop
  split <;> rfl

/-- A receiving loop of the server listens, also when it has ended. -/
theorem Server.recvLoop_listens {x : FileReceiving} {d : Call}
    (h : ftpApp.call (.server (s.recvLoop x)) = some d) : d = .udplastrecv ∨ d = .udprecv := by
  unfold recvLoop at h
  split at h
  · exact FileReceiving.call_listens (x := x) (Option.some.inj h)
  · exact .inl (Option.some.inj h).symm

theorem Server.wrote_nil (s : Server) (name : List Byte) : s.wrote name [] = s := by
  simp only [wrote, Dir.append_nil]

theorem Server.wrote_wrote (s : Server) (name l m : List Byte) :
    (s.wrote name l).wrote name m = s.wrote name (l ++ m) := by
  simp only [wrote, Dir.append_append]

theorem streams_upload (c : Client) (s : Server) (name : List Byte) :
    Streams ftpApp (fun rest buf => .client (c.sendLoop (.of rest buf)))
      fun done n => .server ((s.wrote name done).recvLoop ⟨name, n⟩) where
  sends := by
    intro rest buf h
    have hpos : (FileSending.of rest buf).sizeleft > 0 := Int.ofNat_lt.2 (Nat.zero_lt_of_lt h)
    rw [Client.sendLoop, if_pos hpos]
    exact congrArg some (call_more h)
  sent := by
    intro rest buf b h
    have hpos : (FileSending.of rest buf).sizeleft > 0 := Int.ofNat_lt.2 (Nat.zero_lt_of_lt h)
    rw [Client.sendLoop, if_pos hpos, ← next_more h, ← Client.sendLoop_goto c (.sending (.of rest buf))]
    rfl
  takes := by
    intro done n h
    have hpos : (⟨name, n⟩ : FileReceiving).fsize > 0 := Int.ofNat_lt.2 (Nat.zero_lt_of_lt h)
    rw [Server.recvLoop, if_pos hpos]
    exact congrArg some (if_pos (Int.ofNat_lt.2 h))
  taken := by
    intro done n chunk h
    have hpos : (⟨name, n⟩ : FileReceiving).fsize > 0 := Int.ofNat_lt.2 (Nat.zero_lt_of_lt h)
    rw [Server.recvLoop, if_pos hpos, Int.natCast_sub h.le, ← Server.wrote_wrote,
      ← Server.recvLoop_goto _ (.receiving ⟨name, n⟩)]
    rfl
  listens := by
    intro done n d _ h
    exact Server.recvLoop_listens h

variable {J : Joint Program} {a b : Int} {φ ψ : Frame} {e f : Endpoint Program} {rest : List Byte}
  {buf : Buffer}

/-- The final chunk goes over. -/
theorem leads_upload_last (ha : a = 0 ∨ a = 1) (hφ : φ.side = .client) (hle : rest.length ≤ bufferLength)
    (hpos : 0 < rest.length) (hready : Ready c (1 - a))
    (he : Placed e (.client (c.sendLoop (.of rest buf))) .idle a b φ)
    (hf : Resting ftpApp f (.server (s.recvLoop ⟨name, rest.length⟩)) b a ψ) :
    Leads ftpApp (fun J => ∃ ψ', ψ'.side = ψ.side ∧
      Between (c.report .uploaded) ((s.wrote name rest).goto .loop) (1 - a) b φ ψ' J)
      ⟨e, f, [], []⟩ := by
  obtain ⟨m, hcall, hflag, hpayload⟩ := call_last buf hle hpos
  have hsend : c.sendLoop (.of rest buf) = c.goto (.sending (.of rest buf)) :=
    if_pos (Int.ofNat_lt.2 hpos)
  have hrecv : s.recvLoop ⟨name, rest.length⟩ = s.goto (.receiving ⟨name, rest.length⟩) :=
    if_pos (Int.ofNat_lt.2 hpos)
  rw [hsend] at he
  rw [hrecv] at hf
  let T : Exchange Program := ⟨.client (c.goto (.sending (.of rest buf))),
    .server (s.goto (.receiving ⟨name, rest.length⟩)), m, ⟨a, m.data⟩, a, b, φ, ψ, ha⟩
  have hcopy : T.copy = ⟨⟨a, m.data⟩, sizeofUdppacket, .message m⟩ := by
    simp only [T, Exchange.copy, firstCopy, hφ]
  have hcalls : T.Calls ftpApp := by
    refine ⟨congrArg some hcall, congrArg some (if_neg (by simpa using hle)), ?_, rfl⟩
    rw [hcopy]
    intro r
    rw [recvfrom_full _ rfl]
    exact ⟨rfl, Int.natCast_pos.2 (by decide)⟩
  have hx : T.x' ftpApp = .client (c.report .uploaded) := by
    have hdone : ¬ (FileSending.of rest buf).next.sizeleft > 0 := Int.not_lt.2 (sizeleft_last hle)
    refine congrArg Program.client ?_
    change (c.goto _).sendLoop _ = _
    rw [Client.sendLoop_goto, Client.sendLoop, if_neg hdone]
  have hy : T.y' ftpApp = .server ((s.wrote name rest).goto .loop) := by
    have hwritten : m.data.bytes.take (rest.length : Int).toNat = rest := by
      rw [Int.toNat_natCast]
      exact take_data hpos hflag hpayload
    refine congrArg Program.server ?_
    change ((s.goto _).wrote name (m.data.bytes.take (rest.length : Int).toNat)).recvLoop ⟨name, 0⟩ = _
    rw [hwritten]
    rfl
  have hopen : T.Open ftpApp ⟨e, f, [], []⟩ := ⟨.due he, hf, rfl⟩
  exact (leads_loop hopen hcalls hx hy rfl rfl hready).trans fun J hJ => .now ⟨T.ψ', rfl, hJ⟩

/-- The content goes over, and both are at rest. -/
theorem leads_upload (ha : a = 0 ∨ a = 1) (hφ : φ.side = .client)
    (hagree : ψ.recTempSeq = φ.sendTempSeq) (hready : Ready c (if rest = [] then a else 1 - a))
    (he : Placed e (.client (c.sendLoop (.of rest buf))) .idle a b φ)
    (hf : Resting ftpApp f (.server (s.recvLoop ⟨name, rest.length⟩)) b a ψ) :
    Leads ftpApp (fun J => ∃ φ', φ'.side = φ.side ∧ ∃ ψ', ψ'.side = ψ.side ∧
      Between (c.report .uploaded) ((s.wrote name rest).goto .loop) (if rest = [] then a else 1 - a) b
        φ' ψ' J) ⟨e, f, [], []⟩ := by
  rw [← s.wrote_nil name] at hf
  refine (streams_upload c s name).leads [] hagree ?_ he hf
  rintro e' f' front last buf' φ' ψ' hrest - hlast hne hφ' hψ' he' hf'
  rw [List.nil_append] at hf'
  cases last with
  | nil =>
      -- an empty file
      have hfront : front = [] := by
        by_contra h
        exact hne h rfl
      rw [hfront, List.append_nil] at hrest
      subst hrest hfront
      exact .now ⟨φ', hφ', ψ', hψ', rfl, rfl, hready, .menu he', hf', rfl, rfl⟩
  | cons x l =>
      have hnonempty : rest ≠ [] := by
        rw [hrest]
        simp
      rw [if_neg hnonempty] at hready ⊢
      refine (leads_upload_last ha (hφ'.trans hφ) hlast (Nat.succ_pos _) hready he' hf').trans
        fun J ⟨ψ'', hψ'', hJ⟩ => ?_
      rw [Server.wrote_wrote, ← hrest] at hJ
      exact .now ⟨φ', hφ', ψ'', hψ''.trans hψ', hJ⟩

end Upload

/-! ## `PutFileToClient` -/

section Download

variable {c : Client} {s : Server} {name : List Byte}

theorem Server.sendLoop_goto (s : Server) («at» : ServerAt) (x : FileSending) :
    (s.goto «at»).sendLoop x = s.sendLoop x := by
  unfold sendLoop
  split <;> rfl

theorem Client.recvLoop_goto (c : Client) («at» : ClientAt) (x : FileReceiving) :
    (c.goto «at»).recvLoop x = c.recvLoop x := by
  unfold recvLoop
  split <;> rfl

theorem Client.wrote_nil (c : Client) (name : List Byte) : c.wrote name [] = c := by
  simp only [wrote, Dir.append_nil]

theorem Client.wrote_wrote (c : Client) (name l m : List Byte) :
    (c.wrote name l).wrote name m = c.wrote name (l ++ m) := by
  simp only [wrote, Dir.append_append]

theorem sendLoop_of (s : Server) (rest : List Byte) (buf : Buffer) :
    s.sendLoop (.of rest buf) = s.goto (.sending (.of rest buf)) :=
  if_pos (Int.natCast_nonneg _)

theorem streams_download (s : Server) (c : Client) (name : List Byte) :
    Streams ftpApp (fun rest buf => .server (s.sendLoop (.of rest buf)))
      fun done n => .client ((c.wrote name done).recvLoop ⟨name, n⟩) where
  sends := by
    intro rest buf h
    rw [sendLoop_of]
    exact congrArg some (call_more h)
  sent := by
    intro rest buf b h
    rw [sendLoop_of, ← next_more h, ← Server.sendLoop_goto s (.sending (.of rest buf))]
    rfl
  takes := by
    intro done n h
    have hpos : (⟨name, n⟩ : FileReceiving).fsize > 0 := Int.ofNat_lt.2 (Nat.zero_lt_of_lt h)
    rw [Client.recvLoop, if_pos hpos]
    exact congrArg some (if_pos (Int.ofNat_lt.2 h))
  taken := by
    intro done n chunk h
    have hpos : (⟨name, n⟩ : FileReceiving).fsize > 0 := Int.ofNat_lt.2 (Nat.zero_lt_of_lt h)
    rw [Client.recvLoop, if_pos hpos, Int.natCast_sub h.le, ← Client.wrote_wrote,
      ← Client.recvLoop_goto _ (.receiving ⟨name, n⟩)]
    rfl
  listens := by
    intro done n d hpos h
    have hpos' : (⟨name, n⟩ : FileReceiving).fsize > 0 := Int.ofNat_lt.2 hpos
    rw [Client.recvLoop, if_pos hpos'] at h
    exact FileReceiving.call_listens (x := ⟨name, n⟩) (Option.some.inj h)

theorem zeros_bytes : (Buffer.ofBytes []).bytes = List.replicate bufferLength 0 := by
  simp only [Buffer.ofBytes, List.nil_append, List.take_replicate, Nat.min_self]

/-- A packet whose data field was cleared before the first `n` bytes came. -/
theorem brings_cut {m : Message} {b : Int} {n : Nat} (hfour : 4 ≤ n) (hle : n ≤ bufferLength) :
    Brings ⟨⟨b, m.data⟩, n, .message m⟩
      ⟨b, (Buffer.ofBytes []).overlay (m.data.bytes.take (n - 4))⟩ := by
  have hsize : n ≤ sizeofUdppacket := Nat.le_trans hle (by decide)
  intro r
  have hclear : r.data.clear bufferLength = .ofBytes [] := by
    rw [Buffer.clear, ← zeros_bytes]
    exact r.data.overlay_whole (.ofBytes [])
  have hread : recvfrom (r.clear bufferLength) sizeofUdppacket ⟨⟨b, m.data⟩, n, .message m⟩ =
      (⟨b, (Buffer.ofBytes []).overlay (m.data.bytes.take (n - 4))⟩, (n : Int)) := by
    simp only [recvfrom, if_pos hsize, Nat.min_eq_left hsize, Udppacket.overlay, if_pos hfour,
      Udppacket.clear, hclear]
  rw [hread]
  exact ⟨rfl, Int.natCast_pos.2 (by omega)⟩

/-- What is written of it. -/
theorem take_cut {l rest : List Byte} {n : Nat} (hn : rest.length = n) (hl : l.take n = rest)
    (hfour : 4 ≤ n) (hle : n ≤ bufferLength) :
    ((Buffer.ofBytes []).overlay (l.take (n - 4))).bytes.take n = received rest := by
  have hcut : l.take (n - 4) = rest.take (n - 4) := by
    rw [← hl, List.take_take, Nat.min_eq_left (Nat.sub_le n 4)]
  have hlen : (rest.take (n - 4)).length = n - 4 := List.length_take_of_le (by omega)
  have hzeros : ∀ k, 4 ≤ k → (List.replicate k (0 : Byte)).take 4 = List.replicate 4 0 := by
    intro k hk
    rw [List.take_replicate, Nat.min_eq_left hk]
  rw [Buffer.overlay, List.take_take, Nat.min_eq_left hle, hcut, hlen, zeros_bytes, List.drop_replicate,
    List.take_append, hlen, List.take_of_length_le (by omega), received, hn, Nat.min_eq_right hfour]
  rw [show n - (n - 4) = 4 by omega, hzeros _ (by omega)]

variable {J : Joint Program} {a b : Int} {φ ψ : Frame} {e f : Endpoint Program} {rest : List Byte}
  {buf : Buffer}

/-- The final chunk goes over, as far as it does. -/
theorem leads_download_last (hb : b = 0 ∨ b = 1) (hψ : ψ.side = .server)
    (hlt : rest.length < bufferLength) (hfour : 4 ≤ rest.length) (hready : Ready c a)
    (he : Placed e (.server (s.sendLoop (.of rest buf))) .idle b a ψ)
    (hf : Resting ftpApp f (.client (c.recvLoop ⟨name, rest.length⟩)) a b φ) :
    Leads ftpApp (fun J => ∃ φ', φ'.side = φ.side ∧
      Between ((c.wrote name (received rest)).report .downloaded) (s.goto .loop) a (1 - b) φ' ψ J.swap)
      ⟨e, f, [], []⟩ := by
  have hpos : 0 < rest.length := by omega
  obtain ⟨m, hcall, hflag, hpayload⟩ := call_last buf hlt.le hpos
  have hrecv : c.recvLoop ⟨name, rest.length⟩ = c.goto (.receiving ⟨name, rest.length⟩) :=
    if_pos (Int.ofNat_lt.2 hpos)
  rw [sendLoop_of] at he
  rw [hrecv] at hf
  let p : Udppacket := ⟨b, (Buffer.ofBytes []).overlay (m.data.bytes.take (rest.length - 4))⟩
  let T : Exchange Program := ⟨.server (s.goto (.sending (.of rest buf))),
    .client (c.goto (.receiving ⟨name, rest.length⟩)), m, p, b, a, ψ, φ, hb⟩
  have hcopy : T.copy = ⟨⟨b, m.data⟩, rest.length, .message m⟩ := by
    have hlen : (if m.sendflag = 0 then sizeofUdppacket else m.sendflag) = rest.length := by
      rw [if_neg (by omega), hflag]
    simp only [T, Exchange.copy, firstCopy, hψ, hlen]
  have hcalls : T.Calls ftpApp := by
    refine ⟨congrArg some hcall, congrArg some (if_neg (by simpa using hlt.le)), ?_, rfl⟩
    rw [hcopy]
    exact brings_cut hfour hlt.le
  have hx : T.x' ftpApp = .server (s.goto .loop) := by
    have hdone : ¬ (FileSending.of rest buf).next.sizeleft ≥ 0 := by
      change ¬ (rest.length : Int) - bufferLength ≥ 0
      omega
    refine congrArg Program.server ?_
    change (s.goto _).sendLoop _ = _
    rw [Server.sendLoop_goto, Server.sendLoop, if_neg hdone]
  have hy : T.y' ftpApp = .client ((c.wrote name (received rest)).report .downloaded) := by
    have hwritten : p.data.bytes.take (rest.length : Int).toNat = received rest := by
      rw [Int.toNat_natCast]
      exact take_cut rfl (take_data hpos hflag hpayload) hfour hlt.le
    refine congrArg Program.client ?_
    change ((c.goto _).wrote name (p.data.bytes.take (rest.length : Int).toNat)).recvLoop ⟨name, 0⟩ = _
    rw [hwritten]
    rfl
  have hopen : T.Open ftpApp ⟨e, f, [], []⟩ := ⟨.due he, hf, rfl⟩
  exact (leads_menu hopen hcalls hx hy rfl rfl hready).trans fun J hJ => .now ⟨T.ψ', rfl, hJ⟩

theorem received_append {front last : List Byte} (h : 4 ≤ last.length) :
    received (front ++ last) = front ++ received last := by
  have hlen : (front ++ last).length - 4 = front.length + (last.length - 4) := by
    rw [List.length_append]
    omega
  have hzeros : min (front ++ last).length 4 = min last.length 4 := by
    rw [List.length_append]
    omega
  rw [received, received, hlen, hzeros, List.take_length_add_append, List.append_assoc]

/-- The content goes over, as far as it does, and both are at rest. -/
theorem leads_download (hb : b = 0 ∨ b = 1) (hψ : ψ.side = .server)
    (hagree : φ.recTempSeq = ψ.sendTempSeq) (hfour : 4 ≤ rest.length % bufferLength)
    (hready : Ready c a) (he : Placed e (.server (s.sendLoop (.of rest buf))) .idle b a ψ)
    (hf : Resting ftpApp f (.client (c.recvLoop ⟨name, rest.length⟩)) a b φ) :
    Leads ftpApp (fun J => ∃ φ', φ'.side = φ.side ∧ ∃ ψ', ψ'.side = ψ.side ∧
      Between ((c.wrote name (received rest)).report .downloaded) (s.goto .loop) a (1 - b) φ' ψ' J.swap)
      ⟨e, f, [], []⟩ := by
  rw [← c.wrote_nil name] at hf
  refine (streams_download s c name).leads [] hagree ?_ he hf
  rintro e' f' front last buf' ψ' φ' hrest hfront hlast - hψ' hφ' he' hf'
  rw [List.nil_append] at hf'
  have hmod : last.length % bufferLength = rest.length % bufferLength := by
    obtain ⟨k, hk⟩ := hfront
    rw [hrest, List.length_append, hk, Nat.mul_add_mod]
  have hlt : last.length < bufferLength := by
    refine Nat.lt_of_le_of_ne hlast fun heq => ?_
    rw [heq, Nat.mod_self] at hmod
    omega
  rw [Nat.mod_eq_of_lt hlt] at hmod
  have hfour' : 4 ≤ last.length := hmod ▸ hfour
  refine (leads_download_last (c := c.wrote name front) hb (hψ'.trans hψ) hlt hfour' hready he' hf').trans
    fun J ⟨φ'', hφ'', hJ⟩ => ?_
  rw [Client.wrote_wrote, ← received_append hfour', ← hrest] at hJ
  exact .now ⟨φ'', hφ''.trans hφ', ψ', hψ', hJ⟩

end Download

end Assign3
end FileTransfer
