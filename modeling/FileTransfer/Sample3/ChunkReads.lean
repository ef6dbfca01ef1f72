import FileTransfer.Lib.Run
import FileTransfer.Sample3.FilePhase
import FileTransfer.Sample3.Reliable

/-!
# The chunks that `send_file` reads

The read loop of `send_file` against `copy_2_winbuf`, for any results of `send_all_win_packets`.  A chunk
read while the window is full is not copied, and no result says so: `reads_numbered_iff` states when every
chunk enters the window.
-/

namespace FileTransfer
namespace Sample3

/-- What a call of `send_all_win_packets` with a result that is not negative leaves behind. -/
structure Sent where
  winBufPos : Nat
  winBuf : Nat → UdpPacket

/-- The read loop of `send_file`: the object, the unread bytes and the end-of-file flag, and as history
the chunks read, and the window before and after `copy_2_winbuf` was given each of them. -/
structure Reading where
  lib : SockLib
  rest : List Byte
  eof : Bool
  reads : List Payload
  windows : List (List UdpPacket × List UdpPacket)

namespace Reading

/-- The loop before the first read. -/
def start (lib : SockLib) (content : List Byte) : Reading where
  lib := lib
  rest := content
  eof := false
  reads := []
  windows := []

/-- One pass of the loop; `sent` is what `send_all_win_packets` leaves if `copy_2_winbuf` calls it. -/
def step (r : Reading) (sent : Sent) : Option Reading :=
  if r.eof then none
  else
    let buf := Payload.ofBytes (r.rest.take bufferLength)
    let (lib, full) := r.lib.copy2Winbuf buf
    some {
      lib := if full then { lib with winBufPos := sent.winBufPos, winBuf := sent.winBuf } else lib
      rest := r.rest.drop bufferLength
      eof := r.rest.length < bufferLength
      reads := r.reads ++ [buf]
      windows := r.windows ++ [(r.lib.window, lib.window)] }

/-- `send_all_win_packets` leaves a window that fits. -/
def SentOk (r : Reading) (sent : Sent) : Prop := sent.winBufPos ≤ r.lib.wSize

instance (r : Reading) : DecidablePred r.SentOk := fun sent =>
  inferInstanceAs (Decidable (sent.winBufPos ≤ r.lib.wSize))

/-- Packets with these data and consecutive numbers from `seq` on. -/
def numberFrom (seq : UInt32) (data : List Payload) : List UdpPacket :=
  data.zipIdx.map fun x => ⟨seqField (seq + UInt32.ofNat x.2), .request, x.1⟩

/-- Each call of `copy_2_winbuf` has left the window as it was, with the packet of its chunk behind it; the
packets are numbered from `seq` on. -/
def Numbered (seq : UInt32) (r : Reading) : Prop :=
  r.windows.map Prod.snd =
    List.zipWith (fun window udp => window ++ [udp]) (r.windows.map Prod.fst) (numberFrom seq r.reads)

instance (seq : UInt32) : DecidablePred (Numbered seq) := fun r =>
  inferInstanceAs (Decidable (r.windows.map Prod.snd = _))

theorem numberFrom_append (seq : UInt32) (data : List Payload) (p : Payload) :
    numberFrom seq (data ++ [p]) =
      numberFrom seq data ++ [⟨seqField (seq + UInt32.ofNat data.length), .request, p⟩] := by
  simp [numberFrom, List.zipIdx_append]

theorem length_numberFrom (seq : UInt32) (data : List Payload) :
    (numberFrom seq data).length = data.length := by
  simp [numberFrom]

/-- One more call. -/
theorem numbered_snoc {seq : UInt32} {r r' : Reading} {buf : Payload} {before after : List UdpPacket}
    (hlen : r.windows.length = r.reads.length) (hreads : r'.reads = r.reads ++ [buf])
    (hwindows : r'.windows = r.windows ++ [(before, after)]) :
    r'.Numbered seq ↔ r.Numbered seq ∧
      after = before ++ [⟨seqField (seq + UInt32.ofNat r.reads.length), .request, buf⟩] := by
  have hcalls : (r.windows.map Prod.fst).length = (numberFrom seq r.reads).length := by
    rw [List.length_map, hlen, length_numberFrom]
  rw [Numbered, Numbered, hreads, hwindows, numberFrom_append, List.map_append, List.map_append,
    List.zipWith_append hcalls]
  constructor
  · intro heq
    obtain ⟨hinit, hlast⟩ := List.append_inj' heq rfl
    exact ⟨hinit, by simpa using hlast⟩
  · rintro ⟨hinit, hlast⟩
    rw [hinit, hlast]
    rfl

/-- What holds in every state of the loop. -/
structure Inv (s : SockLib) (content : List Byte) (r : Reading) : Prop where
  size : r.lib.wSize = s.wSize
  calls : r.windows.length = r.reads.length
  chunks : r.reads = (List.range r.reads.length).map (chunk content)
  file : ReadPart content r.reads.length r.rest r.eof
  /-- `seq` counts the chunks that were numbered -/
  seq : r.Numbered s.seq → r.lib.seq = s.seq + UInt32.ofNat r.reads.length
  exact : r.Numbered s.seq ↔ ∀ w ∈ r.windows, w.1.length < s.wSize

section

variable {s : SockLib} {content : List Byte} {r r' : Reading} {sent : Sent} {es : List Sent}

theorem copy2Winbuf_window_of_lt {buf : Payload} (h : s.winBufPos < s.wSize) :
    (s.copy2Winbuf buf).1.window = s.window ++ [⟨seqField s.seq, .request, buf⟩] := by
  have hold : (List.range s.winBufPos).map
      (Function.update s.winBuf s.winBufPos ⟨seqField s.seq, .request, buf⟩) = s.window := by
    refine List.map_congr_left fun i hi => ?_
    exact Function.update_of_ne (Nat.ne_of_lt (List.mem_range.1 hi)) _ _
  rw [SockLib.copy2Winbuf_of_lt h, SockLib.window]
  simp only [List.range_succ, List.map_append, hold]
  simp

theorem Inv.start (s : SockLib) (content : List Byte) : Inv s content (start s content) := by
  refine ⟨rfl, rfl, rfl, ⟨?_, Nat.zero_le _⟩, fun _ => ?_, ?_⟩
  · show content = content.drop (bufferLength * 0)
    simp
  · show s.seq = s.seq + UInt32.ofNat 0
    simp
  · simp [Numbered, Reading.start, numberFrom]

theorem Inv.step (h : Inv s content r) (hstep : r.step sent = some r') : Inv s content r' := by
  have heof : r.eof = false := by
    by_contra htrue
    simp [Reading.step, htrue] at hstep
  have hread := h.file
  rw [heof] at hread
  obtain ⟨hchunk, hfile⟩ := ReadPart.next hread
  simp only [Reading.step, heof, Bool.false_eq_true, if_false, Option.some.injEq] at hstep
  have hchunks : r.reads ++ [Payload.ofBytes (r.rest.take bufferLength)] =
      (List.range (r.reads.length + 1)).map (chunk content) := by
    rw [List.range_succ, List.map_append, ← h.chunks, hchunk]
    rfl
  -- what `send_all_win_packets` leaves in the window is any, but not its size and its numbers
  have hsent : ∀ (lib : SockLib) (full : Bool),
      (if full then { lib with winBufPos := sent.winBufPos, winBuf := sent.winBuf } else lib).wSize =
        lib.wSize ∧
      (if full then { lib with winBufPos := sent.winBufPos, winBuf := sent.winBuf } else lib).seq =
        lib.seq := by
    intro lib full
    cases full <;> exact ⟨rfl, rfl⟩
  have hnumbered : r'.Numbered s.seq ↔ r.Numbered s.seq ∧
      (r.lib.copy2Winbuf (.ofBytes (r.rest.take bufferLength))).1.window = r.lib.window ++
        [⟨seqField (s.seq + UInt32.ofNat r.reads.length), .request,
          .ofBytes (r.rest.take bufferLength)⟩] :=
    numbered_snoc h.calls (by rw [← hstep]) (by rw [← hstep])
  have hwindow : r.lib.window.length = r.lib.winBufPos := by simp [SockLib.window]
  by_cases hroom : r.lib.winBufPos < r.lib.wSize
  · have hcopy := @SockLib.copy2Winbuf_of_lt r.lib (.ofBytes (r.rest.take bufferLength)) hroom
    -- the packet is the next one, so only what came before it counts
    have hsame : r'.Numbered s.seq ↔ r.Numbered s.seq := by
      rw [hnumbered, copy2Winbuf_window_of_lt hroom]
      exact ⟨And.left, fun hinit => ⟨hinit, by rw [h.seq hinit]⟩⟩
    subst hstep
    refine ⟨?_, ?_, ?_, ?_, fun hall => ?_, ?_⟩
    · rw [(hsent _ _).1, hcopy]
      exact h.size
    · simpa using h.calls
    · simpa using hchunks
    · simpa using hfile
    · rw [(hsent _ _).2, hcopy]
      simp only [List.length_append, List.length_singleton, UInt32.ofNat_add]
      rw [h.seq (hsame.1 hall), UInt32.add_assoc]
      rfl
    · rw [hsame, h.exact]
      simp only [List.mem_append, List.mem_singleton]
      constructor
      · rintro hall w (hw | rfl)
        · exact hall w hw
        · rwa [hwindow, ← h.size]
      · exact fun hall w hw => hall w (Or.inl hw)
  · have hcopy := @SockLib.copy2Winbuf_of_not_lt r.lib (.ofBytes (r.rest.take bufferLength)) hroom
    -- the chunk is lost: the window is as long as before
    have hlost : ¬ r'.Numbered s.seq := by
      rw [hnumbered, hcopy]
      rintro ⟨-, hlast⟩
      simpa using congrArg List.length hlast
    subst hstep
    refine ⟨?_, ?_, ?_, ?_, fun hall => absurd hall hlost, ?_⟩
    · rw [(hsent _ _).1, hcopy]
      exact h.size
    · simpa using h.calls
    · simpa using hchunks
    · simpa using hfile
    · refine iff_of_false hlost fun hall => hroom ?_
      have hlast := hall (r.lib.window, _) (List.mem_append_right _ (List.mem_singleton_self _))
      rwa [hwindow, ← h.size] at hlast

end

end Reading

/-- For every file, every object and all results of `send_all_win_packets`: the chunks are read in file
order, `copy_2_winbuf` is called once for each of them, and it appends each of them to the window under the
next number exactly when the window had room at every call. -/
theorem reads_numbered_iff {s : SockLib} {content : List Byte} {r : Reading} {es : List Sent}
    (hrun : Run Reading.step Reading.SentOk (.start s content) es r) :
    r.reads = (List.range r.reads.length).map (chunk content) ∧
      r.windows.length = r.reads.length ∧
      (r.Numbered s.seq ↔ ∀ w ∈ r.windows, w.1.length < s.wSize) := by
  have hinv : Reading.Inv s content r :=
    hrun.invariant (fun _ _ _ ht _ hst => ht.step hst) (.start s content)
  exact ⟨hinv.chunks, hinv.calls, hinv.exact⟩

/-- A window of two slots, and a file of three chunks. -/
def twoSlots : SockLib := { SockLib.zero with wSize := 2 }
def threeChunks : List Byte := List.replicate 2500 7

/-- The acknowledgements confirm everything. -/
theorem reads_numbered_confirmed :
    ∃ r : Reading, r.reads = (List.range r.reads.length).map (chunk threeChunks) ∧
      r.windows.length = r.reads.length ∧
      (r.Numbered twoSlots.seq ↔ ∀ w ∈ r.windows, w.1.length < twoSlots.wSize) ∧
      r.reads.length = 3 := by
  have hex : ∃ r, Run Reading.step Reading.SentOk (.start twoSlots threeChunks)
      [⟨0, fun _ => .zero⟩, ⟨0, fun _ => .zero⟩, ⟨0, fun _ => .zero⟩] r ∧ r.reads.length = 3 :=
    exists_run_of_exec (by decide +kernel)
  obtain ⟨r, hrun, hlen⟩ := hex
  obtain ⟨hchunks, hcalls, hiff⟩ := reads_numbered_iff hrun
  exact ⟨r, hchunks, hcalls, hiff, hlen⟩

/-- A NACK frees nothing when the second chunk has filled the window, and the third one is lost. -/
theorem chunk_lost :
    ∃ r, Run Reading.step Reading.SentOk (.start twoSlots threeChunks)
        [⟨0, fun _ => .zero⟩, ⟨2, fun _ => .zero⟩, ⟨2, fun _ => .zero⟩] r ∧ ¬ r.Numbered twoSlots.seq :=
  exists_run_of_exec (by decide +kernel)

end Sample3
end FileTransfer
