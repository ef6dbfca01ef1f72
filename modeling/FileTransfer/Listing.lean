import FileTransfer.Assign3.Programs
import FileTransfer.Build1.Threads

/-!
# Listings

`listFiles` of the servers sends the names of the directory, each in an array of its own, and then a
message that starts with `@`; `listServerFiles` of the clients prints what arrives until a message starts
with `@`.  `Assign3_zcl` and `build 1` have the same two loops over different transports.  A name may
start with `@` as well, and then ends the listing that it stands in.
-/

namespace FileTransfer

/-! ## The loop of `listServerFiles` -/

namespace Listing

/-- The character that ends a listing. -/
def endMark : Byte := 64

/-- What a pass of the loop prints: the string in the buffer, unless it is empty. -/
def shown (szbuffer : List Byte) : List (List Byte) :=
  if szbuffer.take 1 = [0] then [] else [cstr szbuffer]

/-- The loop on a buffer and the messages that arrive one after the other: the names it prints, and the
messages it leaves.  `none`: it waits for another message. -/
def listLoop {μ : Type*} (data : μ → List Byte) (szbuffer : List Byte) :
    List μ → Option (List (List Byte) × List μ)
  | [] => none
  | m :: ms =>
      let next := data m ++ szbuffer.drop (data m).length
      -- `while (szbuffer[0] != '@')`, after the message has been received
      if next.take 1 = [endMark] then some (shown szbuffer, ms)
      else (listLoop data next ms).map fun r => (shown szbuffer ++ r.1, r.2)

/-- A string as the name of a file that a record has room for. -/
structure IsName (name : List Byte) : Prop where
  isText : IsText name
  nonempty : name ≠ []
  short : name.length < 260

/-- How a server writes a name and the end of a listing into its messages. -/
structure Writes {μ : Type*} (data : μ → List Byte) (size : Nat) (record : List Byte → μ)
    (done : μ) : Prop where
  length_record : ∀ name, (data (record name)).length = size
  length_done : (data done).length = size
  cstr_record : ∀ name, IsName name → cstr (data (record name)) = name
  take_done : (data done).take 1 = [endMark]

/-- The name does not end a listing. -/
def goesOn (name : List Byte) : Bool := name.take 1 ≠ [endMark]

section Loop

variable {μ : Type*} {data : μ → List Byte} {size : Nat} {record : List Byte → μ} {done : μ}

/-- A message that fills the buffer replaces what was in it. -/
theorem listLoop_cons {szbuffer : List Byte} {m : μ} (hfull : (data m).length = szbuffer.length)
    (ms : List μ) :
    listLoop data szbuffer (m :: ms) =
      if (data m).take 1 = [endMark] then some (shown szbuffer, ms)
      else (listLoop data (data m) ms).map fun r => (shown szbuffer ++ r.1, r.2) := by
  have hnext : data m ++ szbuffer.drop (data m).length = data m := by
    rw [hfull, List.drop_length, List.append_nil]
  rw [listLoop, hnext]

theorem Writes.take_record (h : Writes data size record done) {name : List Byte}
    (hname : IsName name) : (data (record name)).take 1 = name.take 1 := by
  have hcstr := h.cstr_record name hname
  have hpos : 1 ≤ (cstr (data (record name))).length := by
    rw [hcstr]
    exact List.length_pos_iff.2 hname.nonempty
  rw [← take_cstr hpos, hcstr]

theorem Writes.shown_record (h : Writes data size record done) {name : List Byte}
    (hname : IsName name) : shown (data (record name)) = [name] := by
  have hfirst : ¬ (data (record name)).take 1 = [0] := by
    rw [h.take_record hname]
    intro hzero
    have hmem : (0 : Byte) ∈ name := List.mem_of_mem_take (hzero ▸ List.mem_singleton.2 rfl)
    exact hname.isText 0 hmem rfl
  rw [shown, if_neg hfirst, h.cstr_record name hname]

/-- The loop reads the message that ends it. -/
theorem length_lt_of_listLoop {szbuffer : List Byte} {ms rest : List μ} {names : List (List Byte)}
    (h : listLoop data szbuffer ms = some (names, rest)) : rest.length < ms.length := by
  induction ms generalizing szbuffer names with
  | nil => cases h
  | cons m ms ih =>
      rw [listLoop] at h
      split at h
      · cases h
        exact Nat.lt_succ_self _
      · obtain ⟨r, hloop, hr⟩ := Option.map_eq_some_iff.1 h
        cases hr
        exact (ih hloop).trans (Nat.lt_succ_self _)

/-- The loop begins with the string in the buffer. -/
theorem shown_prefix_of_listLoop {szbuffer : List Byte} {ms : List μ} {r : List (List Byte) × List μ}
    (h : listLoop data szbuffer ms = some r) : ∃ later, shown szbuffer ++ later = r.1 := by
  cases ms with
  | nil => cases h
  | cons m ms =>
      rw [listLoop] at h
      split at h
      · cases h
        exact ⟨[], List.append_nil _⟩
      · obtain ⟨r', -, rfl⟩ := Option.map_eq_some_iff.1 h
        exact ⟨r'.1, rfl⟩

/-- The loop prints the names before the first one that starts with `@`, and leaves what comes behind the
message it stops at. -/
theorem listLoop_records (h : Writes data size record done) {names : List (List Byte)}
    (hnames : ∀ name ∈ names, IsName name) {szbuffer : List Byte} (hbuf : szbuffer.length = size)
    (after : List μ) :
    listLoop data szbuffer (names.map record ++ done :: after) =
      some (shown szbuffer ++ names.takeWhile goesOn,
        (names.map record ++ done :: after).drop ((names.takeWhile goesOn).length + 1)) := by
  induction names generalizing szbuffer with
  | nil =>
      have hfull : (data done).length = szbuffer.length := h.length_done.trans hbuf.symm
      rw [List.map_nil, List.nil_append, listLoop_cons hfull, if_pos h.take_done]
      simp
  | cons name names ih =>
      have hname := hnames name List.mem_cons_self
      have hfull : (data (record name)).length = szbuffer.length :=
        (h.length_record name).trans hbuf.symm
      rw [List.map_cons, List.cons_append, listLoop_cons hfull, h.take_record hname]
      by_cases hend : name.take 1 = [endMark]
      · rw [if_pos hend, List.takeWhile_cons_of_neg (by simp [goesOn, hend])]
        simp
      · rw [if_neg hend, List.takeWhile_cons_of_pos (by simp [goesOn, hend]),
          ih (fun x hx => hnames x (List.mem_cons_of_mem _ hx)) (h.length_record name),
          h.shown_record hname]
        rfl

/-- The client prints the names of the listing and reads its messages, whatever follows them. -/
theorem listLoop_exact_iff (h : Writes data size record done) {names : List (List Byte)}
    (hnames : ∀ name ∈ names, IsName name) {szbuffer : List Byte} (hbuf : szbuffer.length = size)
    (hempty : szbuffer.take 1 = [0]) :
    (∀ after, listLoop data szbuffer ((names.map record ++ [done]) ++ after) = some (names, after)) ↔
      ∀ name ∈ names, name.take 1 ≠ [endMark] := by
  have hloop : ∀ after, listLoop data szbuffer ((names.map record ++ [done]) ++ after) =
      some (names.takeWhile goesOn,
        (names.map record ++ done :: after).drop ((names.takeWhile goesOn).length + 1)) := by
    intro after
    rw [List.append_assoc, List.singleton_append, listLoop_records h hnames hbuf, shown,
      if_pos hempty, List.nil_append]
  constructor
  · intro hexact name hmem
    have hprinted : names.takeWhile goesOn = names :=
      congrArg Prod.fst (Option.some.inj ((hloop []).symm.trans (hexact [])))
    have hgoes : goesOn name = true := List.mem_takeWhile_imp (hprinted.symm ▸ hmem)
    simpa [goesOn] using hgoes
  · intro hgoes after
    have hall : names.takeWhile goesOn = names := by
      rw [List.takeWhile_eq_self_iff]
      intro name hmem
      exact decide_eq_true (hgoes name hmem)
    rw [hloop, hall, ← List.singleton_append, ← List.append_assoc,
      List.drop_left' (by simp)]

end Loop

end Listing

/-! ## `Assign3_zcl` -/

namespace Assign3

open Udp Listing

/-- What `listFiles` sends. -/
def Server.listFiles (s : Server) (names : List (List Byte)) : List Message :=
  names.map s.text ++ [s.text doneText]

/-- What the receiver finds in its packet. -/
def arrived (m : Message) : List Byte := m.data.bytes

/-- `listServerFiles` on the answer to its command and the messages that arrive then. -/
def listServerFiles (answer : Buffer) (ms : List Message) :
    Option (List (List Byte) × List Message) :=
  -- `memcpy(szbuffer,udpbuf.data,BUFFER_LENGTH)`, and `szbuffer[0] = '\0'`
  listLoop arrived (0 :: answer.bytes.drop 1) ms

/-- The client prints exactly these names, and reads exactly the messages of the listing. -/
def ListsExactly (s : Server) (answer : Buffer) (names : List (List Byte)) : Prop :=
  ∀ after, listServerFiles answer (s.listFiles names ++ after) = some (names, after)

theorem Server.writes (s : Server) :
    Writes arrived bufferLength s.text (s.text doneText) where
  length_record _ := Buffer.length_eq _
  length_done := Buffer.length_eq _
  cstr_record name hname := by
    change cstr (Message.whole (textBuffer name s.stack)).data.bytes = name
    rw [Message.data_whole, cstr_textBuffer s.stack hname.isText hname.short]
  take_done := by
    change (Message.whole (textBuffer doneText s.stack)).data.bytes.take 1 = [endMark]
    rw [Message.data_whole]
    rfl

theorem listsExactly_iff (s : Server) (answer : Buffer) {names : List (List Byte)}
    (hnames : ∀ name ∈ names, IsName name) :
    ListsExactly s answer names ↔ ∀ name ∈ names, name.take 1 ≠ [endMark] := by
  apply listLoop_exact_iff s.writes hnames
  · have hlen := answer.length_eq
    rw [List.length_cons, List.length_drop, hlen]
    rfl
  · rfl

/-! The two functions as the two programs run them; the numbers of the packets play no part. -/

/-- A program passes a message to `udplastsend`. -/
def sendStep (x : Program) (e : Int × Message) : Option Program :=
  if ftpApp.call x = some (.udplastsend e.2) then
    some (ftpApp.resume x (.udplastsend ⟨e.1, e.2.data⟩))
  else none

/-- A program receives a message with `udplastrecv`. -/
def recvStep (x : Program) (e : Int × Message) : Option Program :=
  if ftpApp.call x = some .udplastrecv then
    some (ftpApp.resume x (.udplastrecv ⟨e.1, e.2.data⟩))
  else none

/-- The server sends the messages of the listing, and reads the next command then. -/
theorem run_listFiles (s : Server) (names : List (List Byte)) (es : List (Int × Message))
    (h : es.map Prod.snd = s.listFiles names) :
    Run sendStep anyStep (.server (s.goto (.listing names))) es (.server (s.goto .loop)) := by
  induction names generalizing es with
  | nil =>
      obtain ⟨e, es', rfl, he, hes⟩ := List.map_eq_cons_iff.1 h
      rw [List.map_eq_nil_iff.1 hes]
      apply Run.cons trivial _ .nil
      rw [sendStep, he]
      exact if_pos rfl
  | cons name names ih =>
      obtain ⟨e, es', rfl, he, hes⟩ := List.map_eq_cons_iff.1 h
      apply Run.cons trivial _ (ih es' hes)
      rw [sendStep, he]
      exact if_pos rfl

/-- The client reads the messages that the loop takes, prints the names that come behind the first buffer's, and
shows its menu then. -/
theorem run_listServerFiles (c : Client) {szbuffer : List Byte} (hbuf : szbuffer.length = bufferLength)
    {es : List (Int × Message)} {rest : List Message} {names : List (List Byte)}
    (h : listLoop arrived szbuffer (es.map Prod.snd ++ rest) =
      some (shown szbuffer ++ names, rest)) :
    Run recvStep anyStep (.client (c.goto .names)) es (.client ((c.printed names).report .listed)) := by
  induction es generalizing c szbuffer names with
  | nil =>
      -- the loop reads at least the message that ends it
      exact absurd (length_lt_of_listLoop h) (Nat.lt_irrefl _)
  | cons e es ih =>
      have hfull : (arrived e.2).length = szbuffer.length := e.2.data.length_eq.trans hbuf.symm
      have hcall : ftpApp.call (.client (c.goto .names)) = some .udplastrecv := rfl
      rw [List.map_cons, List.cons_append, listLoop_cons hfull] at h
      by_cases hend : (arrived e.2).take 1 = [endMark]
      · rw [if_pos hend] at h
        have hrest : es.map Prod.snd ++ rest = rest := congrArg Prod.snd (Option.some.inj h)
        have hnil : es = [] := by simpa using hrest
        have hnames : names = [] := by
          have hshown : shown szbuffer = shown szbuffer ++ names :=
            congrArg Prod.fst (Option.some.inj h)
          simpa using hshown
        subst hnil hnames
        apply Run.cons trivial _ .nil
        rw [recvStep, if_pos hcall]
        refine congrArg some (congrArg Program.client ((if_pos hend).trans ?_))
        rw [Client.printed, List.map_nil, List.append_nil]
        rfl
      · rw [if_neg hend] at h
        obtain ⟨r, hloop, hr⟩ := Option.map_eq_some_iff.1 h
        have hrest : r.2 = rest := congrArg Prod.snd hr
        have hnames : r.1 = names := List.append_cancel_left (congrArg Prod.fst hr)
        obtain ⟨later, hlater⟩ := shown_prefix_of_listLoop hloop
        have hnext : listLoop arrived (arrived e.2)
            (es.map Prod.snd ++ rest) = some (shown (arrived e.2) ++ later, rest) := by
          rw [hloop, ← hrest, hlater]
        have hprinted : (c.printed names).report .listed =
            ((c.printed (shown (arrived e.2))).printed later).report .listed := by
          rw [← hnames, ← hlater, Client.printed_printed]
        rw [hprinted]
        apply Run.cons trivial _ (ih _ e.2.data.length_eq hnext)
        rw [recvStep, if_pos hcall]
        exact congrArg some (congrArg Program.client (if_neg hend))

end Assign3

/-! ## `build 1` -/

namespace Build1

open Listing

/-- What `listFiles` sends. -/
def listFiles (names : List (List Byte)) : List (List Byte) :=
  names.map (charArray filenameLength) ++ [charArray filenameLength [endMark]]

/-- `listServerFiles` on its buffer and the messages that arrive, a whole one with each `recv`. -/
def listServerFiles (listbuffer : List Byte) (msgs : List (List Byte)) :
    Option (List (List Byte) × List (List Byte)) :=
  -- `listbuffer[0] = '\0'`
  listLoop id (0 :: listbuffer.drop 1) msgs

/-- The client prints exactly these names, and reads exactly the messages of the listing. -/
def ListsExactly (names : List (List Byte)) : Prop :=
  ∀ listbuffer after, listbuffer.length = filenameLength →
    listServerFiles listbuffer (listFiles names ++ after) = some (names, after)

theorem length_charArray (size : Nat) (text : List Byte) : (charArray size text).length = size := by
  simp [charArray]

theorem cstr_charArray {size : Nat} {text : List Byte} (htext : IsText text)
    (hshort : text.length < size) : cstr (charArray size text) = text := by
  have hsplit : charArray size text = text ++ 0 :: List.replicate (size - text.length - 1) 0 := by
    have hroom : size - text.length = size - text.length - 1 + 1 := by omega
    rw [charArray, List.take_append, List.take_of_length_le (Nat.le_of_lt hshort),
      List.take_replicate, Nat.min_eq_left (Nat.sub_le _ _), hroom, List.replicate_succ]
    simp
  rw [hsplit, cstr_append_zero htext]

theorem writes : Writes id filenameLength (charArray filenameLength)
    (charArray filenameLength [endMark]) where
  length_record _ := length_charArray _ _
  length_done := length_charArray _ _
  cstr_record _ hname := cstr_charArray hname.isText hname.short
  take_done := rfl

theorem listsExactly_iff {names : List (List Byte)} (hnames : ∀ name ∈ names, IsName name) :
    ListsExactly names ↔ ∀ name ∈ names, name.take 1 ≠ [endMark] := by
  have hexact : ∀ listbuffer : List Byte, listbuffer.length = filenameLength →
      ((∀ after, listServerFiles listbuffer (listFiles names ++ after) = some (names, after)) ↔
        ∀ name ∈ names, name.take 1 ≠ [endMark]) := by
    intro listbuffer hlen
    apply listLoop_exact_iff writes hnames
    · rw [List.length_cons, List.length_drop, hlen]
      rfl
    · rfl
  constructor
  · intro h
    have hlen : (List.replicate filenameLength (0 : Byte)).length = filenameLength :=
      List.length_replicate
    exact (hexact _ hlen).1 fun after => h _ after hlen
  · intro h listbuffer after hlen
    exact (hexact listbuffer hlen).2 h after

/-- A function that serves a command passes these bytes to `send`. -/
def sendStep (removeFails : Bool) (dir : Directory) (h : Handler) (data : List Byte) :
    Option Handler :=
  match h.action removeFails dir with
  | .send data' next => if data' = data then some next else none
  | _ => none

/-- The server sends the messages of the listing, and returns from `listFiles` then. -/
theorem run_listFiles (removeFails : Bool) (dir : Directory) (names : List (List Byte)) :
    Run (sendStep removeFails dir) anyStep (.listFiles names) (listFiles names) .returned := by
  induction names with
  | nil =>
      apply Run.cons trivial _ .nil
      simp [sendStep, Handler.action, endMark]
  | cons name names ih =>
      apply Run.cons trivial _ ih
      simp [sendStep, Handler.action]

end Build1

/-! ## Both -/

open Listing

/-- Without a loss the clients print exactly the names, and leave nothing of the listing behind, exactly
when no name starts with `@`. -/
theorem listing_iff (s : Assign3.Server) (answer : Udp.Buffer) (names : List (List Byte))
    (hnames : ∀ name ∈ names, IsName name) :
    Assign3.ListsExactly s answer names ∧ Build1.ListsExactly names ↔
      ∀ name ∈ names, name.take 1 ≠ [endMark] := by
  rw [Assign3.listsExactly_iff s answer hnames, Build1.listsExactly_iff hnames, and_self_iff]

/-- Two names, the second one with an `@` inside. -/
theorem listing_two :
    Assign3.ListsExactly ⟨.loop, [], [7]⟩ (.ofBytes []) [[97], [98, 64]] ∧
        Build1.ListsExactly [[97], [98, 64]] ↔
      ∀ name ∈ [[97], [98, 64]], List.take 1 name ≠ [endMark] := by
  apply listing_iff
  rw [List.forall_mem_cons, List.forall_mem_singleton]
  exact ⟨⟨by decide, by decide, by decide⟩, ⟨by decide, by decide, by decide⟩⟩

/-- A directory with the files `@` and `a`. -/
theorem listing_cut :
    (∀ name ∈ [[64], [97]], IsName name) ∧
      ¬ Assign3.ListsExactly ⟨.loop, [], []⟩ (.ofBytes []) [[64], [97]] ∧
      ¬ Build1.ListsExactly [[64], [97]] := by
  have hnames : ∀ name ∈ [[64], [97]], IsName name := by
    rw [List.forall_mem_cons, List.forall_mem_singleton]
    exact ⟨⟨by decide, by decide, by decide⟩, ⟨by decide, by decide, by decide⟩⟩
  have hcut : ¬ ∀ name ∈ [[64], [97]], List.take 1 name ≠ [endMark] := by decide
  refine ⟨hnames, ?_, ?_⟩
  · rwa [Assign3.listsExactly_iff _ _ hnames]
  · rwa [Build1.listsExactly_iff hnames]

end FileTransfer
