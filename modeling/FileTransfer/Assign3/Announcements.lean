import FileTransfer.Assign3.Programs

/-!
# Announcements

A file is announced as `name,size`: twice by `PutFileToServer`, once by `PutFileToClient`.  The second
announcement of a PUT is written behind the first one unless the user had to type a new name, so it
may carry the size twice.  The receiver takes the text apart at the first comma, and file names may
have commas of their own: what it reads is what was announced exactly when the names have none.
-/

namespace FileTransfer
namespace Assign3

open Udp

/-! ## What is announced, and what is read -/

/-- The call sends a message in which `GetFileFromClient` and `GetFileFromServer` read this name and
this size. -/
def Announces (call : Option Call) (name : List Byte) (size : Int) : Prop :=
  ∃ m, call = some (.udplastsend m) ∧ parseAnnouncement (cstr m.data.bytes) = (name, size)

/-- The names and the size that a record has room for, the size written twice behind the first name. -/
structure Announceable (name newName : FileName) (content : List Byte) : Prop where
  size_lt : content.length < 2 ^ 31
  again_fits :
    (announcement (announcement name.chars content.length) content.length).length < bufferLength
  new_fits : (announcement newName.chars content.length).length < bufferLength

/-- The announcements of a PUT and of a GET are read as they were meant. -/
structure AnnouncementsRead (c : Client) (s : Server) (name newName : FileName)
    (content : List Byte) : Prop where
  /-- the first announcement of `PutFileToServer` -/
  first : Announces (c.goto (.announce name newName content)).call name.chars content.length
  /-- the second one, when the server answered `C` -/
  created : ∀ answer k, (s.goto (.answer createText)).call = .udplastsend answer →
    Announces ((c.goto (.taken name newName content)).resume (.udplastrecv ⟨k, answer.data⟩)).call
      name.chars content.length
  /-- the second one, when the server answered `S` -/
  same : ∀ answer k, (s.goto (.answer sameText)).call = .udplastsend answer →
    Announces ((c.goto (.taken name newName content)).resume (.udplastrecv ⟨k, answer.data⟩)).call
      newName.chars content.length
  /-- the announcement of `PutFileToClient` -/
  get : ∀ f : File, f.name = name.chars → f.content = content →
    Announces (some (s.goto (.announce f)).call) name.chars content.length

/-! ## The texts -/

theorem isText_decimal (n : Nat) : IsText (decimal n) := by
  intro b hb hzero
  have hdigit := isDigit_of_mem_decimal hb
  rw [hzero] at hdigit
  exact absurd hdigit (by decide)

theorem isText_announcement {name : List Byte} (h : IsText name) (n : Nat) :
    IsText (announcement name n) := by
  intro b hb
  rcases List.mem_append.1 hb with hname | hrest
  · exact h b hname
  · rcases List.mem_cons.1 hrest with rfl | hsize
    · decide
    · exact isText_decimal n b hsize

/-- The size behind the name, or behind a first announcement. -/
theorem parse_announcement {name : List Byte} (h : comma ∉ name) (n : Nat) :
    parseAnnouncement (announcement name n) = (name, (n : Int)) := by
  rw [announcement, parseAnnouncement_append h, atoi_decimal]

/-- The first of two sizes is read. -/
theorem parse_announcement_twice {name : List Byte} (h : comma ∉ name) (n : Nat) :
    parseAnnouncement (announcement (announcement name n) n) = (name, (n : Int)) := by
  have hsplit : announcement (announcement name n) n =
      name ++ comma :: (decimal n ++ comma :: decimal n) := by
    simp [announcement]
  rw [hsplit, parseAnnouncement_append h, atoi_decimal_append rfl]

/-- The name that is read ends before the first comma. -/
theorem comma_notMem_parse {text name : List Byte} {size : Int}
    (h : parseAnnouncement text = (name, size)) : comma ∉ name := by
  have hname : name = text.takeWhile (· ≠ comma) := (congrArg Prod.fst h).symm
  intro hmem
  rw [hname] at hmem
  simpa using List.mem_takeWhile_imp hmem

theorem Announces.comma_notMem {call : Option Call} {name : List Byte} {size : Int}
    (h : Announces call name size) : comma ∉ name := by
  obtain ⟨m, -, hparse⟩ := h
  exact comma_notMem_parse hparse

theorem Announces.parse {m : Message} {name : List Byte} {size : Int}
    (h : Announces (some (.udplastsend m)) name size) :
    parseAnnouncement (cstr m.data.bytes) = (name, size) := by
  obtain ⟨m', hcall, hparse⟩ := h
  cases hcall
  exact hparse

/-! ## The messages -/

/-- A message that holds a text is read as that text. -/
theorem announces_text {call : Option Call} {text name stack : List Byte} {size : Int}
    (hcall : call = some (.udplastsend (.whole (textBuffer text stack)))) (htext : IsText text)
    (hfits : text.length < bufferLength) (hparse : parseAnnouncement text = (name, size)) :
    Announces call name size := by
  refine ⟨_, hcall, ?_⟩
  rw [Message.data_whole, cstr_textBuffer stack htext hfits, hparse]

/-- The two answers of `GetFileFromClient`, as `memcmp` tells them apart. -/
theorem answer_data {s : Server} {text : List Byte} {answer : Message}
    (h : (s.goto (.answer text)).call = .udplastsend answer) : answer.data = .ofBytes text := by
  cases h
  exact Message.data_whole _

/-- The second announcement after the answer `C`: the size is written a second time. -/
theorem call_created {c : Client} {name newName : FileName} {content : List Byte} {p : Udppacket}
    (h : p.data = .ofBytes createText) :
    ((c.goto (.taken name newName content)).resume (.udplastrecv p)).call =
      some (.udplastsend (.whole (textBuffer
        (announcement (announcement name.chars content.length) content.length) c.stack))) := by
  have htest : ¬ p.data.bytes.take 2 = sameText ++ [0] := by
    rw [h]
    decide
  have hagain : (c.goto (.taken name newName content)).resume (.udplastrecv p) =
      c.goto (.again (announcement name.chars content.length) content) := if_neg htest
  rw [hagain]
  rfl

/-- The second announcement after the answer `S`. -/
theorem call_same {c : Client} {name newName : FileName} {content : List Byte} {p : Udppacket}
    (h : p.data = .ofBytes sameText) :
    ((c.goto (.taken name newName content)).resume (.udplastrecv p)).call =
      some (.udplastsend (.whole (textBuffer
        (announcement newName.chars content.length) c.stack))) := by
  have htest : p.data.bytes.take 2 = sameText ++ [0] := by
    rw [h]
    decide
  have hagain : (c.goto (.taken name newName content)).resume (.udplastrecv p) =
      c.goto (.again newName.chars content) := if_pos htest
  rw [hagain]
  rfl

/-! ## What the receivers do with them -/

section Receivers

variable {m : Message} {name : List Byte} {size : Int} (k : Int)

/-- `GetFileFromClient` answers whether it has the announced file. -/
theorem afterGetName_of_announces (s : Server)
    (h : Announces (some (.udplastsend m)) name size) :
    s.afterGetName ⟨k, m.data⟩ =
      s.goto (.answer (if (s.dir.find? name).isSome then sameText else createText)) := by
  rw [Server.afterGetName, h.parse]

/-- `GetFileFromClient` writes the announced number of bytes to the announced file. -/
theorem afterGetAgain_of_announces (s : Server)
    (h : Announces (some (.udplastsend m)) name size) :
    s.afterGetAgain ⟨k, m.data⟩ =
      ({ s with dir := s.dir.create name } : Server).recvLoop ⟨name, size⟩ := by
  rw [Server.afterGetAgain, h.parse]

/-- `GetFileFromServer` recognises the name it asked for, and expects the announced number of bytes. -/
theorem afterAnnouncement_of_announces (c : Client) (asked newName : FileName)
    (h : Announces (some (.udplastsend m)) asked.chars size) :
    c.afterAnnouncement asked newName ⟨k, m.data⟩ =
      let target := if (c.dir.find? asked.chars).isSome then newName.chars else asked.chars
      ({ c with dir := c.dir.create target } : Client).recvLoop ⟨target, size⟩ := by
  rw [Client.afterAnnouncement, h.parse]
  exact if_pos rfl

end Receivers

/-! ## Exactly the names without a comma -/

theorem Announceable.first_fits {name newName : FileName} {content : List Byte}
    (h : Announceable name newName content) :
    (announcement name.chars content.length).length < bufferLength := by
  refine Nat.lt_of_le_of_lt ?_ h.again_fits
  rw [announcement.eq_def (announcement name.chars content.length), List.length_append]
  exact Nat.le_add_right _ _

theorem announcementsRead_of_no_comma (c : Client) (s : Server) {name newName : FileName}
    {content : List Byte} (hfits : Announceable name newName content)
    (hname : comma ∉ name.chars) (hnew : comma ∉ newName.chars) :
    AnnouncementsRead c s name newName content where
  first :=
    announces_text rfl (isText_announcement name.isText _) hfits.first_fits
      (parse_announcement hname _)
  created := by
    intro answer k hanswer
    exact announces_text (call_created (answer_data hanswer))
      (isText_announcement (isText_announcement name.isText _) _) hfits.again_fits
      (parse_announcement_twice hname _)
  same := by
    intro answer k hanswer
    exact announces_text (call_same (answer_data hanswer))
      (isText_announcement newName.isText _) hfits.new_fits (parse_announcement hnew _)
  get := by
    rintro f hf rfl
    have hcall : some (s.goto (.announce f)).call = some (.udplastsend (.whole (textBuffer
        (announcement name.chars f.content.length) s.stack))) := by
      rw [← hf]
      rfl
    exact announces_text hcall (isText_announcement name.isText _) hfits.first_fits
      (parse_announcement hname _)

/-- The announcements are read as they were meant exactly when neither name has a comma. -/
theorem announcementsRead_iff (c : Client) (s : Server) (name newName : FileName)
    (content : List Byte) (hfits : Announceable name newName content) :
    AnnouncementsRead c s name newName content ↔ comma ∉ name.chars ∧ comma ∉ newName.chars := by
  constructor
  · intro h
    refine ⟨h.first.comma_notMem, ?_⟩
    exact (h.same (.whole (.ofBytes sameText)) 0 rfl).comma_notMem
  · rintro ⟨hname, hnew⟩
    exact announcementsRead_of_no_comma c s hfits hname hnew

/-- `readme.txt` and `a,b`. -/
def plainName : FileName := ⟨ascii "readme.txt", by decide, by decide⟩
def commaName : FileName := ⟨ascii "a,b", by decide, by decide⟩

theorem announceable_three (name : FileName) (hlen : name.chars.length < 256) :
    Announceable name plainName [1, 2, 3] where
  size_lt := by decide
  again_fits := by
    have htwo : (announcement (announcement name.chars 3) 3).length = name.chars.length + 4 := by
      simp [announcement, show decimal 3 = [51] from by decide]
    change (announcement (announcement name.chars 3) 3).length < bufferLength
    rw [htwo]
    exact Nat.add_lt_add_right hlen 4
  new_fits := by decide

/-- Three bytes announced under a name without a comma. -/
theorem announcementsRead_plainName :
    AnnouncementsRead ⟨[], .menu, [], [], [7]⟩ ⟨.loop, [], [7]⟩ plainName plainName [1, 2, 3] ↔
      comma ∉ plainName.chars ∧ comma ∉ plainName.chars :=
  announcementsRead_iff _ _ _ _ _ (announceable_three plainName (by decide))

/-- A name without a blank that has a comma. -/
theorem comma_misread :
    Announceable commaName plainName [1, 2, 3] ∧ commaName.chars ≠ [] ∧
      (∀ b ∈ commaName.chars, isSpace b = false) ∧
      ¬ AnnouncementsRead ⟨[], .menu, [], [], [7]⟩ ⟨.loop, [], [7]⟩ commaName plainName
        [1, 2, 3] := by
  have hblank : commaName.chars.all (fun b => !isSpace b) = true := by decide
  refine ⟨announceable_three commaName (by decide), by decide, ?_, ?_⟩
  · intro b hb
    simpa using List.all_eq_true.1 hblank b hb
  · intro h
    exact absurd h.first.comma_notMem (by decide)

end Assign3
end FileTransfer
