import FileTransfer.Lib.Network
import FileTransfer.Lib.Until

/-!
# Two programs at the ends of a byte stream

A program sends, receives and closes; a `recv` returns some of the bytes that have come, as many as it likes.  A
script is what the two ends say, in the order in which it is caused.  `Plays` says that a program keeps to a
script whatever its `recv` calls return, and is checked for each of the two programs alone.
`until_of_plays` puts the two together: every run of the two programs comes to an end where both are done.
-/

namespace FileTransfer
namespace Conversation

variable {σ τ β : Type*}

/-! ## Programs -/

/-- What a program does next. -/
inductive Move (σ β : Type*) where
  | go (next : σ)
  | send (data : List β) (next : σ)
  /-- `whole`: it returns all that has come, as far as it was asked for -/
  | recv (whole : Bool) (want : Nat) (next : List β → σ)
  | close (next : σ)
  | stop

/-- One end of the connection: `inbox` is what has come and is not received. -/
structure End (σ β : Type*) where
  state : σ
  inbox : List β
  closed : Bool

/-- A step of the program at `x`; `y` is the other end. -/
inductive Half (move : σ → Move σ β) (x : End σ β) (y : End τ β) : End σ β → End τ β → Prop where
  | go {s : σ} : move x.state = .go s → Half move x y { x with state := s } y
  | send {data : List β} {s : σ} : move x.state = .send data s →
      Half move x y { x with state := s } { y with inbox := y.inbox ++ data }
  | recv {whole : Bool} {want : Nat} {next : List β → σ} (n : Nat) :
      move x.state = .recv whole want next → 0 < n → n ≤ want → n ≤ x.inbox.length →
      (whole = true → n = min want x.inbox.length) →
      Half move x y { x with state := next (x.inbox.take n), inbox := x.inbox.drop n } y
  /-- the other end has closed -/
  | ends {whole : Bool} {want : Nat} {next : List β → σ} : move x.state = .recv whole want next →
      x.inbox = [] → y.closed = true → Half move x y { x with state := next [] } y
  | close {s : σ} : move x.state = .close s → Half move x y { x with state := s, closed := true } y

/-- A step of one of the two. -/
def Step (left : σ → Move σ β) (right : τ → Move τ β) (p q : End σ β × End τ β) : Prop :=
  Half left p.1 p.2 q.1 q.2 ∨ Half right p.2 p.1 q.2 q.1

section Half

variable {move : σ → Move σ β} {x x' : End σ β} {y y' : End τ β} {s : σ} {data : List β}
  {whole : Bool} {want : Nat} {next : List β → σ}

theorem half_go (h : move x.state = .go s) :
    Half move x y x' y' ↔ x' = { x with state := s } ∧ y' = y := by
  constructor
  · intro hhalf
    cases hhalf with
    | go h' =>
        cases h.symm.trans h'
        exact ⟨rfl, rfl⟩
    | send h' | recv _ h' | ends h' | close h' => cases h.symm.trans h'
  · rintro ⟨rfl, rfl⟩
    exact .go h

theorem half_send (h : move x.state = .send data s) :
    Half move x y x' y' ↔ x' = { x with state := s } ∧ y' = { y with inbox := y.inbox ++ data } := by
  constructor
  · intro hhalf
    cases hhalf with
    | send h' =>
        cases h.symm.trans h'
        exact ⟨rfl, rfl⟩
    | go h' | recv _ h' | ends h' | close h' => cases h.symm.trans h'
  · rintro ⟨rfl, rfl⟩
    exact .send h

theorem half_close (h : move x.state = .close s) :
    Half move x y x' y' ↔ x' = { x with state := s, closed := true } ∧ y' = y := by
  constructor
  · intro hhalf
    cases hhalf with
    | close h' =>
        cases h.symm.trans h'
        exact ⟨rfl, rfl⟩
    | go h' | send h' | recv _ h' | ends h' => cases h.symm.trans h'
  · rintro ⟨rfl, rfl⟩
    exact .close h

theorem half_recv (h : move x.state = .recv whole want next) :
    Half move x y x' y' ↔
      (∃ n, 0 < n ∧ n ≤ want ∧ n ≤ x.inbox.length ∧ (whole = true → n = min want x.inbox.length) ∧
        x' = { x with state := next (x.inbox.take n), inbox := x.inbox.drop n } ∧ y' = y) ∨
      x.inbox = [] ∧ y.closed = true ∧ x' = { x with state := next [] } ∧ y' = y := by
  constructor
  · intro hhalf
    cases hhalf with
    | recv n h' hpos hwant hlen hwhole =>
        cases h.symm.trans h'
        exact .inl ⟨n, hpos, hwant, hlen, hwhole, rfl, rfl⟩
    | ends h' hempty hclosed =>
        cases h.symm.trans h'
        exact .inr ⟨hempty, hclosed, rfl, rfl⟩
    | go h' | send h' | close h' => cases h.symm.trans h'
  · rintro (⟨n, hpos, hwant, hlen, hwhole, rfl, rfl⟩ | ⟨hempty, hclosed, rfl, rfl⟩)
    · exact .recv n h hpos hwant hlen hwhole
    · exact .ends h hempty hclosed

/-- A `recv` waits while nothing has come and the other end has not closed. -/
theorem not_half_recv (h : move x.state = .recv whole want next) (hempty : x.inbox = [])
    (hopen : y.closed = false) : ¬ Half move x y x' y' := by
  rw [half_recv h]
  rintro (⟨n, hpos, -, hlen, -⟩ | ⟨-, hclosed, -⟩)
  · rw [hempty, List.length_nil] at hlen
    omega
  · cases hopen.symm.trans hclosed

/-- Where a `recv` waits nothing has come. -/
theorem inbox_eq_nil (h : move x.state = .recv whole want next) (hwant : 0 < want)
    (hnone : ∀ x' y', ¬ Half move x y x' y') : x.inbox = [] := by
  by_contra hne
  have hpos : 0 < min want x.inbox.length := Nat.lt_min.2 ⟨hwant, List.length_pos_iff.2 hne⟩
  exact hnone _ _ (.recv _ h hpos (Nat.min_le_left _ _) (Nat.min_le_right _ _) fun _ => rfl)

theorem not_half_stop (h : move x.state = .stop) : ¬ Half move x y x' y' := by
  intro hhalf
  cases hhalf with
  | go h' | send h' | recv _ h' | ends h' | close h' => cases h.symm.trans h'

end Half

/-! ## Scripts -/

/-- What is said at once.  A message is sent by one call, a stream by any number of them. -/
inductive Word (β : Type*) where
  | message (l : List β)
  | stream (l : List β)
  | close

/-- What is still to be said, and by whom. -/
abbrev Script (β : Type*) := List (Side × Word β)

/-- The other end does not go on before `me` has spoken. -/
def Pauses (me : Side) : Script β → Prop
  | [] => True
  | (p, .close) :: w => p = me ∨ Pauses me w
  | (p, .message _) :: _ => p = me
  | (p, .stream _) :: _ => p = me

/-- What is left of a stream is still before the rest of the script. -/
def andThen (p : Side) (l : List β) (w : Script β) : Script β := if l = [] then w else (p, .stream l) :: w

/-- A program and the script before it.  A deaf one receives nothing any more. -/
structure Config (σ β : Type*) where
  deaf : Bool
  state : σ
  script : Script β

/-- A rule that a program can go on by, and where it may then be.  `F` holds where it is done. -/
inductive Rule (move : σ → Move σ β) (F : σ → Prop) (me : Side) :
    Config σ β → (Config σ β → Prop) → Prop where
  | go {d : Bool} {s s' : σ} {w : Script β} : move s = .go s' →
      Rule move F me ⟨d, s, w⟩ (· = ⟨d, s', w⟩)
  | send {d : Bool} {s s' : σ} {l : List β} {w : Script β} : move s = .send l s' →
      Rule move F me ⟨d, s, (me, .message l) :: w⟩ (· = ⟨d, s', w⟩)
  | put {d : Bool} {s s' : σ} {l l' : List β} {w : Script β} : move s = .send l s' →
      Rule move F me ⟨d, s, (me, .stream (l ++ l')) :: w⟩ (· = ⟨d, s', andThen me l' w⟩)
  | sendNothing {d : Bool} {s s' : σ} {w : Script β} : move s = .send [] s' →
      Rule move F me ⟨d, s, w⟩ (· = ⟨d, s', w⟩)
  | close {d : Bool} {s s' : σ} {w : Script β} : move s = .close s' →
      Rule move F me ⟨d, s, (me, .close) :: w⟩ (· = ⟨d, s', w⟩)
  | hear {s : σ} {want : Nat} {next : List β → σ} {l : List β} {w : Script β} :
      move s = .recv true want next → l ≠ [] → l.length ≤ want → (l.length = want ∨ Pauses me w) →
      Rule move F me ⟨false, s, (me.peer, .message l) :: w⟩ (· = ⟨false, next l, w⟩)
  /-- the rest of the message stays where it is -/
  | hearPart {s : σ} {want : Nat} {next : List β → σ} {l : List β} {w : Script β} :
      move s = .recv true want next → 0 < want → want < l.length →
      Rule move F me ⟨false, s, (me.peer, .message l) :: w⟩ (· = ⟨true, next (l.take want), w⟩)
  | take {s : σ} {want : Nat} {next : List β → σ} {l : List β} {w : Script β} :
      move s = .recv false want next → 0 < want → l ≠ [] → Pauses me w →
      Rule move F me ⟨false, s, (me.peer, .stream l) :: w⟩ fun c =>
        ∃ n, 0 < n ∧ n ≤ want ∧ n ≤ l.length ∧
          c = ⟨false, next (l.take n), andThen me.peer (l.drop n) w⟩
  | hearEnd {s : σ} {whole : Bool} {want : Nat} {next : List β → σ} :
      move s = .recv whole want next →
      Rule move F me ⟨false, s, [(me.peer, .close)]⟩ (· = ⟨false, next [], [(me.peer, .close)]⟩)
  | stops {d : Bool} {s : σ} {w : Script β} : move s = .stop → F s → (∀ u ∈ w, u.1 = me.peer) →
      Rule move F me ⟨d, s, w⟩ fun _ => False
  | waits {s : σ} {whole : Bool} {want : Nat} {next : List β → σ} :
      move s = .recv whole want next → F s → Rule move F me ⟨false, s, []⟩ fun _ => False

/-- The program keeps to the script up to an end where `F` holds. -/
inductive Plays (move : σ → Move σ β) (F : σ → Prop) (me : Side) : Config σ β → Prop where
  | mk {c : Config σ β} {S : Config σ β → Prop} : Rule move F me c S →
      (∀ c', S c' → Plays move F me c') → Plays move F me c

namespace Plays

variable {move : σ → Move σ β} {F : σ → Prop} {me : Side} {d : Bool} {s s' : σ} {l : List β}
  {w : Script β} {whole : Bool} {want : Nat} {next : List β → σ}

theorem go (hmove : move s = .go s') (h : Plays move F me ⟨d, s', w⟩) : Plays move F me ⟨d, s, w⟩ :=
  .mk (.go hmove) fun _ heq => heq ▸ h

theorem send (hmove : move s = .send l s') (h : Plays move F me ⟨d, s', w⟩) :
    Plays move F me ⟨d, s, (me, .message l) :: w⟩ :=
  .mk (.send hmove) fun _ heq => heq ▸ h

theorem put (l' : List β) (hmove : move s = .send l s') (hne : l ++ l' ≠ [])
    (h : Plays move F me ⟨d, s', andThen me l' w⟩) :
    Plays move F me ⟨d, s, andThen me (l ++ l') w⟩ := by
  rw [andThen, if_neg hne]
  exact .mk (.put hmove) fun _ heq => heq ▸ h

theorem sendNothing (hmove : move s = .send [] s') (h : Plays move F me ⟨d, s', w⟩) :
    Plays move F me ⟨d, s, w⟩ :=
  .mk (.sendNothing hmove) fun _ heq => heq ▸ h

theorem close (hmove : move s = .close s') (h : Plays move F me ⟨d, s', w⟩) :
    Plays move F me ⟨d, s, (me, .close) :: w⟩ :=
  .mk (.close hmove) fun _ heq => heq ▸ h

theorem hear (want : Nat) (hmove : move s = .recv true want next) (hl : l ≠ []) (hle : l.length ≤ want)
    (hnext : l.length = want ∨ Pauses me w) (h : Plays move F me ⟨false, next l, w⟩) :
    Plays move F me ⟨false, s, (me.peer, .message l) :: w⟩ :=
  .mk (.hear hmove hl hle hnext) fun _ heq => heq ▸ h

theorem hearPart (want : Nat) (hmove : move s = .recv true want next) (hpos : 0 < want) (hlt : want < l.length)
    (h : Plays move F me ⟨true, next (l.take want), w⟩) :
    Plays move F me ⟨false, s, (me.peer, .message l) :: w⟩ :=
  .mk (.hearPart hmove hpos hlt) fun _ heq => heq ▸ h

theorem hearEnd (hmove : move s = .recv whole want next)
    (h : Plays move F me ⟨false, next [], [(me.peer, .close)]⟩) :
    Plays move F me ⟨false, s, [(me.peer, .close)]⟩ :=
  .mk (.hearEnd hmove) fun _ heq => heq ▸ h

theorem stops (hmove : move s = .stop) (hF : F s) (hscript : ∀ u ∈ w, u.1 = me.peer) :
    Plays move F me ⟨d, s, w⟩ :=
  .mk (.stops hmove hF hscript) fun _ h => h.elim

theorem waits (hmove : move s = .recv whole want next) (hF : F s) : Plays move F me ⟨false, s, []⟩ :=
  .mk (.waits hmove hF) fun _ h => h.elim

/-- A loop that receives a stream; `rcv` is where it stands with so much of it. -/
theorem takes {rcv : List β → σ} {all : List β} (hnext : Pauses me w)
    (hmove : ∀ done rest, done ++ rest = all → rest ≠ [] → ∃ want next, 0 < want ∧
      move (rcv done) = .recv false want next ∧
      ∀ n, n ≤ want → n ≤ rest.length → next (rest.take n) = rcv (done ++ rest.take n))
    (h : Plays move F me ⟨false, rcv all, w⟩) :
    Plays move F me ⟨false, rcv [], andThen me.peer all w⟩ := by
  suffices hsuffix : ∀ rest done, done ++ rest = all →
      Plays move F me ⟨false, rcv done, andThen me.peer rest w⟩ from hsuffix all [] rfl
  intro rest
  induction hlen : rest.length using Nat.strongRecOn generalizing rest with
  | ind k ih =>
      intro done hall
      by_cases hrest : rest = []
      · subst hrest
        rw [List.append_nil] at hall
        rw [hall]
        exact h
      · obtain ⟨want, next, hwant, hrecv, hgot⟩ := hmove done rest hall hrest
        rw [andThen, if_neg hrest]
        refine .mk (.take hrecv hwant hrest hnext) ?_
        rintro _ ⟨n, hpos, hn, hle, rfl⟩
        rw [hgot n hn hle]
        refine ih (rest.drop n).length ?_ _ rfl _ ?_
        · rw [List.length_drop]
          omega
        · rw [List.append_assoc, List.take_append_drop, hall]

/-- A loop that sends a stream in pieces of this size and a shorter last one; `snd` is where it stands with so much
of it left. -/
theorem sends (snd fin : List β → σ) (size : Nat) {all : List β}
    (hmore : ∀ rest, rest <:+ all → size < rest.length →
      move (snd rest) = .send (rest.take size) (snd (rest.drop size)))
    (hlast : ∀ rest, rest <:+ all → rest.length ≤ size → move (snd rest) = .send rest (fin rest))
    (hsize : 0 < size) (hpart : size ∣ all.length → all = [])
    (h : ∀ rest, rest.length < size → Plays move F me ⟨d, fin rest, w⟩) :
    Plays move F me ⟨d, snd all, andThen me all w⟩ := by
  suffices hsuffix : ∀ rest, rest <:+ all → (size ∣ rest.length → rest = []) →
      Plays move F me ⟨d, snd rest, andThen me rest w⟩ from hsuffix all List.suffix_rfl hpart
  intro rest
  induction hlen : rest.length using Nat.strongRecOn generalizing rest with
  | ind k ih =>
      subst hlen
      intro hsuffix hrest
      by_cases hlong : size < rest.length
      · -- a piece of a stream that goes on, so that what is left is no multiple of the size either
        have hne : rest.take size ++ rest.drop size ≠ [] := by
          rw [List.take_append_drop]
          rintro rfl
          exact absurd hlong (Nat.not_lt_zero _)
        have hdrop : ¬ size ∣ (rest.drop size).length := by
          rw [List.length_drop]
          intro hdvd
          have hnil := hrest ((Nat.dvd_sub_iff_left (Nat.le_of_lt hlong) (Nat.dvd_refl _)).1 hdvd)
          rw [hnil] at hlong
          exact absurd hlong (Nat.not_lt_zero _)
        have hput : Plays move F me ⟨d, snd rest, andThen me (rest.take size ++ rest.drop size) w⟩ :=
          .put _ (hmore rest hsuffix hlong) hne (ih _ (by rw [List.length_drop]; omega) _ rfl
            ((List.drop_suffix _ _).trans hsuffix) fun hdvd => absurd hdvd hdrop)
        rwa [List.take_append_drop] at hput
      · have hle := Nat.le_of_not_lt hlong
        have hmove := hlast rest hsuffix hle
        by_cases hnil : rest = []
        · subst hnil
          exact .sendNothing hmove (h [] hsize)
        · have hshort : rest.length < size := by
            refine Nat.lt_of_le_of_ne hle fun heq => hnil (hrest ?_)
            exact ⟨1, by rw [heq, Nat.mul_one]⟩
          have hput : Plays move F me ⟨d, snd rest, andThen me (rest ++ []) w⟩ :=
            .put [] hmove (by rwa [List.append_nil]) (h rest hshort)
          rwa [List.append_nil] at hput

end Plays

/-- On the rules of two programs at once. -/
theorem Plays.induct₂ {left : σ → Move σ β} {right : τ → Move τ β} {F : σ → Prop} {G : τ → Prop}
    {me : Side} {P : Config σ β → Config τ β → Prop}
    (hstep : ∀ A B S T, Rule left F me A S → Rule right G me.peer B T → (∀ A', S A' → P A' B) →
      (∀ B', T B' → P A B') → P A B)
    {A : Config σ β} {B : Config τ β} (hA : Plays left F me A) (hB : Plays right G me.peer B) :
    P A B := by
  induction hA generalizing B with
  | mk hruleA _ ihA =>
      induction hB with
      | mk hruleB hB ihB => exact hstep _ _ _ _ hruleA hruleB (fun A' h => ihA A' h (.mk hruleB hB)) ihB

/-! ## Where the two are -/

/-- `i` is what `p` has said from the first script to the second one, and the flag is whether it has closed. -/
inductive Behind (p : Side) : List β → Bool → Script β → Script β → Prop where
  | refl {w : Script β} : Behind p [] false w w
  | part {i l : List β} {w : Script β} : l ≠ [] →
      Behind p i false ((p, .stream (i ++ l)) :: w) ((p, .stream l) :: w)
  | message {i l : List β} {c : Bool} {w v : Script β} : Behind p i c w v →
      Behind p (l ++ i) c ((p, .message l) :: w) v
  | stream {i l : List β} {c : Bool} {w v : Script β} : Behind p i c w v →
      Behind p (l ++ i) c ((p, .stream l) :: w) v
  | close {i : List β} {c : Bool} {w v : Script β} : Behind p i c w v → Behind p i true ((p, .close) :: w) v

namespace Behind

variable {p q : Side} {i l l' : List β} {c : Bool} {w v : Script β} {u : Word β}

/-- Only words of `p` are passed. -/
theorem of_own (h : Behind p i c ((q, u) :: w) v) (hq : q ≠ p) :
    i = [] ∧ c = false ∧ v = (q, u) :: w := by
  cases h with
  | refl => exact ⟨rfl, rfl, rfl⟩
  | part _ | message _ | stream _ | close _ => exact absurd rfl hq

/-! What `p` says next. -/

theorem says_message (h : Behind p i c v ((p, .message l) :: w)) : Behind p (i ++ l) c v w := by
  generalize hv : (p, Word.message l) :: w = v' at h
  induction h with
  | refl =>
      subst hv
      simpa using Behind.message (l := l) (.refl (w := w))
  | part _ => cases hv
  | message _ ih => exact List.append_assoc .. ▸ .message (ih hv)
  | stream _ ih => exact List.append_assoc .. ▸ .stream (ih hv)
  | close _ ih => exact .close (ih hv)

theorem says_stream (h : Behind p i c v ((p, .stream (l ++ l')) :: w)) :
    Behind p (i ++ l) c v (andThen p l' w) := by
  -- what a stream leaves, if all of it was still to come
  have hwhole : ∀ i, Behind p (i ++ l) false ((p, .stream (i ++ (l ++ l'))) :: w) (andThen p l' w) := by
    intro i
    unfold andThen
    split
    · rename_i hempty
      simpa [hempty] using Behind.stream (p := p) (l := i ++ l) (.refl (w := w))
    · rename_i hmore
      exact List.append_assoc .. ▸ .part hmore
  generalize hv : (p, Word.stream (l ++ l')) :: w = v' at h
  induction h with
  | refl =>
      subst hv
      exact hwhole []
  | part _ =>
      cases hv
      exact hwhole _
  | message _ ih => exact List.append_assoc .. ▸ .message (ih hv)
  | stream _ ih => exact List.append_assoc .. ▸ .stream (ih hv)
  | close _ ih => exact .close (ih hv)

theorem says_close (h : Behind p i c v ((p, .close) :: w)) : Behind p i true v w := by
  generalize hv : (p, Word.close) :: w = v' at h
  induction h with
  | refl =>
      subst hv
      exact .close .refl
  | part _ => cases hv
  | message _ ih => exact .message (ih hv)
  | stream _ ih => exact .stream (ih hv)
  | close _ ih => exact .close (ih hv)

/-- Nothing has been said where the other one has to speak first. -/
theorem of_pauses {me : Side} (h : Behind me.peer i c w v) (hw : Pauses me w) : i = [] := by
  induction h with
  | refl => rfl
  | part _ | message _ | stream _ => exact absurd hw (Side.peer_ne me)
  | close _ ih => exact ih (hw.resolve_left (Side.peer_ne me))

/-- What is ahead is still before the one that is behind. -/
theorem mem (h : Behind p i c w v) {q : Side} (hq : ∃ u, (q, u) ∈ v) : ∃ u, (q, u) ∈ w := by
  induction h with
  | refl => exact hq
  | part _ =>
      obtain ⟨u, hu⟩ := hq
      rcases List.mem_cons.1 hu with hu | hu
      · cases hu
        exact ⟨_, List.mem_cons_self⟩
      · exact ⟨u, List.mem_cons_of_mem _ hu⟩
  | message _ ih | stream _ ih | close _ ih =>
      obtain ⟨u, hu⟩ := ih hq
      exact ⟨u, List.mem_cons_of_mem _ hu⟩

end Behind

/-- The program at `x` has come to `A` and not further than the other one, which has come to `B`. -/
structure Follows (me : Side) (A : Config σ β) (B : Config τ β) (x : End σ β) (y : End τ β) : Prop where
  state : x.state = A.state
  other : y.state = B.state
  behind : ∃ i, Behind me.peer i y.closed A.script B.script ∧ (A.deaf = true ∨ x.inbox = i)
  heard : B.deaf = true ∨ y.inbox = []
  opened : x.closed = false

/-- One follows the other. -/
def Linked (me : Side) (A : Config σ β) (B : Config τ β) (x : End σ β) (y : End τ β) : Prop :=
  Follows me A B x y ∨ Follows me.peer B A y x

/-- What a program that is at `x` can do. -/
inductive Outlook (move : σ → Move σ β) (F : σ → Prop) (me : Side) (A : Config σ β)
    (S : Config σ β → Prop) (B : Config τ β) (x : End σ β) (y : End τ β) (waits : Prop) : Prop where
  | moves : (∃ x' y', Half move x y x' y') →
      (∀ x' y', Half move x y x' y' → ∃ A', S A' ∧ Linked me A' B x' y') →
      Outlook move F me A S B x y waits
  | waits : (∀ (x' : End σ β) (y' : End τ β), ¬ Half move x y x' y') → waits →
      Outlook move F me A S B x y waits
  | rests : (∀ (x' : End σ β) (y' : End τ β), ¬ Half move x y x' y') → F x.state →
      (∀ u ∈ A.script, u.1 = me.peer) → Outlook move F me A S B x y waits

section Outlook

variable {left : σ → Move σ β} {F : σ → Prop} {me : Side} {A : Config σ β} {S : Config σ β → Prop}
  {B : Config τ β} {x : End σ β} {y : End τ β} {waits waits' : Prop}

theorem Outlook.imp (h : Outlook left F me A S B x y waits) (himp : waits → waits') :
    Outlook left F me A S B x y waits' := by
  cases h with
  | moves hgo hall => exact .moves hgo hall
  | waits hnone hwaits => exact .waits hnone (himp hwaits)
  | rests hnone hF hscript => exact .rests hnone hF hscript

theorem Linked.swap (h : Linked me A B x y) : Linked me.peer B A y x := by
  unfold Linked at h ⊢
  rw [Side.peer_peer]
  exact h.symm

theorem Linked.state (h : Linked me A B x y) : x.state = A.state := by
  rcases h with h | h
  · exact h.state
  · exact h.other

/-- A step that says and hears nothing. -/
theorem Linked.goto {d : Bool} {s : σ} {w : Script β} (h : Linked me ⟨d, s, w⟩ B x y) (s' : σ) :
    Linked me ⟨d, s', w⟩ B { x with state := s' } y := by
  rcases h with h | h
  · exact .inl ⟨rfl, h.other, h.behind, h.heard, h.opened⟩
  · exact .inr ⟨h.state, rfl, h.behind, h.heard, h.opened⟩

theorem Linked.outlook_go {d : Bool} {s s' : σ} {w : Script β} (h : Linked me ⟨d, s, w⟩ B x y)
    (hmove : left s = .go s') :
    Outlook left F me ⟨d, s, w⟩ (· = ⟨d, s', w⟩) B x y waits := by
  have hx : left x.state = .go s' := h.state ▸ hmove
  refine .moves ⟨_, _, .go hx⟩ fun x' y' hhalf => ?_
  obtain ⟨rfl, rfl⟩ := (half_go hx).1 hhalf
  exact ⟨_, rfl, h.goto s'⟩

theorem Linked.outlook_sendNothing {d : Bool} {s s' : σ} {w : Script β}
    (h : Linked me ⟨d, s, w⟩ B x y) (hmove : left s = .send [] s') :
    Outlook left F me ⟨d, s, w⟩ (· = ⟨d, s', w⟩) B x y waits := by
  have hx : left x.state = .send [] s' := h.state ▸ hmove
  refine .moves ⟨_, _, .send hx⟩ fun x' y' hhalf => ?_
  obtain ⟨rfl, rfl⟩ := (half_send hx).1 hhalf
  rw [List.append_nil]
  exact ⟨_, rfl, h.goto s'⟩

/-- At a word of its own a program is as far as the other one. -/
theorem Follows.turn {d : Bool} {s : σ} {u : Word β} {w : Script β}
    (h : Follows me ⟨d, s, (me, u) :: w⟩ B x y) : Follows me.peer B ⟨d, s, (me, u) :: w⟩ y x := by
  obtain ⟨hstate, hother, ⟨i, hbehind, hinbox⟩, hheard, hopen⟩ := h
  obtain ⟨rfl, hclosed, hscript⟩ := hbehind.of_own (Side.ne_peer me)
  refine ⟨hother, hstate, ⟨[], ?_, hheard⟩, hinbox, hclosed⟩
  rw [hscript, hopen]
  exact .refl

/-- The other one has come to `B` and not further. -/
theorem Rule.outlook_leads (hrule : Rule left F me A S) (h : Follows me.peer B A y x) :
    Outlook left F me A S B x y (∃ u w, A.script = (me.peer, u) :: w) := by
  have hlinked : Linked me A B x y := .inr h
  have hstate := hlinked.state
  obtain ⟨hother, -, ⟨i, hbehind, hinbox⟩, hheard, hopen⟩ := h
  rw [Side.peer_peer] at hbehind
  -- a `recv` waits for what the other one is about to say
  have hidle : ∀ {whole : Bool} {want : Nat} {next : List β → σ},
      left A.state = .recv whole want next → A.deaf = false →
      ∀ (x' : End σ β) (y' : End τ β), ¬ Half left x y x' y' := by
    intro whole want next hmove hdeaf x' y'
    refine not_half_recv (hstate ▸ hmove) (hheard.resolve_left ?_) hopen
    simp [hdeaf]
  cases hrule with
  | go hmove => exact hlinked.outlook_go hmove
  | sendNothing hmove => exact hlinked.outlook_sendNothing hmove
  | @send d s s' l w hmove =>
      have hx : left x.state = .send l s' := hstate ▸ hmove
      refine .moves ⟨_, _, .send hx⟩ fun x' y' hhalf => ?_
      obtain ⟨rfl, rfl⟩ := (half_send hx).1 hhalf
      refine ⟨_, rfl, .inr ⟨hother, rfl, ⟨i ++ l, ?_, ?_⟩, hheard, hopen⟩⟩
      · rw [Side.peer_peer]
        exact hbehind.says_message
      · exact hinbox.imp_right (congrArg (· ++ l))
  | @put d s s' l l' w hmove =>
      have hx : left x.state = .send l s' := hstate ▸ hmove
      refine .moves ⟨_, _, .send hx⟩ fun x' y' hhalf => ?_
      obtain ⟨rfl, rfl⟩ := (half_send hx).1 hhalf
      refine ⟨_, rfl, .inr ⟨hother, rfl, ⟨i ++ l, ?_, ?_⟩, hheard, hopen⟩⟩
      · rw [Side.peer_peer]
        exact hbehind.says_stream
      · exact hinbox.imp_right (congrArg (· ++ l))
  | @close d s s' w hmove =>
      have hx : left x.state = .close s' := hstate ▸ hmove
      refine .moves ⟨_, _, .close hx⟩ fun x' y' hhalf => ?_
      obtain ⟨rfl, rfl⟩ := (half_close hx).1 hhalf
      refine ⟨_, rfl, .inr ⟨hother, rfl, ⟨i, ?_, hinbox⟩, hheard, hopen⟩⟩
      rw [Side.peer_peer]
      exact hbehind.says_close
  | hear hmove | hearPart hmove | take hmove | hearEnd hmove =>
      exact .waits (hidle hmove rfl) ⟨_, _, rfl⟩
  | stops hmove hF hscript =>
      exact .rests (fun _ _ => not_half_stop (hstate ▸ hmove)) (hstate ▸ hF) hscript
  | waits hmove hF => exact .rests (hidle hmove rfl) (hstate ▸ hF) (by simp)

/-- What was said of a message is all of it. -/
theorem Follows.message {s : σ} {l : List β} {w : Script β}
    (h : Follows me ⟨false, s, (me.peer, .message l) :: w⟩ B x y) :
    (x.inbox = [] ∧ y.closed = false ∧ ∃ u w, B.script = (me.peer, u) :: w) ∨
      ∃ i, x.inbox = l ++ i ∧ Behind me.peer i y.closed w B.script := by
  obtain ⟨-, -, ⟨i, hbehind, hinbox⟩, -, -⟩ := h
  have hcome : x.inbox = i := hinbox.resolve_left Bool.false_ne_true
  generalize y.closed = c at hbehind
  generalize B.script = v at hbehind
  cases hbehind with
  | refl => exact .inl ⟨hcome, rfl, _, _, rfl⟩
  | message hbehind => exact .inr ⟨_, hcome, hbehind⟩

/-- Of a stream it may be a part. -/
theorem Follows.stream {s : σ} {l : List β} {w : Script β}
    (h : Follows me ⟨false, s, (me.peer, .stream l) :: w⟩ B x y) (hl : l ≠ [])
    (hw : Pauses me w) :
    (y.closed = false ∧ ∃ l', l' ≠ [] ∧ l = x.inbox ++ l' ∧ B.script = (me.peer, .stream l') :: w) ∨
      x.inbox = l ∧ Behind me.peer [] y.closed w B.script := by
  obtain ⟨-, -, ⟨i, hbehind, hinbox⟩, -, -⟩ := h
  have hcome : x.inbox = i := hinbox.resolve_left Bool.false_ne_true
  generalize y.closed = c at hbehind
  generalize B.script = v at hbehind
  cases hbehind with
  | refl => exact .inl ⟨rfl, l, hl, by rw [hcome, List.nil_append], rfl⟩
  | part hmore => exact .inl ⟨rfl, _, hmore, by rw [hcome], rfl⟩
  | stream hbehind =>
      obtain rfl := hbehind.of_pauses hw
      exact .inr ⟨by rw [hcome, List.append_nil], hbehind⟩

section Recv

variable {s : σ} {want : Nat} {next : List β → σ} {l : List β} {w : Script β}

theorem Follows.outlook_hear (h : Follows me ⟨false, s, (me.peer, .message l) :: w⟩ B x y)
    (hmove : left s = .recv true want next) (hl : l ≠ []) (hle : l.length ≤ want)
    (hnext : l.length = want ∨ Pauses me w) :
    Outlook left F me ⟨false, s, (me.peer, .message l) :: w⟩ (· = ⟨false, next l, w⟩) B x y
      (∃ u w, B.script = (me.peer, u) :: w) := by
  have hx : left x.state = .recv true want next := h.state ▸ hmove
  have hpos : 0 < l.length := List.length_pos_iff.2 hl
  rcases h.message with ⟨hempty, hopen, hwaits⟩ | ⟨i, hinbox, hbehind⟩
  · exact .waits (fun _ _ => not_half_recv hx hempty hopen) hwaits
  · -- more has come only if the message is all that was asked for
    have hall : min want x.inbox.length = l.length := by
      rw [hinbox, List.length_append]
      rcases hnext with hnext | hnext
      · omega
      · obtain rfl := hbehind.of_pauses hnext
        rw [List.length_nil]
        omega
    refine .moves ⟨_, _, .recv l.length hx hpos hle (by omega) fun _ => hall.symm⟩ fun x' y' hhalf => ?_
    rcases (half_recv hx).1 hhalf with ⟨n, -, -, -, hn, rfl, rfl⟩ | ⟨hempty, -⟩
    · obtain rfl : n = l.length := (hn rfl).trans hall
      exact ⟨_, rfl, .inl ⟨by simp [hinbox], h.other, ⟨i, hbehind, .inr (by simp [hinbox])⟩, h.heard,
        h.opened⟩⟩
    · exact absurd (List.append_eq_nil_iff.1 (hinbox.symm.trans hempty)).1 hl

theorem Follows.outlook_hearPart (h : Follows me ⟨false, s, (me.peer, .message l) :: w⟩ B x y)
    (hmove : left s = .recv true want next) (hpos : 0 < want) (hlt : want < l.length) :
    Outlook left F me ⟨false, s, (me.peer, .message l) :: w⟩ (· = ⟨true, next (l.take want), w⟩) B x y
      (∃ u w, B.script = (me.peer, u) :: w) := by
  have hx : left x.state = .recv true want next := h.state ▸ hmove
  rcases h.message with ⟨hempty, hopen, hwaits⟩ | ⟨i, hinbox, hbehind⟩
  · exact .waits (fun _ _ => not_half_recv hx hempty hopen) hwaits
  · have hall : min want x.inbox.length = want := by
      rw [hinbox, List.length_append]
      omega
    refine .moves ⟨_, _, .recv want hx hpos (Nat.le_refl _) (by omega) fun _ => hall.symm⟩
      fun x' y' hhalf => ?_
    rcases (half_recv hx).1 hhalf with ⟨n, -, -, -, hn, rfl, rfl⟩ | ⟨hempty, -⟩
    · obtain rfl : n = want := (hn rfl).trans hall
      refine ⟨_, rfl, .inl ⟨?_, h.other, ⟨i, hbehind, .inl rfl⟩, h.heard, h.opened⟩⟩
      simp only [hinbox, List.take_append_of_le_length (Nat.le_of_lt hlt)]
    · rw [hempty, List.length_nil] at hall
      omega

theorem Follows.outlook_take (h : Follows me ⟨false, s, (me.peer, .stream l) :: w⟩ B x y)
    (hmove : left s = .recv false want next) (hpos : 0 < want) (hl : l ≠ []) (hnext : Pauses me w) :
    Outlook left F me ⟨false, s, (me.peer, .stream l) :: w⟩ (fun c => ∃ n, 0 < n ∧ n ≤ want ∧
        n ≤ l.length ∧ c = ⟨false, next (l.take n), andThen me.peer (l.drop n) w⟩) B x y
      (∃ u w, B.script = (me.peer, u) :: w) := by
  have hx : left x.state = .recv false want next := h.state ▸ hmove
  rcases h.stream hl hnext with ⟨hopen, l', hmore, rfl, hscript⟩ | ⟨hinbox, hbehind⟩
  · -- a part of the stream has come
    by_cases hempty : x.inbox = []
    · exact .waits (fun _ _ => not_half_recv hx hempty hopen) ⟨_, _, hscript⟩
    · have hlen : 0 < x.inbox.length := List.length_pos_iff.2 hempty
      refine .moves ⟨_, _, .recv 1 hx (by decide) hpos hlen (by simp)⟩ fun x' y' hhalf => ?_
      rcases (half_recv hx).1 hhalf with ⟨n, hn, hwant, hle, -, rfl, rfl⟩ | ⟨hempty', -⟩
      · refine ⟨_, ⟨n, hn, hwant, by rw [List.length_append]; omega, rfl⟩, .inl
          ⟨?_, h.other, ⟨_, ?_, .inr rfl⟩, h.heard, h.opened⟩⟩
        · simp only [List.take_append_of_le_length hle]
        · have hrest : (x.inbox ++ l').drop n = x.inbox.drop n ++ l' := List.drop_append_of_le_length hle
          have hne : x.inbox.drop n ++ l' ≠ [] := fun h => hmore (List.append_eq_nil_iff.1 h).2
          simp only [hrest, andThen, if_neg hne, hscript, hopen]
          exact .part hmore
      · exact absurd hempty' hempty
  · -- all of it has
    have hlen : 0 < l.length := List.length_pos_iff.2 hl
    refine .moves ⟨_, _, .recv 1 hx (by decide) hpos (by rwa [hinbox]) (by simp)⟩ fun x' y' hhalf => ?_
    rcases (half_recv hx).1 hhalf with ⟨n, hn, hwant, hle, -, rfl, rfl⟩ | ⟨hempty, -⟩
    · rw [hinbox] at hle
      refine ⟨_, ⟨n, hn, hwant, hle, rfl⟩, .inl
        ⟨by simp only [hinbox], h.other, ⟨_, ?_, .inr rfl⟩, h.heard, h.opened⟩⟩
      simp only [hinbox, andThen]
      split
      · rename_i hnone
        rw [hnone]
        exact hbehind
      · have hpassed := Behind.stream (l := l.drop n) hbehind
        rwa [List.append_nil] at hpassed
    · exact absurd (hinbox.symm.trans hempty) hl

theorem Follows.outlook_hearEnd {whole : Bool}
    (h : Follows me ⟨false, s, [(me.peer, .close)]⟩ B x y) (hmove : left s = .recv whole want next) :
    Outlook left F me ⟨false, s, [(me.peer, .close)]⟩ (· = ⟨false, next [], [(me.peer, .close)]⟩) B x y
      (∃ u w, B.script = (me.peer, u) :: w) := by
  have hx : left x.state = .recv whole want next := h.state ▸ hmove
  have hlinked : Linked me ⟨false, s, [(me.peer, .close)]⟩ B x y := .inl h
  obtain ⟨-, -, ⟨i, hbehind, hinbox⟩, -, -⟩ := h
  have hcome : x.inbox = i := hinbox.resolve_left Bool.false_ne_true
  have hempty : x.inbox = [] := hcome.trans (hbehind.of_pauses (.inr trivial))
  by_cases hclosed : y.closed = true
  · refine .moves ⟨_, _, .ends hx hempty hclosed⟩ fun x' y' hhalf => ?_
    rcases (half_recv hx).1 hhalf with ⟨n, hn, -, hle, -⟩ | ⟨-, -, rfl, rfl⟩
    · rw [hempty, List.length_nil] at hle
      omega
    · exact ⟨_, rfl, hlinked.goto (next [])⟩
  · have hopen : y.closed = false := Bool.eq_false_iff.2 hclosed
    rw [hopen] at hbehind
    generalize B.script = v at hbehind
    cases hbehind with
    | refl => exact .waits (fun _ _ => not_half_recv hx hempty hopen) ⟨.close, [], rfl⟩

end Recv

/-- It has come to `A` and not further than the other one. -/
theorem Rule.outlook_follows (hrule : Rule left F me A S) (h : Follows me A B x y) :
    Outlook left F me A S B x y (∃ u w, B.script = (me.peer, u) :: w) := by
  have hlinked : Linked me A B x y := .inl h
  have hstate := h.state
  -- at a word of its own it does not wait
  have hown : ∀ {u : Word β} {w : Script β}, (∃ u' w', (me, u) :: w = (me.peer, u') :: w') →
      ∃ u w, B.script = (me.peer, u) :: w := by
    rintro u w ⟨u', w', heq⟩
    exact absurd (Prod.mk.inj (List.cons.inj heq).1).1 (Side.ne_peer me)
  cases hrule with
  | go hmove => exact hlinked.outlook_go hmove
  | sendNothing hmove => exact hlinked.outlook_sendNothing hmove
  | send hmove => exact ((Rule.send hmove).outlook_leads h.turn).imp hown
  | put hmove => exact ((Rule.put hmove).outlook_leads h.turn).imp hown
  | close hmove => exact ((Rule.close hmove).outlook_leads h.turn).imp hown
  | hear hmove hl hle hnext => exact h.outlook_hear hmove hl hle hnext
  | hearPart hmove hpos hlt => exact h.outlook_hearPart hmove hpos hlt
  | take hmove hpos hl hnext => exact h.outlook_take hmove hpos hl hnext
  | hearEnd hmove => exact h.outlook_hearEnd hmove
  | stops hmove hF hscript =>
      exact .rests (fun _ _ => not_half_stop (hstate ▸ hmove)) (hstate ▸ hF) hscript
  | @waits s whole want next hmove hF =>
      have hx : left x.state = .recv whole want next := hstate ▸ hmove
      obtain ⟨-, -, ⟨i, hbehind, hinbox⟩, -, -⟩ := h
      have hcome : x.inbox = i := hinbox.resolve_left Bool.false_ne_true
      generalize hclosed : y.closed = c at hbehind
      generalize B.script = v at hbehind
      cases hbehind with
      | refl =>
          exact .rests (fun _ _ => not_half_recv hx hcome hclosed) (hstate ▸ hF) (by simp)

end Outlook

/-! ## Both programs -/

section Both

variable {left : σ → Move σ β} {right : τ → Move τ β} {F : σ → Prop} {G : τ → Prop} {me : Side}
  {A : Config σ β} {B : Config τ β} {x : End σ β} {y : End τ β}

/-- Both are done, and nothing can happen any more. -/
def Finished (left : σ → Move σ β) (right : τ → Move τ β) (F : σ → Prop) (G : τ → Prop)
    (p : End σ β × End τ β) : Prop :=
  F p.1.state ∧ G p.2.state ∧ ∀ q, ¬ Step left right p q

/-- If they do not wait for each other, one of them can take a step, or they are done. -/
theorem until_of_outlooks {S : Config σ β → Prop} {T : Config τ β → Prop} {waits waits' : Prop}
    (hA : Outlook left F me A S B x y waits) (hB : Outlook right G me.peer B T A y x waits')
    (hwait : waits → waits' → False) (hrest : waits → (∀ u ∈ B.script, u.1 = me.peer.peer) → False)
    (hrest' : waits' → (∀ u ∈ A.script, u.1 = me.peer) → False)
    (ihA : ∀ A', S A' → ∀ x y, Linked me A' B x y →
      Until (Step left right) (fun _ => True) (Finished left right F G) (x, y))
    (ihB : ∀ B', T B' → ∀ x y, Linked me A B' x y →
      Until (Step left right) (fun _ => True) (Finished left right F G) (x, y)) :
    Until (Step left right) (fun _ => True) (Finished left right F G) (x, y) := by
  have hleft : ∀ x' y', (∃ A', S A' ∧ Linked me A' B x' y') →
      Until (Step left right) (fun _ => True) (Finished left right F G) (x', y') := by
    rintro x' y' ⟨A', hA', hlinked⟩
    exact ihA A' hA' x' y' hlinked
  have hright : ∀ x' y', (∃ B', T B' ∧ Linked me.peer B' A y' x') →
      Until (Step left right) (fun _ => True) (Finished left right F G) (x', y') := by
    rintro x' y' ⟨B', hB', hlinked⟩
    exact ihB B' hB' x' y' (Side.peer_peer me ▸ hlinked.swap)
  cases hA with
  | moves hgo hall =>
      obtain ⟨x', y', hgo⟩ := hgo
      refine .later trivial ⟨(x', y'), .inl hgo⟩ ?_
      rintro ⟨x', y'⟩ (hstep | hstep)
      · exact hleft x' y' (hall x' y' hstep)
      · cases hB with
        | moves _ hall' => exact hright x' y' (hall' y' x' hstep)
        | waits hnone _ | rests hnone _ _ => exact absurd hstep (hnone _ _)
  | waits hnone hwaits =>
      cases hB with
      | moves hgo hall =>
          obtain ⟨y', x', hgo⟩ := hgo
          refine .later trivial ⟨(x', y'), .inr hgo⟩ ?_
          rintro ⟨x', y'⟩ (hstep | hstep)
          · exact absurd hstep (hnone _ _)
          · exact hright x' y' (hall y' x' hstep)
      | waits _ hwaits' => exact (hwait hwaits hwaits').elim
      | rests _ _ hscript => exact (hrest hwaits hscript).elim
  | rests hnone hF hscript =>
      cases hB with
      | moves hgo hall =>
          obtain ⟨y', x', hgo⟩ := hgo
          refine .later trivial ⟨(x', y'), .inr hgo⟩ ?_
          rintro ⟨x', y'⟩ (hstep | hstep)
          · exact absurd hstep (hnone _ _)
          · exact hright x' y' (hall y' x' hstep)
      | waits _ hwaits' => exact (hrest' hwaits' hscript).elim
      | rests hnone' hG _ =>
          exact .now ⟨hF, hG, fun q hstep => hstep.elim (hnone _ _) (hnone' _ _)⟩

/-- Two programs that keep to the same script come to its end, however they take turns and whatever their `recv`
calls return. -/
theorem until_of_plays (hA : Plays left F me A) (hB : Plays right G me.peer B)
    (h : Linked me A B x y) :
    Until (Step left right) (fun _ => True) (Finished left right F G) (x, y) := by
  revert x y
  refine Plays.induct₂ (P := fun A B => ∀ {x y}, Linked me A B x y →
    Until (Step left right) (fun _ => True) (Finished left right F G) (x, y)) ?_ hA hB
  intro A B S T hruleA hruleB ihA ihB x y hlinked
  have hself : ∀ {u : Side × Word β} {w : Script β} {p : Side}, (∀ v ∈ u :: w, v.1 = p) → u.1 = p :=
    fun h => h _ List.mem_cons_self
  rcases hlinked with h | h
  · have h' : Follows me.peer.peer A B x y := (Side.peer_peer me).symm ▸ h
    refine until_of_outlooks (hruleA.outlook_follows h) (hruleB.outlook_leads h') ?_ ?_ ?_
      (fun A' hA' x y => ihA A' hA') (fun B' hB' x y => ihB B' hB')
    · rintro ⟨u, w, hu⟩ ⟨v, w', hv⟩
      rw [hu] at hv
      exact Side.ne_peer _ (Prod.mk.inj (List.cons.inj hv).1).1
    · rintro ⟨u, w, hu⟩ hall
      rw [hu] at hall
      exact Side.ne_peer _ (hself hall)
    · rintro ⟨u, w, hu⟩ hall
      obtain ⟨i, hbehind, -⟩ := h.behind
      obtain ⟨v, hv⟩ := hbehind.mem ⟨u, hu ▸ List.mem_cons_self⟩
      exact Side.peer_ne _ (hall _ hv)
  · refine until_of_outlooks (hruleA.outlook_leads h) (hruleB.outlook_follows h) ?_ ?_ ?_
      (fun A' hA' x y => ihA A' hA') (fun B' hB' x y => ihB B' hB')
    · rintro ⟨u, w, hu⟩ ⟨v, w', hv⟩
      rw [hu] at hv
      exact Side.ne_peer _ (Prod.mk.inj (List.cons.inj hv).1).1
    · rintro ⟨u, w, hu⟩ hall
      obtain ⟨i, hbehind, -⟩ := h.behind
      obtain ⟨v, hv⟩ := hbehind.mem ⟨u, hu ▸ List.mem_cons_self⟩
      exact Side.ne_peer _ (hall _ hv)
    · rintro ⟨u, w, hu⟩ hall
      rw [hu] at hall
      exact Side.peer_ne _ (hself hall)

/-- From the beginning of a connection. -/
theorem until_of_script {s : σ} {t : τ} {w : Script β} (hs : Plays left F me ⟨false, s, w⟩)
    (ht : Plays right G me.peer ⟨false, t, w⟩) :
    Until (Step left right) (fun _ => True) (Finished left right F G) (⟨s, [], false⟩, ⟨t, [], false⟩) :=
  until_of_plays hs ht (.inl ⟨rfl, rfl, ⟨[], .refl, .inr rfl⟩, .inr rfl, rfl⟩)

end Both

end Conversation
end FileTransfer
