/-
Reading a stream that arrives in pieces.  A source hands out its bytes a piece
at a time and may have nothing yet; a reader over it is called with buffers of
any size until it reports the end of the stream.  A reader that owes some bytes
and keeps to them, call by call, delivers exactly these.
-/
import KeliCore.Run

universe u v w

namespace Reading

open List

variable {α : Type u}

/-- What a source has next: nothing yet, or a piece that is not empty. -/
inductive Event (α : Type u) where
  | wouldBlock
  | data (first : α) (rest : List α)

/-- The events of a source in order; a source without events is at its end. -/
abbrev Source (α : Type u) := List (Event α)

namespace Source

def bytes : Source α → List α
  | [] => []
  | .wouldBlock :: events => bytes events
  | .data first rest :: events => first :: rest ++ bytes events

/-- How often a source has nothing yet. -/
def blocks : Source α → Nat
  | [] => 0
  | .wouldBlock :: events => blocks events + 1
  | .data _ _ :: events => blocks events

def putBack : List α → Source α → Source α
  | [], source => source
  | first :: rest, source => .data first rest :: source

@[simp] theorem bytes_putBack (piece : List α) (source : Source α) :
    (putBack piece source).bytes = piece ++ source.bytes := by cases piece <;> rfl

@[simp] theorem blocks_putBack (piece : List α) (source : Source α) :
    (putBack piece source).blocks = source.blocks := by cases piece <;> rfl

/-- One read into a buffer: a piece no longer than the buffer, or `none` if
there is nothing yet.  The empty piece is the end. -/
def read (room : Nat) : Source α → Source α × Option (List α)
  | [] => ([], some [])
  | .wouldBlock :: events => (events, none)
  | .data first rest :: events =>
    (putBack ((first :: rest).drop room) events, some ((first :: rest).take room))

variable {source next : Source α} {room : Nat}

theorem read_none (hread : source.read room = (next, none)) :
    next.bytes = source.bytes ∧ next.blocks + 1 = source.blocks := by
  cases source with
  | nil => simp [read] at hread
  | cons event events =>
    cases event with
    | wouldBlock =>
      cases hread
      exact ⟨rfl, rfl⟩
    | data first rest => simp [read] at hread

theorem read_some {piece : List α} (hread : source.read room = (next, some piece)) :
    piece ++ next.bytes = source.bytes ∧ piece.length ≤ room ∧ next.blocks = source.blocks := by
  cases source with
  | nil =>
    cases hread
    exact ⟨rfl, Nat.zero_le _, rfl⟩
  | cons event events =>
    cases event with
    | wouldBlock => simp [read] at hread
    | data first rest =>
      cases hread
      refine ⟨?_, ?_, by rw [blocks_putBack]; rfl⟩
      · rw [bytes_putBack, ← append_assoc, take_append_drop]
        rfl
      · rw [length_take]
        exact Nat.min_le_left _ _

theorem read_end (hroom : 0 < room)
    (hread : source.read room = (next, some [])) : source = [] ∧ next = [] := by
  cases source with
  | nil =>
    cases hread
    exact ⟨rfl, rfl⟩
  | cons event events =>
    cases event with
    | wouldBlock => simp [read] at hread
    | data first rest =>
      simp only [read, Prod.mk.injEq, Option.some.injEq, take_eq_nil_iff] at hread
      rcases hread.2 with hzero | hnil
      · omega
      · simp at hnil

end Source

/-- Why filling a buffer stopped. -/
inductive FillEnd where
  | full
  | ended
  | blocked

structure Fill (α : Type u) where
  filled : List α
  source : Source α
  stopped : FillEnd

/-- Read until a buffer of a length is full, given what was read already. -/
def fill (length : Nat) (filled : List α) (source : Source α) : Fill α :=
  if _ : filled.length < length then
    match source.read (length - filled.length) with
    | (next, none) => ⟨filled, next, .blocked⟩
    | (next, some []) => ⟨filled, next, .ended⟩
    | (next, some (first :: rest)) => fill length (filled ++ first :: rest) next
  else ⟨filled, source, .full⟩
termination_by length - filled.length
decreasing_by
  simp only [List.length_append, List.length_cons]
  omega

/-- Filling moves bytes from the source to the buffer, and stops for one of
the three reasons. -/
theorem fill_spec (length : Nat) (filled : List α) (source : Source α)
    (hlen : filled.length ≤ length) :
    let fill := fill length filled source
    fill.filled ++ fill.source.bytes = filled ++ source.bytes ∧ filled.length ≤ fill.filled.length ∧
      match fill.stopped with
      | .full => fill.filled.length = length ∧ fill.source.blocks = source.blocks
      | .ended => fill.filled.length < length ∧ fill.source = []
      | .blocked => fill.filled.length < length ∧ fill.source.blocks < source.blocks := by
  induction filled, source using fill.induct length with
  | case1 filled source hroom next hread =>
    obtain ⟨hbytes, hblocks⟩ := Source.read_none hread
    have hfill : fill length filled source = ⟨filled, next, .blocked⟩ := by
      rw [fill, dif_pos hroom, hread]
    rw [hfill]
    exact ⟨by rw [hbytes], Nat.le_refl _, hroom, by dsimp only; omega⟩
  | case2 filled source hroom next hread =>
    obtain ⟨rfl, rfl⟩ := Source.read_end (by omega) hread
    have hfill : fill length filled [] = ⟨filled, [], .ended⟩ := by rw [fill, dif_pos hroom, hread]
    rw [hfill]
    exact ⟨rfl, Nat.le_refl _, hroom, rfl⟩
  | case3 filled source hroom next first rest hread ih =>
    obtain ⟨hbytes, hpiece, hblocks⟩ := Source.read_some hread
    have hnext : (filled ++ first :: rest).length ≤ length := by
      rw [length_append]
      omega
    have hfill : fill length filled source = fill length (filled ++ first :: rest) next := by
      rw [fill, dif_pos hroom, hread]
    rw [hfill]
    obtain ⟨hmoved, hmore, hstop⟩ := ih hnext
    refine ⟨?_, ?_, ?_⟩
    · rw [hmoved, append_assoc, hbytes]
    · rw [length_append] at hmore
      omega
    · rw [hblocks] at hstop
      exact hstop
  | case4 filled source hroom =>
    have hfill : fill length filled source = ⟨filled, source, .full⟩ := by rw [fill, dif_neg hroom]
    rw [hfill]
    exact ⟨rfl, Nat.le_refl _, by dsimp only; omega, rfl⟩

theorem fill_data {length : Nat} {filled : List α}
    (hroom : filled.length < length) (first : α) (rest : List α) (source : Source α) :
    fill length filled (.data first rest :: source) =
      fill length (filled ++ (first :: rest).take (length - filled.length))
        (.putBack ((first :: rest).drop (length - filled.length)) source) := by
  obtain ⟨need, hneed⟩ : ∃ need, length - filled.length = need + 1 :=
    ⟨length - filled.length - 1, by omega⟩
  rw [fill, dif_pos hroom, Source.read, hneed]
  rfl

theorem fill_piece {length : Nat} {filled : List α} {count : Nat}
    (hcount : count ≤ length - filled.length) (hroom : filled.length < length)
    (first : α) (rest : List α) (source : Source α) :
    fill length (filled ++ (first :: rest).take count)
        (.putBack ((first :: rest).drop count) source) =
      fill length filled (.data first rest :: source) := by
  rw [fill_data hroom]
  cases hleft : (first :: rest).drop count with
  | nil =>
    have hshort := drop_eq_nil_iff.1 hleft
    have hfits := Nat.le_trans hshort hcount
    rw [take_of_length_le hshort, take_of_length_le hfits, drop_eq_nil_of_le hfits]
  | cons next tail =>
    have hlong : count < (first :: rest).length := by
      by_contra hshort
      rw [drop_eq_nil_of_le (by omega)] at hleft
      contradiction
    have htaken : ((first :: rest).take count).length = count := by
      rw [length_take]
      omega
    by_cases hmore : filled.length + count < length
    · have hneed : length - filled.length = count + (length - (filled.length + count)) := by omega
      have hbuffer : (filled ++ (first :: rest).take count).length < length := by
        rw [length_append, htaken]
        exact hmore
      rw [Source.putBack, fill_data hbuffer, ← hleft, length_append,
        htaken, hneed, take_add, append_assoc, drop_drop]
    · have hneed : length - filled.length = count := by omega
      rw [hneed, hleft]

theorem length_fill (length : Nat) (filled : List α) (source : Source α) :
    let fill := fill length filled source
    fill.filled.length + fill.source.bytes.length = filled.length + source.bytes.length ∧
      filled.length ≤ fill.filled.length ∧
      (fill.stopped = .full → length ≤ fill.filled.length) := by
  intro result
  by_cases hlen : filled.length ≤ length
  · obtain ⟨hmoved, hmore, hstop⟩ := fill_spec length filled source hlen
    refine ⟨?_, hmore, fun hfull => ?_⟩
    · have hlengths := congrArg List.length hmoved
      rw [length_append, length_append] at hlengths
      exact hlengths
    · rw [hfull] at hstop
      exact Nat.le_of_eq hstop.1.symm
  · have hfill : result = ⟨filled, source, .full⟩ := by
      change fill length filled source = _
      rw [fill, dif_neg (by omega)]
    rw [hfill]
    exact ⟨rfl, Nat.le_refl _, fun _ => by dsimp only; omega⟩

section Reader

variable {σ : Type v} {ε : Type w}

/-- The calls made to a reader so far: the bytes it returned, whether it has
reported the end, and the error it failed with. -/
structure Session (σ : Type v) (ε : Type w) (α : Type u) where
  reader : σ
  got : List α := []
  ended : Bool := false
  failed : Option ε := none

variable (read : σ → Nat → σ × Except ε (List α)) (isBlock : ε → Bool)

/-- One call with a buffer that has room for one byte more than `room`.  A
blocked call is made again later; any other error ends the session. -/
def pull (session : Session σ ε α) (room : Nat) : Session σ ε α :=
  match session.failed with
  | some _ => session
  | none =>
    match read session.reader (room + 1) with
    | (reader, .ok []) => { session with reader, ended := true }
    | (reader, .ok (first :: rest)) => { session with reader, got := session.got ++ first :: rest }
    | (reader, .error error) =>
      if isBlock error then { session with reader }
      else { session with reader, failed := some error }

/-- Each call of a reader that owes some bytes, and may yet block so often,
either returns the next of them or blocks. -/
def Delivers (owes : σ → List α → Nat → Prop) : Prop :=
  ∀ reader owed blocks room, owes reader owed blocks → 0 < room →
    (∃ next piece rest, read reader room = (next, .ok piece) ∧
      piece ++ rest = owed ∧ (piece = [] → owed = []) ∧ owes next rest blocks) ∨
    (∃ next error left, read reader room = (next, .error error) ∧
      isBlock error = true ∧ left < blocks ∧ owes next owed left)

variable {read isBlock} {owes : σ → List α → Nat → Prop} {owed : List α}

/-- The bytes of a session and those still owed make up the whole; each call
moves on or is the last. -/
theorem Delivers.pull {blocks : Nat} {session : Session σ ε α}
    (hdelivers : Delivers read isBlock owes)
    (howes : owes session.reader owed blocks) (hfailed : session.failed = none)
    (hended : session.ended = true → owed = []) (room : Nat) :
    let next := pull read isBlock session room
    ∃ rest left, owes next.reader rest left ∧ next.failed = none ∧
      next.got ++ rest = session.got ++ owed ∧
      (session.ended = true → next.ended = true) ∧
      (next.ended = true → rest = []) ∧
      (next.ended = true ∨ rest.length + left < owed.length + blocks) := by
  simp only [Reading.pull, hfailed]
  rcases hdelivers session.reader owed blocks (room + 1) howes (by omega) with
    ⟨next, piece, rest, hread, hpiece, hlast, hnext⟩ |
    ⟨next, error, left, hread, hblock, hless, hnext⟩
  · rw [hread]
    cases piece with
    | nil =>
      have hnil := hlast rfl
      subst hnil
      rw [nil_append] at hpiece
      subst hpiece
      exact ⟨[], blocks, hnext, rfl, rfl, fun _ => rfl, fun _ => rfl, .inl rfl⟩
    | cons first tail =>
      refine ⟨rest, blocks, hnext, rfl, ?_, fun h => h, ?_, ?_⟩
      · rw [append_assoc, hpiece]
      · intro hdone
        have hnil := hended hdone
        rw [hnil] at hpiece
        simp at hpiece
      · right
        rw [← hpiece, length_append, length_cons]
        omega
  · rw [hread]
    simp only [hblock, if_true]
    exact ⟨owed, left, hnext, trivial, rfl, fun h => h, hended, .inr (by omega)⟩

/-- The result of a session: no failure, a part of what is owed, and all of it
once the end is reported, which takes no more calls than there are bytes and
blocks. -/
structure Complete (session : Session σ ε α) (owed : List α) (enough : Prop) : Prop where
  failed : session.failed = none
  part : session.got <+: owed
  whole : session.ended = true → session.got = owed
  ends : enough → session.ended = true

theorem Delivers.complete {reader : σ} {blocks : Nat} (hdelivers : Delivers read isBlock owes)
    (howes : owes reader owed blocks) (rooms : List Nat) :
    Complete (Run.exec (Reading.pull read isBlock) { reader } rooms) owed
      (owed.length + blocks < rooms.length) := by
  have hrun : ∀ (rooms : List Nat) (session : Session σ ε α) (left : List α)
      (blocks : Nat), owes session.reader left blocks →
      session.failed = none → (session.ended = true → left = []) →
      ∃ rest, let final := Run.exec (Reading.pull read isBlock) session rooms
        final.failed = none ∧ final.got ++ rest = session.got ++ left ∧
        (final.ended = true → rest = []) ∧
        (session.ended = true ∨ left.length + blocks < rooms.length → final.ended = true) := by
    intro rooms
    induction rooms with
    | nil =>
      intro session left blocks _ hfailed hended
      refine ⟨left, hfailed, rfl, hended, ?_⟩
      rintro (hdone | hnone)
      · exact hdone
      · simp at hnone
    | cons room rooms ih =>
      intro session left blocks howes hfailed hended
      obtain ⟨rest, fewer, hnext, hfailed', hgot, hstays, hended', hmoves⟩ :=
        hdelivers.pull howes hfailed hended room
      obtain ⟨final, hfinal, hbytes, hwhole, hdone⟩ := ih _ rest fewer hnext hfailed' hended'
      refine ⟨final, hfinal, hbytes.trans hgot, hwhole, ?_⟩
      rintro (hsession | henough)
      · exact hdone (.inl (hstays hsession))
      · rcases hmoves with hlast | hless
        · exact hdone (.inl hlast)
        · rw [length_cons] at henough
          exact hdone (.inr (by omega))
  obtain ⟨rest, hfailed, hgot, hwhole, hends⟩ :=
    hrun rooms { reader } owed blocks howes rfl (by simp)
  refine ⟨hfailed, ⟨rest, hgot⟩, fun hended => ?_, fun henough => hends (.inr henough)⟩
  rw [hwhole hended, append_nil] at hgot
  exact hgot

end Reader

end Reading
