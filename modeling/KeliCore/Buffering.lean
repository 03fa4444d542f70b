/-
A buffered reader over a source that is read in pieces.  The reader draws a
piece when its buffer is empty and hands out bytes from the buffer; what it has
drawn and not handed out is gone for everyone else who reads the source.
-/
import Mathlib.Data.List.Basic

universe u

namespace Buffering

open List Option

variable {α : Type u}

/-- `pieces` are what the next reads of the source return; then it is at its
end. -/
structure BufReader (α : Type u) where
  buffer : List α
  pieces : List (List α)
deriving DecidableEq

namespace BufReader

/-- A reader that has drawn nothing. -/
def new (pieces : List (List α)) : BufReader α := ⟨[], pieces⟩

/-- All that is still to be handed out. -/
def remaining (reader : BufReader α) : List α :=
  reader.buffer ++ reader.pieces.flatten

end BufReader

variable {pieces : List (List α)}

section Until

variable [DecidableEq α] (delimiter : α)

def cutBehind : List α → Option (List α × List α)
  | [] => none
  | first :: rest =>
    if first = delimiter then some ([first], rest)
    else (cutBehind rest).map fun parts => (first :: parts.1, parts.2)

theorem cutBehind_append {content : List α} (hfree : delimiter ∉ content) (rest : List α) :
    cutBehind delimiter (content ++ delimiter :: rest) = some (content ++ [delimiter], rest) := by
  induction content with
  | nil => simp [cutBehind]
  | cons first content ih =>
    rw [mem_cons, not_or] at hfree
    rw [cons_append, cutBehind, if_neg (Ne.symm hfree.1), ih hfree.2]
    rfl

variable {input line rest : List α}

theorem append_of_cutBehind
    (hcut : cutBehind delimiter input = some (line, rest)) : line ++ rest = input ∧ line ≠ [] ∧
      ∃ content, line = content ++ [delimiter] ∧ delimiter ∉ content := by
  induction input generalizing line with
  | nil => contradiction
  | cons first input ih =>
    rw [cutBehind] at hcut
    split at hcut
    next hfirst =>
      cases hcut
      exact ⟨rfl, by simp, [], by simp [hfirst], by simp⟩
    next hfirst =>
      obtain ⟨⟨tail, back⟩, hparts, heq⟩ := map_eq_some_iff.1 hcut
      cases heq
      obtain ⟨rfl, -, content, rfl, hfree⟩ := ih hparts
      exact ⟨rfl, by simp, first :: content, rfl, by simp [hfree, Ne.symm hfirst]⟩

theorem cutBehind_none (hcut : cutBehind delimiter input = none) : delimiter ∉ input := by
  induction input with
  | nil => simp
  | cons first input ih =>
    rw [cutBehind] at hcut
    split at hcut
    · contradiction
    next hfirst =>
      rw [mem_cons, not_or]
      exact ⟨Ne.symm hfirst, ih (map_eq_none_iff.1 hcut)⟩

theorem cutBehind_of_free {front : List α} (hfree : delimiter ∉ front) (rest : List α) :
    cutBehind delimiter (front ++ rest) = (cutBehind delimiter rest).map fun parts =>
        (front ++ parts.1, parts.2) := by
  induction front with
  | nil => simp
  | cons first front ih =>
    rw [mem_cons, not_or] at hfree
    rw [cons_append, cutBehind, if_neg (Ne.symm hfree.1), ih hfree.2, Option.map_map]
    rfl

/-- `read_until`: up to and with the delimiter, or to the end. -/
def readUntilFrom (buffer : List α) : List (List α) → List α × BufReader α
  | [] =>
    match cutBehind delimiter buffer with
    | some (line, rest) => (line, ⟨rest, []⟩)
    | none => (buffer, ⟨[], []⟩)
  | piece :: pieces =>
    match cutBehind delimiter buffer with
    | some (line, rest) => (line, ⟨rest, piece :: pieces⟩)
    | none =>
      let (line, reader) := readUntilFrom piece pieces
      (buffer ++ line, reader)

def BufReader.readUntil (reader : BufReader α) : List α × BufReader α :=
  readUntilFrom delimiter reader.buffer reader.pieces

variable {delimiter}

/-- The line depends on the bytes alone, not on the pieces they come in. -/
theorem readUntilFrom_of_cut {buffer : List α}
    (hcut : cutBehind delimiter (buffer ++ pieces.flatten) = some (line, rest)) :
    (readUntilFrom delimiter buffer pieces).1 = line ∧
      (readUntilFrom delimiter buffer pieces).2.remaining = rest := by
  induction pieces generalizing buffer line with
  | nil =>
    rw [flatten_nil, append_nil] at hcut
    rw [readUntilFrom, hcut]
    exact ⟨rfl, append_nil rest⟩
  | cons piece pieces ih =>
    rw [readUntilFrom]
    cases hbuffer : cutBehind delimiter buffer with
    | some parts =>
      obtain ⟨front, back⟩ := parts
      obtain ⟨rfl, -, content, rfl, hfree⟩ := append_of_cutBehind delimiter hbuffer
      rw [append_assoc, append_assoc, singleton_append, cutBehind_append delimiter hfree] at hcut
      simp only [some.injEq, Prod.mk.injEq] at hcut
      exact hcut
    | none =>
      rw [cutBehind_of_free delimiter (cutBehind_none delimiter hbuffer), flatten_cons] at hcut
      obtain ⟨⟨tail, back⟩, hparts, heq⟩ := map_eq_some_iff.1 hcut
      cases heq
      obtain ⟨hline, hrest⟩ := ih hparts
      exact ⟨congrArg (buffer ++ ·) hline, hrest⟩

theorem readUntilFrom_append (buffer : List α) (pieces : List (List α)) :
    (readUntilFrom delimiter buffer pieces).1 ++
        (readUntilFrom delimiter buffer pieces).2.remaining = buffer ++ pieces.flatten := by
  induction pieces generalizing buffer with
  | nil =>
    rw [readUntilFrom]
    split
    next line rest hcut =>
      rw [← (append_of_cutBehind delimiter hcut).1, append_assoc]
      rfl
    · rfl
  | cons piece pieces ih =>
    rw [readUntilFrom]
    split
    next line rest hcut =>
      rw [← (append_of_cutBehind delimiter hcut).1, append_assoc]
      rfl
    · rw [append_assoc, ih, flatten_cons]

theorem readUntilFrom_ne_nil {buffer : List α} (hbuffer : buffer ≠ []) (pieces : List (List α)) :
    (readUntilFrom delimiter buffer pieces).1 ≠ [] := by
  cases pieces with
  | nil =>
    rw [readUntilFrom]
    split
    next line rest hcut => exact (append_of_cutBehind delimiter hcut).2.1
    · exact hbuffer
  | cons piece pieces =>
    rw [readUntilFrom]
    split
    next line rest hcut => exact (append_of_cutBehind delimiter hcut).2.1
    · exact append_ne_nil_of_left_ne_nil hbuffer _

/-- What a call draws: nothing, or pieces of which the last one is touched. -/
theorem readUntilFrom_draws (buffer : List α) {pieces : List (List α)}
    (hpieces : ∀ piece ∈ pieces, piece ≠ []) :
    ∃ drawn, pieces = drawn ++ (readUntilFrom delimiter buffer pieces).2.pieces ∧
      (readUntilFrom delimiter buffer pieces).1 ++
          (readUntilFrom delimiter buffer pieces).2.buffer = buffer ++ drawn.flatten ∧
      (drawn = [] ∨ ∃ before last, drawn = before ++ [last] ∧
        (buffer ++ before.flatten).length < (readUntilFrom delimiter buffer pieces).1.length) := by
  induction pieces generalizing buffer with
  | nil =>
    refine ⟨[], ?_, ?_, .inl rfl⟩
    · rw [readUntilFrom]
      split <;> rfl
    · rw [readUntilFrom, flatten_nil]
      split
      next line rest hcut => rw [(append_of_cutBehind delimiter hcut).1, append_nil]
      · rfl
  | cons piece pieces ih =>
    rw [forall_mem_cons] at hpieces
    rw [readUntilFrom]
    cases hbuffer : cutBehind delimiter buffer with
    | some parts =>
      obtain ⟨line, rest⟩ := parts
      refine ⟨[], rfl, ?_, .inl rfl⟩
      rw [(append_of_cutBehind delimiter hbuffer).1, flatten_nil, append_nil]
    | none =>
      obtain ⟨drawn, hdrawn, hflatten, htouched⟩ := ih piece hpieces.2
      refine ⟨piece :: drawn, ?_, ?_, .inr ?_⟩
      · rw [cons_append, ← hdrawn]
      · rw [flatten_cons, append_assoc, hflatten]
      · rcases htouched with rfl | ⟨before, last, rfl, hless⟩
        · refine ⟨[], piece, rfl, ?_⟩
          have hline := length_pos_of_ne_nil
            (@readUntilFrom_ne_nil _ _ delimiter _ hpieces.1 pieces)
          simp only [flatten_nil, append_nil, length_append]
          omega
        · refine ⟨piece :: before, last, rfl, ?_⟩
          simp only [flatten_cons, length_append] at hless ⊢
          omega

end Until

/-- `read_exact`: that many, or an error at the end. -/
def readExactFrom (count : Nat) (buffer : List α) : List (List α) → Option (List α × BufReader α)
  | [] =>
    if count ≤ buffer.length then
      some (buffer.take count, ⟨buffer.drop count, []⟩)
    else none
  | piece :: pieces =>
    if count ≤ buffer.length then
      some (buffer.take count, ⟨buffer.drop count, piece :: pieces⟩)
    else
      (readExactFrom (count - buffer.length) piece pieces).map fun parts =>
        (buffer ++ parts.1, parts.2)

def BufReader.readExact (count : Nat) (reader : BufReader α) : Option (List α × BufReader α) :=
  readExactFrom count reader.buffer reader.pieces

variable {reader : Buffering.BufReader α} {consumed : List α}

theorem append_of_readExactFrom {count : Nat} {buffer body : List α}
    (hread : readExactFrom count buffer pieces = some (body, reader)) :
    body ++ reader.remaining = buffer ++ pieces.flatten ∧ body.length = count := by
  induction pieces generalizing count buffer body with
  | nil =>
    rw [readExactFrom] at hread
    split at hread
    · cases hread
      simp [BufReader.remaining]
      omega
    · contradiction
  | cons piece pieces ih =>
    rw [readExactFrom] at hread
    split at hread
    · cases hread
      rw [BufReader.remaining, ← append_assoc, take_append_drop, length_take]
      exact ⟨rfl, by omega⟩
    · obtain ⟨⟨rest, last⟩, hparts, heq⟩ := map_eq_some_iff.1 hread
      cases heq
      obtain ⟨hremaining, hlen⟩ := ih hparts
      rw [append_assoc, hremaining, length_append, hlen, flatten_cons]
      exact ⟨rfl, by omega⟩

/-- The reader has handed out `consumed`, and has drawn no piece that it did
not have to touch for it. -/
structure Drawn (pieces : List (List α)) (consumed : List α) (reader : BufReader α) : Prop where
  drawn : ∃ drawn, pieces = drawn ++ reader.pieces ∧ consumed ++ reader.buffer = drawn.flatten ∧
    (reader.buffer = [] ∨ ∃ before last, drawn = before ++ [last] ∧
      before.flatten.length < consumed.length)

theorem Drawn.new (pieces : List (List α)) : Drawn pieces [] (BufReader.new pieces) :=
  ⟨[], rfl, rfl, .inl rfl⟩

theorem Drawn.readUntil [DecidableEq α] (hdrawn : Drawn pieces consumed reader)
    (hpieces : ∀ piece ∈ pieces, piece ≠ []) (delimiter : α) :
    Drawn pieces (consumed ++ (reader.readUntil delimiter).1) (reader.readUntil delimiter).2 := by
  obtain ⟨before, hpre, hconsumed, htouched⟩ := hdrawn.drawn
  have hrest : ∀ piece ∈ reader.pieces, piece ≠ [] := by
    intro piece hmem
    apply hpieces
    rw [hpre]
    exact mem_append_right before hmem
  obtain ⟨more, hmore, hline, hlast⟩ := @readUntilFrom_draws _ _ delimiter reader.buffer _ hrest
  refine ⟨before ++ more, ?_, ?_, ?_⟩
  · rw [append_assoc]
    exact hpre.trans (congrArg (before ++ ·) hmore)
  · rw [flatten_append, ← hconsumed, append_assoc, append_assoc]
    exact congrArg (consumed ++ ·) hline
  · have hconsumedLength := congrArg length hconsumed
    rw [length_append] at hconsumedLength
    rcases hlast with rfl | ⟨front, last, rfl, hless⟩
    · rw [flatten_nil, append_nil] at hline
      rcases htouched with hempty | ⟨front, last, rfl, hless⟩
      · exact .inl (append_eq_nil_iff.1 (hline.trans hempty)).2
      · refine .inr ⟨front, last, append_nil _, ?_⟩
        rw [length_append]
        omega
    · refine .inr ⟨before ++ front, last, (append_assoc _ _ _).symm, ?_⟩
      rw [flatten_append, length_append, length_append, ← hconsumedLength]
      rw [length_append] at hless
      change _ < consumed.length + (readUntilFrom delimiter reader.buffer reader.pieces).1.length
      omega

/-- Nothing is left in the buffer exactly if the pieces were cut where the
bytes that were handed out end. -/
theorem Drawn.buffer_eq_nil_iff (hdrawn : Drawn pieces consumed reader) :
    reader.buffer = [] ↔ ∃ count, (pieces.take count).flatten = consumed := by
  obtain ⟨drawn, hpieces, hconsumed, htouched⟩ := hdrawn.drawn
  constructor
  · intro hempty
    refine ⟨drawn.length, ?_⟩
    rw [hpieces, take_left, ← hconsumed, hempty, append_nil]
  · rintro ⟨count, hcount⟩
    rcases htouched with hempty | ⟨before, last, rfl, hless⟩
    · exact hempty
    · have hlen := congrArg length hconsumed
      rw [length_append] at hlen
      have htaken := congrArg length hcount
      by_cases hshort : count ≤ before.length
      · -- the pieces before the last one are too short
        have hprefix : (pieces.take count).flatten.length ≤ before.flatten.length := by
          rw [hpieces, append_assoc, take_append_of_le_length hshort]
          have hsplit := congrArg (fun pieces => pieces.flatten.length)
            (take_append_drop count before)
          simp only [flatten_append, length_append] at hsplit
          omega
        omega
      · -- with the last one they hold the whole buffer
        have hlong : (before ++ [last]).flatten.length ≤ (pieces.take count).flatten.length := by
          rw [hpieces, take_append, take_of_length_le (by
            simp only [length_append, length_singleton]
            omega), @flatten_append _ (before ++ [last]),
            length_append]
          omega
        rw [← length_eq_zero_iff]
        omega

end Buffering
