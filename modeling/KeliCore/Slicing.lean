/-
Calls that return a value, fail or abort the process, and the slices that
abort: text is cut at byte offsets, which must not lie inside a character.
-/
import Mathlib.Algebra.BigOperators.Group.List.Basic
import Mathlib.Algebra.GroupWithZero.Nat
import Mathlib.Data.String.Basic

universe u v w

namespace Slicing

/-- What a call comes to. -/
inductive Attempt (ε : Type u) (α : Type v) where
  | ok (value : α)
  | err (error : ε)
  | panicked
deriving DecidableEq

namespace Attempt

variable {ε : Type u} {α : Type v} {β : Type w}

def map (f : α → β) : Attempt ε α → Attempt ε β
  | ok value => ok (f value)
  | err error => err error
  | panicked => panicked

end Attempt

/-- The length of a text in bytes. -/
def size (text : List Char) : Nat := (text.map Char.utf8Size).sum

@[simp] theorem size_nil : size [] = 0 := rfl

@[simp] theorem size_cons (char : Char) (text : List Char) :
    size (char :: text) = char.utf8Size + size text := by simp [size]

@[simp] theorem size_append (front rest : List Char) :
    size (front ++ rest) = size front + size rest := by simp [size]

variable {text : List Char}

theorem size_eq_zero_iff : size text = 0 ↔ text = [] := by
  cases text with
  | nil => simp
  | cons char text =>
    have hpos := char.utf8Size_pos
    simp
    omega

/-- `str::split_at_checked`: the offset must be the boundary of a character. -/
def splitAt : Nat → List Char → Option (List Char × List Char)
  | 0, text => some ([], text)
  | _ + 1, [] => none
  | offset + 1, char :: text =>
    if char.utf8Size ≤ offset + 1 then
      (splitAt (offset + 1 - char.utf8Size) text).map fun parts => (char :: parts.1, parts.2)
    else none

/-- `&text[start..stop]`, unless it aborts. -/
def slice (text : List Char) (start stop : Nat) : Option (List Char) :=
  (splitAt start text).bind fun parts => (splitAt (stop - start) parts.2).map Prod.fst

theorem splitAt_size (front rest : List Char) :
    splitAt (size front) (front ++ rest) = some (front, rest) := by
  induction front with
  | nil => simp [splitAt]
  | cons char front ih =>
    have hpos := char.utf8Size_pos
    obtain ⟨offset, hoffset⟩ : ∃ offset,
        size (char :: front) = offset + 1 := ⟨size (char :: front) - 1, by
      rw [size_cons]
      omega⟩
    rw [hoffset, List.cons_append, splitAt]
    rw [size_cons] at hoffset
    rw [if_pos (by omega), ← hoffset, Nat.add_sub_cancel_left, ih]
    rfl

theorem append_of_splitAt {offset : Nat} {front rest : List Char}
    (hsplit : splitAt offset text = some (front, rest)) :
    text = front ++ rest ∧ size front = offset := by
  induction text generalizing offset front with
  | nil =>
    cases offset with
    | zero =>
      cases hsplit
      simp
    | succ offset => simp [splitAt] at hsplit
  | cons char text ih =>
    cases offset with
    | zero =>
      cases hsplit
      simp
    | succ offset =>
      rw [splitAt] at hsplit
      split at hsplit
      · obtain ⟨⟨first, last⟩, hparts, heq⟩ := Option.map_eq_some_iff.1 hsplit
        simp only [Prod.mk.injEq] at heq
        obtain ⟨rfl, rfl⟩ := heq
        obtain ⟨rfl, hsize⟩ := ih hparts
        rw [size_cons]
        exact ⟨rfl, by omega⟩
      · contradiction

theorem slice_append (front rest : List Char) (count : Nat) :
    slice (front ++ rest) (size front) (size front + count) =
      (splitAt count rest).map Prod.fst := by
  rw [slice, splitAt_size, Nat.add_sub_cancel_left]
  rfl

end Slicing
