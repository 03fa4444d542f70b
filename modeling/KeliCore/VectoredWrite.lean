/-
The frames of AnyTLS are written from two slices, the header and the payload.
A call of the writer takes a part of both together, or fails.
-/
import KeliCore.Bytes

namespace KeliCore

open List

/-- `write_all_vectored` over the calls of the writer, from the two positions
on: what the writer takes, and what is returned once no call is under way.  A
call takes no more than it is offered. -/
def writeAllVectored (header payload : List UInt8) :
    Nat → Nat → List (Except IoError Nat) → List UInt8 × Option (Except IoError Unit)
  | headerWritten, payloadWritten, calls =>
    if headerWritten < header.length ∨ payloadWritten < payload.length then
      match calls with
      | [] => ([], none)
      | .error error :: _ => ([], some (.error error))
      | .ok count :: calls =>
        let offered :=
          if headerWritten < header.length then
            header.drop headerWritten ++ payload.drop payloadWritten
          else payload.drop payloadWritten
        let written := min count offered.length
        if written = 0 then
          ([], some (.error ⟨.writeZero, "failed to write anytls frame"⟩))
        else
          let next :=
            if headerWritten < header.length then
              let headerRemaining := header.length - headerWritten
              if written < headerRemaining then (headerWritten + written, payloadWritten)
              else (header.length, payloadWritten + (written - headerRemaining))
            else (headerWritten, payloadWritten + written)
          let rest := writeAllVectored header payload next.1 next.2 calls
          (offered.take written ++ rest.1, rest.2)
    else ([], some (.ok ()))

/-- The same calls for one slice: the two slices are `rest`, put together. -/
def writeCalls : List UInt8 → List (Except IoError Nat) →
    List UInt8 × Option (Except IoError Unit)
  | [], _ => ([], some (.ok ()))
  | _ :: _, [] => ([], none)
  | _ :: _, .error error :: _ => ([], some (.error error))
  | first :: more, .ok count :: calls =>
    if count = 0 then ([], some (.error ⟨.writeZero, "failed to write anytls frame"⟩))
    else
      let later := writeCalls ((first :: more).drop count) calls
      ((first :: more).take count ++ later.1, later.2)

/-- The calls that are made while `left` bytes are not written. -/
def callsMade : Nat → List (Except IoError Nat) → List (Except IoError Nat)
  | 0, _ | _ + 1, [] => []
  | _ + 1, .error error :: _ => [.error error]
  | left + 1, .ok count :: calls =>
    .ok count :: if count = 0 then [] else callsMade (left + 1 - count) calls

/-- All of `rest` is taken; or a part of it, and a call has taken nothing, or
has failed other than by an interruption. -/
def Concludes (rest : List UInt8) (made : List (Except IoError Nat))
    (outcome : List UInt8 × Option (Except IoError Unit)) : Prop :=
  outcome = (rest, some (.ok ())) ∨ outcome.1 <+: rest ∧ ∃ error, outcome.2 = some (.error error) ∧
    error.kind ≠ .interrupted ∧ (.error error ∈ made ∨ .ok 0 ∈ made ∧ error.kind = .writeZero)

variable {header payload rest : List UInt8} {headerWritten payloadWritten count : Nat}
  {calls made : List (Except IoError Nat)} {outcome : List UInt8 × Option (Except IoError Unit)}

/-- A call that takes something leaves open what the calls after it conclude. -/
theorem concludes_after_iff (taken : List UInt8) (hcount : count ≠ 0) :
    Concludes (taken ++ rest) (.ok count :: made) (taken ++ outcome.1, outcome.2) ↔
      Concludes rest made outcome := by
  simp only [Concludes, Prod.ext_iff, append_cancel_left_eq, prefix_append_right_inj, mem_cons,
    reduceCtorEq, false_or, Except.ok.injEq, hcount.symm]

theorem writeCalls_concludes_iff (hcalls : rest.length ≤ calls.length) :
    Concludes rest (callsMade rest.length calls) (writeCalls rest calls) ↔
      ∀ error, .error error ∈ callsMade rest.length calls → error.kind ≠ .interrupted := by
  induction calls generalizing rest with
  | nil =>
    obtain rfl := length_eq_zero_iff.1 (Nat.le_zero.1 hcalls)
    simp [Concludes, writeCalls, callsMade]
  | cons call calls ih =>
    cases rest with
    | nil => simp [Concludes, writeCalls, callsMade]
    | cons first more =>
      cases call with
      | error error => simp [Concludes, writeCalls, callsMade]
      | ok count =>
        by_cases hcount : count = 0
        · subst hcount
          simp [Concludes, writeCalls, callsMade]
        · have hmade : callsMade (first :: more).length (.ok count :: calls) =
              .ok count :: callsMade ((first :: more).drop count).length calls := by
            rw [length_drop, length_cons, callsMade, if_neg hcount]
          have hleft : ((first :: more).drop count).length ≤ calls.length := by
            rw [length_drop]
            simp only [length_cons] at hcalls ⊢
            omega
          have hafter := @concludes_after_iff ((first :: more).drop count) count
            (callsMade ((first :: more).drop count).length calls)
            (writeCalls ((first :: more).drop count) calls) ((first :: more).take count) hcount
          rw [take_append_drop, ih hleft] at hafter
          rw [hmade, writeCalls, if_neg hcount, hafter]
          simp only [mem_cons, reduceCtorEq, false_or]

/-- What is left of the two slices is the rest, before a call and after it. -/
theorem drop_next {written : Nat}
    (hrest : header.drop headerWritten ++ payload.drop payloadWritten = rest) :
    let next :=
      if headerWritten < header.length then
        let headerRemaining := header.length - headerWritten
        if written < headerRemaining then (headerWritten + written, payloadWritten)
        else (header.length, payloadWritten + (written - headerRemaining))
      else (headerWritten, payloadWritten + written)
    header.drop next.1 ++ payload.drop next.2 = rest.drop written := by
  subst hrest
  dsimp only
  rw [drop_append, drop_drop, drop_drop, length_drop]
  split
  · split
    next hinside => rw [Nat.sub_eq_zero_of_le hinside.le, Nat.add_zero]
    next hbeyond => rw [drop_length, @drop_of_length_le _ _ header (by omega)]
  next hover =>
    rw [@drop_of_length_le _ _ header (by omega), @drop_of_length_le _ _ header (by omega),
      Nat.sub_eq_zero_of_le (Nat.not_lt.1 hover), Nat.sub_zero]

/-- Two slices are written as one. -/
theorem writeAllVectored_eq
    (hrest : header.drop headerWritten ++ payload.drop payloadWritten = rest) :
    writeAllVectored header payload headerWritten payloadWritten calls =
      writeCalls rest calls := by
  have hmore : (headerWritten < header.length ∨ payloadWritten < payload.length) ↔
      rest.length ≠ 0 := by
    rw [← hrest, length_append, length_drop, length_drop]
    omega
  induction calls generalizing headerWritten payloadWritten rest with
  | nil =>
    unfold writeAllVectored
    simp only [hmore]
    cases rest <;> rfl
  | cons call calls ih =>
    unfold writeAllVectored
    simp only [hmore]
    cases hcase : rest with
    | nil => rfl
    | cons first more =>
      rw [← hcase, if_pos (by simp [hcase])]
      cases call with
      | error error => rw [hcase]; rfl
      | ok count =>
        have hoffered : (if headerWritten < header.length then
            header.drop headerWritten ++ payload.drop payloadWritten
            else payload.drop payloadWritten) = rest := by
          split
          · exact hrest
          next hover => rw [← hrest, drop_of_length_le (Nat.not_lt.1 hover), nil_append]
        have hlen : rest.length ≠ 0 := by simp [hcase]
        have hnext : writeAllVectored header payload _ _ calls =
            writeCalls (rest.drop (min count rest.length)) calls := ih (drop_next hrest) <| by
          rw [← drop_next hrest, length_append, length_drop, length_drop]
          omega
        dsimp only
        rw [hoffered, hnext, ← take_eq_take_min]
        rw [hcase] at hlen ⊢
        rw [writeCalls]
        by_cases hzero : count = 0
        · rw [if_pos (by omega), if_pos hzero]
        · rw [if_neg (by omega), if_neg hzero]
          -- a call takes no more than it is offered
          rcases Nat.le_total count (first :: more).length with hle | hle
          · rw [Nat.min_eq_left hle]
          · rw [Nat.min_eq_right hle, drop_length, drop_of_length_le hle]

/-- The frame is written as a whole, or a call has taken nothing or failed,
exactly if no call that is made is interrupted.  There are enough calls, as
each takes a byte. -/
theorem frame_written_whole_iff (header payload : List UInt8) (calls : List (Except IoError Nat))
    (hcalls : header.length + payload.length ≤ calls.length) :
    let made := callsMade (header ++ payload).length calls
    Concludes (header ++ payload) made (writeAllVectored header payload 0 0 calls) ↔
      ∀ error, .error error ∈ made → error.kind ≠ .interrupted := by
  intro made
  rw [writeAllVectored_eq rfl]
  exact writeCalls_concludes_iff (by simpa using hcalls)

/-- The interruption comes when the frame is written. -/
theorem frame_written_whole_in_two_calls :
    writeAllVectored [1] [2, 3] 0 0 [.ok 2, .ok 1, .error ⟨.interrupted, ""⟩] =
      ([1, 2, 3], some (.ok ())) := by
  rcases (frame_written_whole_iff [1] [2, 3] [.ok 2, .ok 1, .error ⟨.interrupted, ""⟩]
    (by decide)).2 (by simp [callsMade]) with hdone | ⟨-, error, -, -, hcause⟩
  · exact hdone
  · simp [callsMade] at hcause

/-- The header is on the wire, the second call is interrupted, and the frame is
left half written. -/
theorem interrupted_frame_half_written :
    writeAllVectored [1] [2, 3] 0 0 [.ok 1, .error ⟨.interrupted, ""⟩, .ok 2, .ok 2] =
      ([1], some (.error ⟨.interrupted, ""⟩)) := by
  decide

end KeliCore
