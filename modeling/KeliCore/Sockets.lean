/-
Sockets that do not block, as the writers of the relays meet them: a call takes
a part of what it is offered, or takes nothing and says why.
-/
import KeliCore.Bytes
import KeliCore.Writing

namespace KeliCore

open Writing

inductive SocketWrite where
  | wrote (count : Nat)
  | error (error : IoError)

/-- How a write loop reads an error. -/
def IoError.answer (error : IoError) : Answer :=
  match error.kind with
  | .wouldBlock => .blocked
  | .interrupted => .interrupted
  | _ => .failed

theorem IoError.answer_ne_took (error : IoError) (count : Nat) : error.answer ≠ .took count := by
  rw [answer]
  split <;> simp

theorem IoError.answer_eq_blocked_iff (error : IoError) :
    error.answer = .blocked ↔ error.kind = .wouldBlock := by
  rw [answer]
  split <;> simp_all

/-- A write of a socket: with an error, it has taken nothing. -/
def socketWrite : Writer Unit UInt8 SocketWrite UInt8 := fun _ input turn =>
  match turn with
  | .wrote count => ((), ⟨input.take count, .took (min count input.length)⟩)
  | .error error => ((), ⟨[], error.answer⟩)

theorem plain_socketWrite : Plain socketWrite where
  took {state input turn next emitted count} hcall := by
    cases turn with
    | wrote taken =>
      cases hcall
      rcases Nat.le_total taken input.length with hle | hle
      · rw [Nat.min_eq_left hle]
      · rw [Nat.min_eq_right hle, List.take_length, List.take_of_length_le hle]
    | error error =>
      simp only [socketWrite, Prod.mk.injEq, Call.mk.injEq] at hcall
      exact absurd hcall.2.2 (IoError.answer_ne_took error count)
  interrupted {state input turn next emitted} hcall := by
    cases turn with
    | wrote taken => simp [socketWrite] at hcall
    | error error =>
      simp only [socketWrite, Prod.mk.injEq, Call.mk.injEq] at hcall
      exact hcall.2.1.symm
  emits {state input turn} := by
    cases turn with
    | wrote taken => exact List.take_prefix _ _
    | error error => exact List.nil_prefix

end KeliCore
