/-
The books of a relay that counts in its own variables what it has moved, and
hands its counts over when it returns.  They balance as long as every step
counts what it moves, and no step leaves without handing over.
-/
import KeliCore.Relaying

universe u v w

open Relaying

/-- What was counted, what was moved, and how the relay returned. -/
structure Ledger (δ : Type u) where
  totals : δ → Nat := fun _ => 0
  moved : δ → Nat := fun _ => 0
  ended : Option (End δ) := none

namespace Ledger

variable {δ : Type u}

def finish (ledger : Ledger δ) : Ledger δ :=
  { ledger with ended := some (.recorded ledger.totals) }

def lose (ledger : Ledger δ) : Ledger δ := { ledger with ended := some .lost }

/-- The counts as they stand, or as they were handed over. -/
def standing (ledger : Ledger δ) (direction : δ) : Nat :=
  match ledger.ended with
  | none => ledger.totals direction
  | some result => result.bytes direction

def Balanced (ledger : Ledger δ) : Prop :=
  ∀ direction, ledger.standing direction = ledger.moved direction

/-- Nothing was moved. -/
def Untouched (ledger : Ledger δ) : Prop :=
  ∀ direction, ledger.moved direction = 0

/-- So much more can be counted. -/
def Fits (cap : Nat) (direction : δ) (bytes : Nat) (ledger : Ledger δ) :
    Prop :=
  ledger.moved direction + bytes ≤ cap

/-- Counting so much more makes no difference. -/
def Stays (cap : Nat) (direction : δ) (bytes : Nat) (ledger : Ledger δ) :
    Prop :=
  addUpTo cap (ledger.moved direction) bytes = ledger.moved direction

variable {ledger : Ledger δ}

theorem balanced_iff_totals (hrun : ledger.ended = none) :
    ledger.Balanced ↔ ∀ direction, ledger.totals direction = ledger.moved direction := by
  simp only [Balanced, standing, hrun]

theorem balanced_finish_iff (hrun : ledger.ended = none) :
    ledger.finish.Balanced ↔ ledger.Balanced := by
  rw [balanced_iff_totals hrun]
  rfl

theorem balanced_lose_iff : ledger.lose.Balanced ↔ ledger.Untouched :=
  forall_congr' fun _ => eq_comm

/-- Along a run the books balance in every state reached just if every step
that is taken while the relay runs keeps them balanced. -/
theorem exec_balanced_iff {σ : Type v} {ε : Type w} {step : σ → ε → σ}
    {condition : σ → ε → Prop} {books : σ → Ledger δ}
    (hstep : ∀ state input, (books state).ended = none → (books state).Balanced →
      ((books (step state input)).Balanced ↔ condition state input))
    (hstop : ∀ state input, (books state).ended ≠ none →
      step state input = state) {start : σ} (hstart : (books start).Balanced) (inputs : List ε) :
    Run.Meets step (fun state input => (books state).ended = none →
          condition state input) start inputs ↔ ∀ past, past <+: inputs →
        (books (Run.exec step start past)).Balanced := by
  refine @Run.meets_iff_always _ _ step _
    (fun state => (books state).Balanced) (fun state => (books state).Balanced)
    (fun _ hbal => hbal) ?_ ?_ _ hstart inputs
  · intro state input hbal hmeets
    by_cases hrun : (books state).ended = none
    · exact (hstep state input hrun hbal).2 (hmeets hrun)
    · rwa [hstop state input hrun]
  · intro state input hbal hmisses hnext
    exact hmisses fun hrun => (hstep state input hrun hbal).1 hnext

variable [DecidableEq δ]

def move (direction : δ) (bytes : Nat) (ledger : Ledger δ) : Ledger δ :=
  { ledger with
    moved := Function.update ledger.moved direction
      (ledger.moved direction + bytes) }

def count (cap : Nat) (direction : δ) (bytes : Nat) (ledger : Ledger δ) : Ledger δ :=
  { ledger with
    totals := Function.update ledger.totals direction
      (addUpTo cap (ledger.totals direction) bytes) }

variable {direction : δ}

theorem move_zero : ledger.move direction 0 = ledger := by
  rw [move, Nat.add_zero, Function.update_eq_self]

theorem untouched_move_iff {bytes : Nat} : (ledger.move direction bytes).Untouched ↔
      ledger.Untouched ∧ bytes = 0 := by
  constructor
  · intro hnone
    have hsum : ledger.moved direction + bytes = 0 := by simpa [move] using hnone direction
    refine ⟨fun other => ?_, by omega⟩
    by_cases hother : other = direction
    · subst hother
      omega
    · simpa [move, Function.update_of_ne hother] using hnone other
  · rintro ⟨hnone, rfl⟩
    rwa [move_zero]

end Ledger
