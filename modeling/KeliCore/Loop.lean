/-
Loops that may run for ever.  A loop body either goes on from a new state or
stops with a result; whether the loop stops is read off the places it moves
through, when its moves depend on the place alone.
-/
import Mathlib.Order.Interval.Finset.Nat

universe u v

namespace Loop

open Relation Finset

/-- What one turn of a loop comes to. -/
inductive Turn (σ : Type u) (ρ : Type v) where
  | again (state : σ)
  | stop (result : ρ)

variable {σ : Type u} {ρ : Type v} {body : σ → Turn σ ρ}

/-- At most `fuel` turns of the loop; `none` when it has not stopped by
then. -/
def run (body : σ → Turn σ ρ) : Nat → σ → Option ρ
  | 0, _ => none
  | fuel + 1, state =>
    match body state with
    | .again next => run body fuel next
    | .stop result => some result

/-- The loop stops with this result. -/
def Returns (body : σ → Turn σ ρ) (state : σ) (result : ρ) : Prop :=
  ∃ fuel, run body fuel state = some result

variable {state : σ} {result : ρ}

theorem returns_of_stop (hstop : body state = .stop result) : Returns body state result :=
  ⟨1, by simp [run, hstop]⟩

theorem returns_again {next : σ} (hagain : body state = .again next) :
    Returns body state result ↔ Returns body next result := by
  constructor
  · rintro ⟨fuel, hfuel⟩
    cases fuel with
    | zero => simp [run] at hfuel
    | succ fuel => exact ⟨fuel, by simpa [run, hagain] using hfuel⟩
  · rintro ⟨fuel, hfuel⟩
    exact ⟨fuel + 1, by simpa [run, hagain] using hfuel⟩

theorem returns_stop {stopped : ρ} (hstop : body state = .stop stopped) :
    Returns body state result ↔ stopped = result := by
  constructor
  · rintro ⟨fuel, hfuel⟩
    cases fuel with
    | zero => simp [run] at hfuel
    | succ fuel => simpa [run, hstop] using hfuel
  · rintro rfl
    exact returns_of_stop hstop

theorem Returns.unique {first second : ρ}
    (hfirst : Returns body state first) (hsecond : Returns body state second) : first = second := by
  obtain ⟨fuel, hfuel⟩ := hfirst
  induction fuel generalizing state with
  | zero => simp [run] at hfuel
  | succ fuel ih =>
    cases hbody : body state with
    | again next => exact ih ((returns_again hbody).1 hsecond) (by simpa [run, hbody] using hfuel)
    | stop result =>
      have hres : result = first := by simpa [run, hbody] using hfuel
      rw [← hres]
      exact (returns_stop hbody).1 hsecond

theorem not_returns_of_invariant {invariant : σ → Prop} (hagain : ∀ state, invariant state →
      ∃ next, body state = .again next ∧ invariant next)
    {state : σ} (hstate : invariant state) (result : ρ) : ¬ Returns body state result := by
  rintro ⟨fuel, hfuel⟩
  induction fuel generalizing state with
  | zero => simp [run] at hfuel
  | succ fuel ih =>
    obtain ⟨next, hbody, hnext⟩ := hagain state hstate
    exact ih hnext (by simpa [run, hbody] using hfuel)

section Places

/-- The moves of the loop, seen as moves between places: the place alone
decides whether and where the loop goes on. -/
structure MovesBy (body : σ → Turn σ ρ) (place : σ → Nat) (moves : Nat → Nat → Prop) : Prop where
  of_again : ∀ {state next}, body state = .again next → moves (place state) (place next)
  again_of : ∀ {state target}, moves (place state) target →
    ∃ next, body state = .again next ∧ place next = target

theorem MovesBy.follow {place : σ → Nat} {moves : Nat → Nat → Prop}
    (hmoves : MovesBy body place moves) {state : σ}
    {target : Nat} (hpath : ReflTransGen moves (place state) target) : ∃ last, place last = target ∧
      ∀ result, Returns body state result ↔ Returns body last result := by
  induction hpath with
  | refl => exact ⟨state, rfl, fun _ => Iff.rfl⟩
  | tail _ hmove ih =>
    obtain ⟨last, rfl, hsame⟩ := ih
    obtain ⟨next, hagain, hplace⟩ := hmoves.again_of hmove
    exact ⟨next, hplace, fun result => (hsame result).trans (returns_again hagain)⟩

variable {place : σ → Nat} {moves : Nat → Nat → Prop}

/-- The state in which a loop stops lies on the way of its places. -/
theorem MovesBy.stops_at (hmoves : MovesBy body place moves)
    (hreturns : Returns body state result) :
    ∃ last, ReflTransGen moves (place state) (place last) ∧ body last = .stop result := by
  obtain ⟨fuel, hfuel⟩ := hreturns
  induction fuel generalizing state with
  | zero => simp [run] at hfuel
  | succ fuel ih =>
    cases hbody : body state with
    | again next =>
      obtain ⟨last, hpath, hstop⟩ := ih (by simpa [run, hbody] using hfuel)
      exact ⟨last, hpath.head (hmoves.of_again hbody), hstop⟩
    | stop stopped =>
      have hstopped : stopped = result := by simpa [run, hbody] using hfuel
      exact ⟨state, .refl, hstopped ▸ hbody⟩

/-- A loop that comes to a place it can come back to never stops. -/
theorem MovesBy.not_returns_of_cycle {target : Nat} (hmoves : MovesBy body place moves)
    (hpath : ReflTransGen moves (place state) target)
    (hcycle : TransGen moves target target) (result : ρ) : ¬ Returns body state result := by
  rintro ⟨fuel, hfuel⟩
  induction fuel generalizing state with
  | zero => simp [run] at hfuel
  | succ fuel ih =>
    -- a move from here that stays on the way to the cycle
    obtain ⟨target', hmove, hrest⟩ : ∃ target', moves (place state) target' ∧
          ReflTransGen moves target' target := by
      rcases hpath.cases_head with rfl | ⟨target', hmove, hrest⟩
      · exact TransGen.head'_iff.1 hcycle
      · exact ⟨target', hmove, hrest⟩
    obtain ⟨next, hagain, rfl⟩ := hmoves.again_of hmove
    exact ih hrest (by simpa [run, hagain] using hfuel)

/-- A loop among finitely many places that cannot come back to a place
stops, after at most one turn for each place and, beyond them, one more. -/
theorem MovesBy.exists_run {bound : Nat} (hmoves : MovesBy body place moves)
    (hbound : ∀ {source target}, moves source target →
      source < bound) (hcycle : ∀ target, ReflTransGen moves (place state) target →
      ¬ TransGen moves target target) : ∃ last result, body last = .stop result ∧
      run body (bound + 1) state = some result ∧
      (place last < bound → run body bound state = some result) := by
  -- induction on the places not yet visited; the visited ones lead here
  suffices hvisit : ∀ left (visited : Finset Nat) (state : σ),
      visited ⊆ range bound → bound - visited.card = left →
      (∀ source ∈ visited, TransGen moves source (place state)) →
      (∀ target, ReflTransGen moves (place state) target → ¬ TransGen moves target target) →
      ∃ last result, body last = .stop result ∧ run body (left + 1) state = some result ∧
        (place last < bound → run body left state = some result) by
    exact hvisit bound ∅ state (by simp) (by simp) (by simp) hcycle
  intro left
  induction left with
  | zero =>
    intro visited state hvisited hleft hlead hcycle
    have hfull : visited = range bound := by
      apply eq_of_subset_of_card_le hvisited
      rw [card_range]
      omega
    have hout : ¬ place state < bound := by
      intro hplace
      have hmem : place state ∈ visited := by
        rw [hfull, mem_range]
        exact hplace
      exact hcycle _ .refl (hlead _ hmem)
    cases hbody : body state with
    | stop result =>
      exact ⟨state, result, hbody, by simp [run, hbody], fun hplace => absurd hplace hout⟩
    | again next => exact absurd (hbound (hmoves.of_again hbody)) hout
  | succ left ih =>
    intro visited state hvisited hleft hlead hcycle
    cases hbody : body state with
    | stop result =>
      exact ⟨state, result, hbody, by simp [run, hbody], fun _ => by simp [run, hbody]⟩
    | again next =>
      have hmove := hmoves.of_again hbody
      have hnew : place state ∉ visited := fun hmem => hcycle _ .refl (hlead _ hmem)
      obtain ⟨last, result, hstop, hmore, hless⟩ :=
        ih (insert (place state) visited) next (insert_subset (mem_range.2 (hbound hmove)) hvisited)
          (by rw [card_insert_of_notMem hnew]; omega) (by
            intro source hsource
            rcases mem_insert.1 hsource with rfl | hsource
            · exact .single hmove
            · exact (hlead source hsource).tail hmove)
          (fun target hpath => hcycle target (hpath.head hmove))
      refine ⟨last, result, hstop, ?_, fun hplace => ?_⟩
      · rw [run, hbody]
        exact hmore
      · rw [run, hbody]
        exact hless hplace

theorem MovesBy.exists_returns {place : σ → Nat} {moves : Nat → Nat → Prop}
    (hmoves : MovesBy body place moves)
    {bound : Nat} (hbound : ∀ {source target}, moves source target →
      source < bound) {state : σ} (hcycle : ∀ target, ReflTransGen moves (place state) target →
      ¬ TransGen moves target target) : ∃ result, Returns body state result := by
  obtain ⟨last, result, -, hrun, -⟩ := hmoves.exists_run hbound hcycle
  exact ⟨result, bound + 1, hrun⟩

end Places

end Loop
