/-
Runs of a deterministic step function, and the two ways of reasoning about
them used here: an invariant kept by every step that meets a condition, and a
property of the whole past kept by every step.
-/
import Mathlib.Data.List.Induction

universe u v

namespace Run

open List

variable {σ : Type u} {ε : Type v} {step : σ → ε → σ}

/-- The state reached by taking the events from left to right. -/
def exec (step : σ → ε → σ) (start : σ) (events : List ε) : σ :=
  events.foldl step start

/-- Every event meets the condition in the state in which it is taken. -/
def Meets (step : σ → ε → σ) (condition : σ → ε → Prop) : σ → List ε → Prop
  | _, [] => True
  | state, event :: events => condition state event ∧ Meets step condition (step state event) events

instance Meets.decidable {condition : σ → ε → Prop}
    [∀ state event, Decidable (condition state event)] :
    ∀ state events, Decidable (Meets step condition state events)
  | _, [] => isTrue trivial
  | state, event :: events =>
    @instDecidableAnd _ _ inferInstance (Meets.decidable (step state event) events)

/-- What the events add up to, each measured in the state in which it is
taken. -/
def total (step : σ → ε → σ) (amount : σ → ε → Nat) : σ → List ε → Nat
  | _, [] => 0
  | state, event :: events => amount state event + total step amount (step state event) events

@[simp] theorem exec_nil (start : σ) : exec step start [] = start := rfl

@[simp] theorem exec_cons (start : σ) (event : ε) (events : List ε) :
    exec step start (event :: events) = exec step (step start event) events := rfl

theorem exec_append (start : σ) (first second : List ε) :
    exec step start (first ++ second) = exec step (exec step start first) second := by simp [exec]

theorem exec_concat (start : σ) (events : List ε) (event : ε) :
    exec step start (events ++ [event]) = step (exec step start events) event := by simp [exec]

variable {condition : σ → ε → Prop}

theorem meets_append (start : σ) (first second : List ε) :
    Meets step condition start (first ++ second) ↔ Meets step condition start first ∧
        Meets step condition (exec step start first) second := by
  induction first generalizing start with
  | nil => simp [Meets]
  | cons event events ih => simp only [cons_append, Meets, exec_cons, ih, and_assoc]

theorem meets_concat (start : σ) (events : List ε) (event : ε) :
    Meets step condition start (events ++ [event]) ↔ Meets step condition start events ∧
        condition (exec step start events) event := by
  rw [meets_append]
  simp [Meets]

theorem total_concat {amount : σ → ε → Nat} (start : σ) (events : List ε) (event : ε) :
    total step amount start (events ++ [event]) =
      total step amount start events + amount (exec step start events) event := by
  induction events generalizing start with
  | nil => simp [total]
  | cons head events ih => rw [cons_append, total, total, ih, exec_cons, Nat.add_assoc]

/-- An invariant that every step meeting the condition keeps holds at the end
of every run whose steps all meet it. -/
theorem exec_invariant {condition : σ → ε → Prop} {invariant : σ → Prop}
    (hstep : ∀ state event, invariant state → condition state event →
      invariant (step state event)) {start : σ} (hstart : invariant start) {events : List ε}
    (hmeets : Meets step condition start events) : invariant (exec step start events) := by
  induction events generalizing start with
  | nil => exact hstart
  | cons event events ih => exact ih (hstep start event hstart hmeets.1) hmeets.2

/-- An invariant that every step keeps holds at the end of every run. -/
theorem exec_always {invariant : σ → Prop}
    (hstep : ∀ state event, invariant state → invariant (step state event))
    {start : σ} (hstart : invariant start) (events : List ε) :
    invariant (exec step start events) := by
  induction events generalizing start with
  | nil => exact hstart
  | cons event events ih => exact ih (hstep start event hstart)

/-- Where every step that meets the condition keeps a state aligned, and every
other step from an aligned state breaks a property that aligned states have,
the runs that meet the condition are those with the property in every state
reached. -/
theorem meets_iff_always {condition : σ → ε → Prop} {aligned property : σ → Prop}
    (halign : ∀ state, aligned state → property state)
    (hkeep : ∀ state event, aligned state → condition state event →
      aligned (step state event)) (hbreak : ∀ state event, aligned state → ¬ condition state event →
      ¬ property (step state event)) {start : σ} (hstart : aligned start) (events : List ε) :
    Meets step condition start events ↔
      ∀ past, past <+: events → property (exec step start past) := by
  induction events generalizing start with
  | nil =>
    simp only [Meets, true_iff, prefix_nil]
    rintro past rfl
    exact halign start hstart
  | cons event events ih =>
    constructor
    · rintro ⟨hcondition, hmeets⟩ past hpast
      cases past with
      | nil => exact halign start hstart
      | cons first past =>
        obtain ⟨rfl, hrest⟩ := cons_prefix_cons.1 hpast
        exact (ih (hkeep start first hstart hcondition)).1 hmeets past hrest
    · intro halways
      have hnext : property (step start event) := halways [event] (by simp)
      have hcondition : condition start event := by
        by_contra hmisses
        exact hbreak start event hstart hmisses hnext
      refine ⟨hcondition, ?_⟩
      refine (ih (hkeep start event hstart hcondition)).2 fun past hpast => ?_
      exact halways (event :: past) (cons_prefix_cons.2 ⟨rfl, hpast⟩)

/-- Where every step from an aligned state keeps it aligned or, if it misses
the condition, leads into a bad state, and no step leads out of one, a run ends
in a bad state just if a step misses the condition. -/
theorem exec_bad_iff {condition : σ → ε → Prop} {aligned bad : σ → Prop}
    (hgood : ∀ state, aligned state → ¬ bad state)
    (hkeep : ∀ state event, aligned state → condition state event →
      aligned (step state event)) (hbreak : ∀ state event, aligned state → ¬ condition state event →
      bad (step state event)) (hstay : ∀ state event, bad state → bad (step state event))
    {start : σ} (hstart : aligned start) (events : List ε) :
    bad (exec step start events) ↔ ¬ Meets step condition start events := by
  induction events generalizing start with
  | nil => simp [Meets, hgood start hstart]
  | cons event events ih =>
    rw [exec_cons, Meets, not_and]
    by_cases hcondition : condition start event
    · rw [ih (hkeep start event hstart hcondition)]
      exact ⟨fun hmeets _ => hmeets, fun hmeets => hmeets hcondition⟩
    · have hbad := hbreak start event hstart hcondition
      exact ⟨fun _ hmeets => absurd hmeets hcondition, fun _ => exec_always hstay hbad events⟩

section Pair

universe w

variable {τ : Type w} {other : τ → ε → τ}

theorem exec_map {view : σ → τ}
    (hview : ∀ state event, view (step state event) = other (view state) event)
    (start : σ) (events : List ε) :
    view (exec step start events) = exec other (view start) events := by
  induction events generalizing start with
  | nil => rfl
  | cons event events ih => rw [exec_cons, exec_cons, ih, hview]

/-- Two runs side by side: a step of the second that misses the condition
breaks what the others keep, and nothing repairs it. -/
theorem exec_kept_or_broken {condition : τ → ε → Prop} {kept broken : σ → τ → Prop}
    (hkeep : ∀ state second event, kept state second →
      condition second event → kept (step state event) (other second event))
    (hbreak : ∀ state second event, kept state second → ¬ condition second event →
        broken (step state event) (other second event))
    (hbroken : ∀ state second event, broken state second →
      broken (step state event) (other second event))
    {start : σ} {second : τ} (hstart : kept start second) (events : List ε) :
    (Meets other condition second events ∧
      kept (exec step start events) (exec other second events)) ∨
    (¬ Meets other condition second events ∧
      broken (exec step start events) (exec other second events)) := by
  have hend : ∀ (events : List ε) (state : σ) (second : τ), broken state second →
        broken (exec step state events) (exec other second events) := by
    intro events
    induction events with
    | nil => exact fun _ _ hstate => hstate
    | cons event events ih =>
      exact fun state second hstate => ih _ _ (hbroken state second event hstate)
  induction events generalizing start second with
  | nil => exact .inl ⟨trivial, hstart⟩
  | cons event events ih =>
    by_cases hcondition : condition second event
    · rcases ih (hkeep start second event hstart hcondition) with ⟨hmeets, hkept⟩ | ⟨hmeets, hout⟩
      · exact .inl ⟨⟨hcondition, hmeets⟩, hkept⟩
      · exact .inr ⟨fun hall => hmeets hall.2, hout⟩
    · exact .inr ⟨fun hall => hcondition hall.1,
        hend events _ _ (hbreak start second event hstart hcondition)⟩

end Pair

end Run
