/-
What a relay does with its limiter and its writers, as a list of events.  Two
questions are asked of such a list: whether every chunk was paid for before it
was handed to a writer, and how many bytes the writers took.
-/
import KeliCore.Run
import Mathlib.Algebra.BigOperators.Group.List.Basic
import Mathlib.Algebra.GroupWithZero.Nat
import Mathlib.Algebra.Order.BigOperators.Group.List
import Mathlib.Algebra.Order.Group.Nat

universe u

namespace Relaying

open List Run

/-- What a read comes to; no bytes are the end of the stream. -/
inductive Read where
  | got (bytes : Nat)
  | blocked
  | failed

/-- What the write of a chunk comes to. -/
inductive Write where
  | all
  | short (count : Nat)
  | failed

inductive RelayEvent (δ : Type u) where
  /-- The limiter was asked for the bytes of a chunk. -/
  | waited (direction : δ) (bytes : Nat) (granted : Bool)
  /-- The limiter was asked whether it is revoked. -/
  | checked (revoked : Bool)
  | handed (direction : δ) (bytes : Nat)
  /-- The writer returned. -/
  | wrote (direction : δ) (bytes : Nat) (result : Write)

section Monitor

variable {δ : Type u}

/-- Nothing, or a word from the limiter. -/
def Quiet (events : List (RelayEvent δ)) : Prop :=
  events = [] ∨ (∃ revoked, events = [.checked revoked]) ∨
    ∃ direction bytes, events = [.waited direction bytes false]

theorem quiet_nil : Quiet ([] : List (RelayEvent δ)) := .inl rfl

theorem quiet_checked (revoked : Bool) :
    Quiet [(.checked revoked : RelayEvent δ)] := .inr (.inl ⟨revoked, rfl⟩)

theorem quiet_refused (direction : δ) (bytes : Nat) : Quiet [.waited direction bytes false] :=
  .inr (.inr ⟨direction, bytes, rfl⟩)

/-- The limiter says that it is revoked. -/
def Reports (events : List (RelayEvent δ)) : Prop :=
  .checked true ∈ events ∨ ∃ direction bytes, .waited direction bytes false ∈ events

def chunkEvents (charges : Bool) (direction : δ) (bytes : Nat)
    (result : Write) : List (RelayEvent δ) :=
  (if charges then [.waited direction bytes true] else []) ++
    [.handed direction bytes, .wrote direction bytes result]

/-- From one trace to a longer one, no chunk of the direction is handed
over. -/
def Halts (direction : δ) (before after : List (RelayEvent δ)) : Prop :=
  ∃ events, after = before ++ events ∧ ∀ bytes, .handed direction bytes ∉ events

theorem Halts.refl (direction : δ) (trace : List (RelayEvent δ)) : Halts direction trace trace :=
  ⟨[], (append_nil _).symm, by simp⟩

theorem Halts.trans {direction : δ} {first second third : List (RelayEvent δ)}
    (hfirst : Halts direction first second) (hsecond : Halts direction second third) :
    Halts direction first third := by
  obtain ⟨events, rfl, hevents⟩ := hfirst
  obtain ⟨more, rfl, hmore⟩ := hsecond
  refine ⟨events ++ more, append_assoc _ _ _, fun bytes hmem => ?_⟩
  rcases mem_append.1 hmem with hmem | hmem
  · exact hevents bytes hmem
  · exact hmore bytes hmem

theorem Quiet.halts {events : List (RelayEvent δ)} (hquiet : Quiet events)
    (direction : δ) (trace : List (RelayEvent δ)) : Halts direction trace (trace ++ events) := by
  refine ⟨events, rfl, fun bytes hmem => ?_⟩
  rcases hquiet with rfl | ⟨_, rfl⟩ | ⟨_, _, rfl⟩ <;> simp at hmem

/-- Where no step against a limiter that refuses hands over a chunk, no run
does. -/
theorem exec_halts {σ ε : Type*} {step : σ → ε → σ}
    {traceOf : σ → List (RelayEvent δ)} {invariant : σ → Prop} {refuses : ε → Bool} {direction : δ}
    (hstep : ∀ state input, invariant state → refuses input = true → invariant (step state input) ∧
        Halts direction (traceOf state) (traceOf (step state input)))
    {start : σ} (hstart : invariant start) {inputs : List ε}
    (hinputs : ∀ input ∈ inputs, refuses input = true) :
    Halts direction (traceOf start) (traceOf (Run.exec step start inputs)) := by
  induction inputs generalizing start with
  | nil => exact .refl direction _
  | cons input inputs ih =>
    rw [forall_mem_cons] at hinputs
    obtain ⟨hnext, hhalts⟩ := hstep start input hstart hinputs.1
    exact hhalts.trans (ih hnext hinputs.2)

/-- What was granted and not yet used, and whether the limiter has reported
that it is revoked. -/
structure Monitor (δ : Type u) where
  credit : δ → Option Nat := fun _ => none
  reported : Bool := false

variable [DecidableEq δ]

def Monitor.see (monitor : Monitor δ) : RelayEvent δ → Monitor δ
  | .waited direction bytes true =>
    { monitor with
      credit := Function.update monitor.credit direction (some bytes) }
  | .waited _ _ false => { monitor with reported := true }
  | .checked revoked => { monitor with reported := monitor.reported || revoked }
  | .handed direction _ =>
    { monitor with
      credit := Function.update monitor.credit direction none }
  | .wrote _ _ _ => monitor

/-- A chunk may be handed over if it was granted, and nothing was reported. -/
def Monitor.Allows (monitor : Monitor δ) : RelayEvent δ → Prop
  | .handed direction bytes => monitor.reported = false ∧ monitor.credit direction = some bytes
  | .waited _ _ _ => True
  | .checked _ => True
  | .wrote _ _ _ => True

instance (monitor : Monitor δ) : (event : RelayEvent δ) → Decidable (monitor.Allows event)
  | .handed _ _ => inferInstanceAs (Decidable (_ ∧ _))
  | .waited _ _ _ => isTrue trivial
  | .checked _ => isTrue trivial
  | .wrote _ _ _ => isTrue trivial

/-- Every chunk was preceded by a grant of its own for its length, and none was
handed over after a report. -/
def Metered (trace : List (RelayEvent δ)) : Prop :=
  Run.Meets Monitor.see Monitor.Allows {} trace

instance (trace : List (RelayEvent δ)) : Decidable (Metered trace) :=
  inferInstanceAs (Decidable (Run.Meets _ _ _ _))

def seen (trace : List (RelayEvent δ)) : Monitor δ :=
  Run.exec Monitor.see {} trace

theorem metered_append (trace events : List (RelayEvent δ)) : Metered (trace ++ events) ↔
      Metered trace ∧ Run.Meets Monitor.see Monitor.Allows (seen trace) events :=
  meets_append _ _ _

theorem seen_append (trace events : List (RelayEvent δ)) :
    seen (trace ++ events) = Run.exec Monitor.see (seen trace) events :=
  exec_append _ _ _

/-- A trace without a debt: metered, and every grant used. -/
structure Settled (trace : List (RelayEvent δ)) : Prop where
  metered : Metered trace
  credit : (seen trace).credit = fun _ => none

theorem settled_nil : Settled ([] : List (RelayEvent δ)) := ⟨trivial, rfl⟩

variable {trace : List (RelayEvent δ)}

theorem Settled.concat {event : RelayEvent δ} (hset : Settled trace)
    (hevent : (∃ direction bytes, event = .waited direction bytes false) ∨
      (∃ revoked, event = .checked revoked) ∨
      ∃ direction bytes result, event = .wrote direction bytes result) :
    Settled (trace ++ [event]) := by
  refine ⟨(metered_append _ _).2 ⟨hset.metered, ?_⟩, ?_⟩
  · rcases hevent with ⟨_, _, rfl⟩ | ⟨_, rfl⟩ | ⟨_, _, _, rfl⟩ <;> exact ⟨trivial, trivial⟩
  · rw [seen_append]
    rcases hevent with ⟨_, _, rfl⟩ | ⟨_, rfl⟩ | ⟨_, _, _, rfl⟩ <;> exact hset.credit

theorem Settled.grant (hset : Settled trace)
    (hreported : (seen trace).reported = false) (direction : δ) (bytes : Nat) :
    Settled (trace ++ [.waited direction bytes true, .handed direction bytes]) ∧
    (seen (trace ++ [.waited direction bytes true, .handed direction bytes])).reported = false := by
  have hseen : seen (trace ++ [.waited direction bytes true, .handed direction bytes]) =
      ⟨fun _ => none, false⟩ := by
    rw [seen_append]
    simp [exec, Monitor.see, hset.credit, hreported]
  refine ⟨⟨(metered_append _ _).2 ⟨hset.metered, ?_⟩, ?_⟩, ?_⟩
  · simp [Run.Meets, Monitor.see, Monitor.Allows, hreported]
  · rw [hseen]
  · rw [hseen]

/-- A chunk that was not granted is not metered, whatever follows. -/
theorem Settled.not_metered_handed (hset : Settled trace)
    (direction : δ) (bytes : Nat) (rest : List (RelayEvent δ)) :
    ¬ Metered (trace ++ .handed direction bytes :: rest) := by
  intro hmetered
  obtain ⟨-, ⟨-, hcredit⟩, -⟩ := (metered_append _ _).1 hmetered
  rw [hset.credit] at hcredit
  simp at hcredit

theorem not_metered_grant (hreported : (seen trace).reported = true)
    (direction : δ) (bytes : Nat) (rest : List (RelayEvent δ)) :
    ¬ Metered (trace ++ .waited direction bytes true :: .handed direction bytes :: rest) := by
  intro hmetered
  obtain ⟨-, -, ⟨hfalse, -⟩, -⟩ := (metered_append _ _).1 hmetered
  exact absurd (hreported.symm.trans hfalse) (by decide)

theorem Settled.quiet {events : List (RelayEvent δ)}
    (hset : Settled trace) (hevents : Quiet events) : Settled (trace ++ events) := by
  rcases hevents with rfl | ⟨revoked, rfl⟩ | ⟨direction, bytes, rfl⟩
  · rwa [append_nil]
  · exact hset.concat (.inr (.inl ⟨revoked, rfl⟩))
  · exact hset.concat (.inl ⟨direction, bytes, rfl⟩)

theorem reported_quiet {events : List (RelayEvent δ)} (hevents : Quiet events)
    (hreported : (seen (trace ++ events)).reported = true) :
    (seen trace).reported = true ∨ Reports events := by
  rw [seen_append] at hreported
  rcases hevents with rfl | ⟨revoked, rfl⟩ | ⟨direction, bytes, rfl⟩
  · exact .inl hreported
  · cases revoked with
    | false => exact .inl (by simpa [exec, Monitor.see] using hreported)
    | true => exact .inr (by simp [Reports])
  · exact .inr (by simp [Reports])

theorem Settled.chunk (hset : Settled trace)
    (hreported : (seen trace).reported = false) (direction : δ) (bytes : Nat) (result : Write) :
    Settled (trace ++ chunkEvents true direction bytes result) ∧
      (seen (trace ++ chunkEvents true direction bytes result)).reported = false := by
  have hsplit : trace ++ chunkEvents true direction bytes result =
      trace ++ [.waited direction bytes true, .handed direction bytes] ++
        [.wrote direction bytes result] := by simp [chunkEvents]
  obtain ⟨hgrant, hquiet⟩ := hset.grant hreported direction bytes
  rw [hsplit]
  refine ⟨hgrant.concat (.inr (.inr ⟨direction, bytes, result, rfl⟩)), ?_⟩
  rw [seen_append]
  exact hquiet

theorem Settled.not_metered_chunk {charges : Bool} (hset : Settled trace)
    (hunpaid : charges = false ∨ (seen trace).reported = true)
    (direction : δ) (bytes : Nat) (result : Write) :
    ¬ Metered (trace ++ chunkEvents charges direction bytes result) := by
  cases charges with
  | false => exact hset.not_metered_handed direction bytes _
  | true => exact not_metered_grant (hunpaid.resolve_left (by simp)) direction bytes _

/-- Where a step from a paid state keeps it paid or, if it misses the
condition, hands over a chunk that is not, a run is metered just if its steps
meet the condition. -/
theorem exec_metered_iff {σ ε : Type*} {step : σ → ε → σ}
    {condition : σ → ε → Prop} {traceOf : σ → List (RelayEvent δ)}
    {paid : σ → Prop} (hpaid : ∀ state, paid state → Settled (traceOf state))
    (hkeep : ∀ state input, paid state → condition state input →
      paid (step state input)) (hbreak : ∀ state input, paid state → ¬ condition state input →
      ¬ Metered (traceOf (step state input))) (hgrows : ∀ state input, ∃ events,
      traceOf (step state input) = traceOf state ++ events)
    {start : σ} (hstart : paid start) (inputs : List ε) :
    Metered (traceOf (Run.exec step start inputs)) ↔ Run.Meets step condition start inputs := by
  rw [← not_iff_not]
  refine @exec_bad_iff _ _ step _ paid
    (fun state => ¬ Metered (traceOf state)) ?_ hkeep hbreak ?_ _ hstart inputs
  · exact fun state hstate hnot => hnot (hpaid state hstate).metered
  · intro state input hnot hmetered
    obtain ⟨events, htrace⟩ := hgrows state input
    rw [htrace] at hmetered
    exact hnot ((metered_append _ _).1 hmetered).1

end Monitor

section Bytes

variable {δ : Type u} [DecidableEq δ] (measure : Nat → Write → Nat)

/-- What the writer took of a chunk. -/
def Write.taken (bytes : Nat) : Write → Nat
  | .all => bytes
  | .short count => min count bytes
  | .failed => 0

/-- The bytes of a chunk whose write did not fail. -/
def Write.accepted (bytes : Nat) : Write → Nat
  | .all => bytes
  | .short _ => bytes
  | .failed => 0

def bytesOf (measure : Nat → Write → Nat) (direction : δ) (trace : List (RelayEvent δ)) : Nat :=
  (trace.map fun
    | .wrote other bytes result => if other = direction then measure bytes result else 0
    | .waited _ _ _ => 0
    | .checked _ => 0
    | .handed _ _ => 0).sum

/-- The bytes the writer of a direction took. -/
def completed (direction : δ) (trace : List (RelayEvent δ)) : Nat :=
  bytesOf Write.taken direction trace

/-- The bytes of the chunks of a direction whose write did not fail. -/
def accepted (direction : δ) (trace : List (RelayEvent δ)) : Nat :=
  bytesOf Write.accepted direction trace

theorem bytesOf_append (direction : δ) (trace events : List (RelayEvent δ)) :
    bytesOf measure direction (trace ++ events) =
      bytesOf measure direction trace + bytesOf measure direction events := by
  rw [bytesOf, map_append, sum_append]
  rfl

variable {events trace : List (RelayEvent δ)} {cap : Nat}

theorem bytesOf_quiet (direction : δ) (hevents : Quiet events) :
    bytesOf measure direction events = 0 := by
  rcases hevents with rfl | ⟨_, rfl⟩ | ⟨_, _, rfl⟩ <;> rfl

theorem accepted_of_ne_failed {result : Write} (hres : result ≠ .failed)
    (bytes : Nat) : result.accepted bytes = bytes := by
  cases result with
  | all | short taken => rfl
  | failed => contradiction

theorem bytesOf_chunkEvents (direction other : δ) (charges : Bool) (bytes : Nat) (result : Write) :
    bytesOf measure direction (chunkEvents charges other bytes result) =
      if other = direction then measure bytes result else 0 := by
  cases charges <;> simp [bytesOf, chunkEvents]

/-- `saturating_add`, with the largest count. -/
def addUpTo (cap total bytes : Nat) : Nat := min (total + bytes) cap

theorem addUpTo_min (cap total bytes : Nat) :
    addUpTo cap (min total cap) bytes = min (total + bytes) cap := by
  rw [addUpTo]
  omega

/-- How a relay returned: with the totals it recorded, or by an error before it
recorded anything. -/
inductive End (δ : Type u) where
  | recorded (totals : δ → Nat)
  | lost

def End.bytes (direction : δ) : End δ → Nat
  | .recorded totals => totals direction
  | .lost => 0

/-- A clean run loses no byte of a chunk and fills no counter; one that is not
clean has moved none. -/
def Accountable (cap : Nat) (clean : Prop) (trace : List (RelayEvent δ)) : Prop :=
  (clean → ∀ direction : δ, completed direction trace = min (accepted direction trace) cap) ∧
  (¬ clean → ∀ direction : δ, completed direction trace = 0)

theorem completed_le_accepted (direction : δ) (trace : List (RelayEvent δ)) :
    completed direction trace ≤ accepted direction trace := by
  refine List.sum_le_sum fun event _ => ?_
  cases event with
  | waited | checked | handed => exact le_rfl
  | wrote other bytes result =>
    dsimp only
    split
    · cases result with
      | all | failed => exact le_rfl
      | short count => exact min_le_right _ _
    · exact le_rfl

/-- The writers took all that they accepted just if no write was short. -/
theorem completed_eq_accepted_iff (direction : δ) (trace : List (RelayEvent δ)) :
    completed direction trace = accepted direction trace ↔
      ∀ bytes count, .wrote direction bytes (.short count) ∈ trace → bytes ≤ count := by
  induction trace with
  | nil => simp [completed, accepted, bytesOf]
  | cons event trace ih =>
    have hrest := completed_le_accepted direction trace
    have hfirst := completed_le_accepted direction [event]
    have hsplit : completed direction (event :: trace) = accepted direction (event :: trace) ↔
        completed direction [event] = accepted direction [event] ∧
          completed direction trace = accepted direction trace := by
      have htaken := bytesOf_append Write.taken direction [event] trace
      have haccepted := bytesOf_append Write.accepted direction [event] trace
      simp only [completed, accepted, cons_append, nil_append] at *
      omega
    have hone : completed direction [event] = accepted direction [event] ↔
        ∀ bytes count, event = .wrote direction bytes (.short count) → bytes ≤ count := by
      cases event with
      | waited | checked | handed => simp [completed, accepted, bytesOf]
      | wrote other bytes result =>
        cases result <;> by_cases hother : other = direction <;>
          simp [completed, accepted, bytesOf, Write.taken, Write.accepted, hother]
    rw [hsplit, hone, ih]
    simp only [mem_cons, eq_comm, or_imp, forall_and]

/-- A clean run whose bytes fit the counters is accountable just if no write
was short. -/
theorem accountable_iff_no_short {clean : Prop} (hclean : clean)
    (hfits : ∀ direction : δ, accepted direction trace ≤ cap) : Accountable cap clean trace ↔
      ∀ (direction : δ) bytes count, .wrote direction bytes (.short count) ∈ trace →
        bytes ≤ count := by
  simp only [Accountable, hclean, not_true_eq_false, forall_const, IsEmpty.forall_iff, and_true,
    Nat.min_eq_left (hfits _), completed_eq_accepted_iff]

/-- The totals are what the writers accepted, and no others are recorded. -/
structure Counts (cap : Nat) (totals : δ → Nat) (trace : List (RelayEvent δ))
    (ended : Option (End δ)) : Prop where
  counted : ∀ direction, totals direction = min (accepted direction trace) cap
  recorded : ∀ recorded, ended = some (.recorded recorded) → recorded = totals

variable {totals : δ → Nat}
  {ended after : Option (End δ)}

theorem counts_start (cap : Nat) : Counts cap (fun _ : δ => 0) [] none where
  counted _ := by simp [accepted, bytesOf]
  recorded _ hnone := by simp at hnone

theorem Counts.keep (hcounts : Counts cap totals trace ended)
    (hevents : ∀ direction, bytesOf Write.accepted direction events = 0)
    (hended : ∀ recorded, after = some (.recorded recorded) → recorded = totals) :
    Counts cap totals (trace ++ events) after := by
  refine ⟨fun direction => ?_, hended⟩
  rw [accepted, bytesOf_append, hevents direction, Nat.add_zero]
  exact hcounts.counted direction

theorem Counts.count {direction : δ} {bytes : Nat} (hcounts : Counts cap totals trace ended)
    (hevents : ∀ other, bytesOf Write.accepted other events =
      if direction = other then bytes else 0)
    (hended : ∀ recorded, after = some (.recorded recorded) →
      recorded = Function.update totals direction (addUpTo cap (totals direction) bytes)) :
    Counts cap (Function.update totals direction
      (addUpTo cap (totals direction) bytes)) (trace ++ events) after := by
  refine ⟨fun other => ?_, hended⟩
  rw [accepted, bytesOf_append, hevents other]
  by_cases hother : direction = other
  · subst hother
    rw [Function.update_self, if_pos rfl, hcounts.counted, addUpTo_min]
    rfl
  · rw [Function.update_of_ne (Ne.symm hother), if_neg hother, Nat.add_zero]
    exact hcounts.counted other

/-- A relay that counts what its writers accept, and that loses its totals just
in the runs that are not clean, records what they took just in the accountable
ones. -/
theorem Counts.recorded_iff {result : End δ} {clean : Prop}
    (hcounts : Counts cap totals trace (some result)) (hlost : result = .lost ↔ ¬ clean) :
    (∀ direction, result.bytes direction = completed direction trace) ↔
      Accountable cap clean trace := by
  cases result with
  | recorded recorded =>
    have hclean : clean := by
      by_contra hnot
      exact absurd (hlost.2 hnot) (by simp)
    have htot := hcounts.recorded recorded rfl
    subst htot
    constructor
    · intro hequal
      refine ⟨fun _ direction => ?_, fun hnot => absurd hclean hnot⟩
      rw [← hequal direction, ← hcounts.counted direction]
      rfl
    · rintro ⟨hall, -⟩ direction
      rw [hall hclean direction]
      exact hcounts.counted direction
  | lost =>
    have hnot : ¬ clean := hlost.1 rfl
    constructor
    · intro hequal
      exact ⟨fun hclean => absurd hclean hnot, fun _ direction => (hequal direction).symm⟩
    · rintro ⟨-, hnone⟩ direction
      exact (hnone hnot direction).symm

end Bytes

end Relaying
