/-
The accounts of a copy relay: when the totals it records are the bytes its
writers took, and when every chunk it hands over was granted by the limiter.
-/
import KeliCore.CopyRelay

namespace KeliCore

open Relaying CopyState

variable (policy : CopyPolicy) (held : Bool)
variable (inputs : List CopyInput) {result : End Direction} {state : CopyState} {input : CopyInput}

theorem copyStep_ended (hended : state.ended = some result) (input : CopyInput) :
    copyStep policy held state input = state := by rw [copyStep, hended]

theorem copyStep_running (hrun : state.ended = none) (input : CopyInput) :
    copyStep policy held state input = copyAdvance policy held state input := by
  rw [copyStep, hrun]

theorem copyStep_effect (hrun : state.ended = none) (input : CopyInput) :
    CopyEffect policy held state input (copyStep policy held state input) := by
  rw [copyStep_running policy held hrun]
  exact copyAdvance_effect policy held hrun input

theorem copyStep_of_fails (hfails : CopyFails policy state input) :
    (copyStep policy held state input).ended = some .lost := by
  obtain ⟨hboth, hrun, hplace⟩ := hfails
  rw [copyStep_running policy held hrun]
  rcases hplace with ⟨direction, hphase, rfl⟩ | ⟨direction, bytes, hphase, rfl⟩
  · simp [copyAdvance, hphase, copyRead, fail, hboth]
  · simp [copyAdvance, hphase, copyWritten, fail, hboth]

theorem fails_of_dropped (hpre : state.ended ≠ some .lost)
    (hlost : (copyStep policy held state input).ended = some .lost) :
    CopyFails policy state input := by
  cases hended : state.ended with
  | some result =>
    rw [copyStep_ended policy held hended] at hlost
    exact absurd hlost hpre
  | none =>
    cases copyStep_effect policy held hended input with
    | quiet events hevents htrace htot hends => exact absurd (hends _ hlost) (by simp)
    | granted direction bytes hphase hinput htrace htot hends
    | handed direction bytes hheld htrace htot hends
    | written direction bytes htrace htot hends =>
      exact absurd (hlost.symm.trans hends) (by simp)
    | failed events hfails hevents htrace htot hends =>
      apply hfails
      by_contra hnot
      have hres := hends _ hlost
      rw [if_neg hnot] at hres
      exact absurd hres (by simp)

theorem copyRun_lost_iff : (copyRun policy held inputs).ended = some .lost ↔
      ¬ Run.Meets (copyStep policy held) (fun state input => ¬ CopyFails policy state input)
        (copyStart policy held) inputs := by
  refine @Run.exec_bad_iff _ _ (copyStep policy held) _ (fun state => state.ended ≠ some .lost)
    (fun state => state.ended = some .lost) ?_ ?_ ?_ ?_ _ ?_ inputs
  · exact fun state hrun => hrun
  · exact fun state input hrun hmeets hlost =>
      hmeets (fails_of_dropped policy held hrun hlost)
  · exact fun state input _ hfails => copyStep_of_fails policy held (not_not.1 hfails)
  · intro state input hlost
    rw [copyStep_ended policy held hlost]
    exact hlost
  · simp [copyStart]

def CopyState.Counts (state : CopyState) : Prop :=
  Relaying.Counts u64Max state.totals state.trace state.ended

theorem copyStep_counts (hcounts : state.Counts)
    (input : CopyInput) : (copyStep policy held state input).Counts := by
  cases hended : state.ended with
  | some result => rwa [copyStep_ended policy held hended]
  | none =>
    rw [CopyState.Counts]
    cases copyStep_effect policy held hended input with
    | quiet events hevents htrace htot hends =>
      rw [htot, htrace]
      exact hcounts.keep (fun direction => bytesOf_quiet _ _ hevents)
        fun recorded hrecorded => End.recorded.inj (hends _ hrecorded)
    | granted direction bytes hphase hinput htrace htot hends
    | handed direction bytes hheld htrace htot hends =>
      rw [htot, htrace, hends]
      exact hcounts.keep (fun _ => rfl) (by simp)
    | written direction bytes htrace htot hends =>
      rw [htot, htrace, hends]
      exact hcounts.count (fun other => by simp [bytesOf, Write.accepted]) (by simp)
    | failed events hfails hevents htrace htot hends =>
      rw [htot, htrace]
      refine hcounts.keep (fun other => ?_) fun recorded hrecorded => ?_
      · rcases hevents with rfl | ⟨direction, bytes, rfl⟩
        · rfl
        · simp [bytesOf, Write.accepted]
      · have hres := hends _ hrecorded
        split at hres
        · exact absurd hres (by simp)
        · exact End.recorded.inj hres

theorem copyRun_counts : (copyRun policy held inputs).Counts := by
  refine @Run.exec_always _ _ (copyStep policy held) CopyState.Counts
    (fun state input hcounts => copyStep_counts policy held hcounts input) _ ?_ inputs
  exact counts_start u64Max

/-- No step fails, and no counter is full, or a step fails before any byte is
written. -/
def CopyAccountable (inputs : List CopyInput) : Prop :=
  Accountable u64Max (Run.Meets (copyStep policy held)
      (fun state input => ¬ CopyFails policy state input) (copyStart policy held) inputs)
    (copyRun policy held inputs).trace

/-- When a copy relay has returned, what it recorded is what its writers took,
just if its run is accountable. -/
theorem copyRun_recorded_iff {inputs : List CopyInput}
    (hended : (copyRun policy held inputs).ended = some result) :
    (∀ direction, result.bytes direction = completed direction (copyRun policy held inputs).trace) ↔
      CopyAccountable policy held inputs := by
  have hcounts := copyRun_counts policy held inputs
  rw [CopyState.Counts, hended] at hcounts
  apply hcounts.recorded_iff
  rw [← copyRun_lost_iff, hended]
  exact ⟨fun hlost => congrArg some hlost, Option.some.inj⟩

/-- The limiter grants a chunk after a report. -/
def CopyUnpaid (state : CopyState) (input : CopyInput) : Prop :=
  state.ended = none ∧ (seen state.trace).reported = true ∧
    ∃ direction bytes, state.phases direction = .waiting bytes ∧ input = .granted direction true

theorem copyStep_settled (hset : Settled state.trace) (hmeets : ¬ CopyUnpaid state input) :
    Settled (copyStep policy true state input).trace := by
  cases hended : state.ended with
  | some result => rwa [copyStep_ended policy true hended]
  | none =>
    cases copyStep_effect policy true hended input with
    | quiet events hevents htrace htot hends =>
      rw [htrace]
      exact hset.quiet hevents
    | granted direction bytes hphase hinput htrace htot hends =>
      have hreported : (seen state.trace).reported = false := by
        by_contra hnot
        exact hmeets ⟨hended, by simpa using hnot, direction, bytes, hphase, hinput⟩
      rw [htrace]
      exact (hset.grant hreported direction bytes).1
    | handed direction bytes hheld htrace htot hends => simp at hheld
    | written direction bytes htrace htot hends =>
      rw [htrace]
      exact hset.concat (.inr (.inr ⟨direction, bytes, .all, rfl⟩))
    | failed events hfails hevents htrace htot hends =>
      rw [htrace]
      rcases hevents with rfl | ⟨direction, bytes, rfl⟩
      · rwa [List.append_nil]
      · exact hset.concat (.inr (.inr ⟨direction, bytes, .failed, rfl⟩))

theorem copyStep_grows (state : CopyState) (input : CopyInput) :
    ∃ events, (copyStep policy held state input).trace = state.trace ++ events := by
  cases hended : state.ended with
  | some result =>
    rw [copyStep_ended policy held hended]
    exact ⟨[], (List.append_nil _).symm⟩
  | none =>
    cases copyStep_effect policy held hended input with
    | quiet events hevents htrace htot hends
    | granted direction bytes hphase hinput htrace htot hends
    | handed direction bytes hheld htrace htot hends
    | written direction bytes htrace htot hends
    | failed events hfails hevents htrace htot hends => exact ⟨_, htrace⟩

/-- With a limiter, a run of a copy relay is metered just if none of its steps
is granted a chunk after a report. -/
theorem copyRun_metered_iff : Metered (copyRun policy true inputs).trace ↔
      Run.Meets (copyStep policy true) (fun state input => ¬ CopyUnpaid state input)
        (copyStart policy true) inputs := by
  refine @exec_metered_iff _ _ _ _ (copyStep policy true) _ CopyState.trace
    (fun state => Settled state.trace) (fun _ hset => hset) ?_ ?_
    (copyStep_grows policy true) _ settled_nil inputs
  · exact fun state input hset hmeets => copyStep_settled policy hset hmeets
  · intro state input hset hmeets
    obtain ⟨hrun, hreported, direction, bytes, hphase, rfl⟩ := not_not.1 hmeets
    have htrace : (copyStep policy true state (.granted direction true)).trace =
        state.trace ++ [.waited direction bytes true, .handed direction bytes] := by
      rw [copyStep_running policy true hrun]
      simp [copyAdvance, hphase, emit, goTo]
    rw [htrace]
    exact not_metered_grant hreported direction bytes []

end KeliCore
