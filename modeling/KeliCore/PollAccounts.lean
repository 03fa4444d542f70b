/-
The accounts of a polling relay: when the totals it records are the bytes its
writers took, and when every chunk it hands over was granted by the limiter.
-/
import KeliCore.PollRelay

namespace KeliCore

open Relaying PollState

variable (policy : PollPolicy) (held : Bool)

/-- In this state the next step leaves by an error: a chunk's write fails, or
the wait for the sockets does. -/
def PollFails (state : PollState) (input : PollInput) : Prop :=
  policy.leavesEarly = true ∧
    ((∃ direction bytes charges, Carries policy held state input direction bytes charges .failed) ∨
    (state.phase = .rest ∧ input = .rest false true))

variable {state : PollState} {input : PollInput} {direction : Direction} {bytes : Nat}
  {charges : Bool} {write : Write}

theorem pollStep_carries
    (hcarries : Carries policy held state input direction bytes charges write) :
    ∃ result, (pollStep policy held state input).trace =
        state.trace ++ chunkEvents charges direction bytes result ∧
      (write = .failed → policy.leavesEarly = true →
        (pollStep policy held state input).phase = .ended .lost) := by
  obtain ⟨hpos, hplace⟩ := hcarries
  obtain ⟨more, rfl⟩ := Nat.exists_eq_succ_of_ne_zero hpos.ne'
  cases direction with
  | upload =>
    obtain ⟨rfl, hphase, granted, rfl, hgranted⟩ := hplace
    have hnot : ¬ (charges && !granted) = true := by simpa using hgranted
    simp only [pollStep, hphase, pollUpload]
    rw [if_neg hnot]
    cases write with
    | all | short taken => exact ⟨.all, (toDownload_movesOn policy _).trace, nofun⟩
    | failed =>
      refine ⟨.failed, ?_⟩
      dsimp only
      split
      · exact ⟨rfl, fun _ _ => rfl⟩
      next hstays =>
        exact ⟨(toDownload_movesOn policy _).trace, fun _ hleaves => absurd hleaves hstays⟩
  | download =>
    obtain ⟨rfl, hphase, granted, rfl, hgranted⟩ := hplace
    have hnot : ¬ ((held && policy.chargesDownload) && !granted) = true := by simpa using hgranted
    simp only [pollStep, hphase, pollDownload]
    rw [if_neg hnot]
    cases write with
    | all => exact ⟨.all, (toRest_movesOn policy _).trace, nofun⟩
    | short taken => exact ⟨_, (toRest_movesOn policy _).trace, nofun⟩
    | failed =>
      refine ⟨.failed, ?_⟩
      dsimp only
      split
      · exact ⟨rfl, fun _ _ => rfl⟩
      next hstays =>
        exact ⟨(toRest_movesOn policy _).trace, fun _ hleaves => absurd hleaves hstays⟩

theorem pollStep_of_fails (hfails : PollFails policy held state input) :
    (pollStep policy held state input).phase = .ended .lost := by
  obtain ⟨hleaves, ⟨direction, bytes, charges, hcarries⟩ | ⟨hphase, rfl⟩⟩ := hfails
  · obtain ⟨result, -, hlost⟩ := pollStep_carries policy held hcarries
    exact hlost rfl hleaves
  · simp [pollStep, hphase, hleaves, leave]

theorem pollStep_ended {result : End Direction}
    (hended : state.phase = .ended result) (input : PollInput) :
    pollStep policy held state input = state := by
  unfold pollStep
  split <;> simp_all

theorem fails_of_lost (hrun : state.phase ≠ .ended .lost)
    (hlost : (pollStep policy held state input).phase = .ended .lost) :
    PollFails policy held state input := by
  cases (pollStep_turn policy held state input).effect with
  | quiet events hevents htrace htot hended hreports =>
    rcases hended _ hlost with hpre | hrecorded
    · exact absurd hpre hrun
    · exact absurd hrecorded (by simp)
  | passed direction bytes charges write result hwrite hres hcarries htrace htot hended =>
      exact absurd (hended _ hlost) (by simp)
  | failed direction bytes charges hcarries htrace htot hended hleaves =>
    have hearly : policy.leavesEarly = true := by
      by_contra hnot
      have hres := hended _ hlost
      rw [if_neg hnot] at hres
      exact absurd hres (by simp)
    exact ⟨hearly, .inl ⟨direction, bytes, charges, hcarries⟩⟩
  | gaveUp hphase hinput hleaves htrace htot hended => exact ⟨hleaves, .inr ⟨hphase, hinput⟩⟩

/-- A run loses its totals just if one of its steps fails. -/
theorem pollRun_lost_iff (inputs : List PollInput) :
    (pollRun policy held inputs).phase = .ended .lost ↔ ¬ Run.Meets (pollStep policy held)
        (fun state input => ¬ PollFails policy held state input) {} inputs := by
  refine @Run.exec_bad_iff _ _ (pollStep policy held) _ (fun state => state.phase ≠ .ended .lost)
    (fun state => state.phase = .ended .lost) ?_ ?_ ?_ ?_ _ ?_ inputs
  · exact fun state hrun => hrun
  · exact fun state input hrun hmeets hlost => hmeets (fails_of_lost policy held hrun hlost)
  · exact fun state input _ hfails => pollStep_of_fails policy held (not_not.1 hfails)
  · intro state input hlost
    rw [pollStep_ended policy held hlost]
    exact hlost
  · simp

def PollPhase.result : PollPhase → Option (End Direction)
  | .head | .upload | .download | .rest => none
  | .ended result => some result

theorem PollPhase.result_eq_some_iff {phase : PollPhase} {result : End Direction} :
    phase.result = some result ↔ phase = .ended result := by cases phase <;> simp [PollPhase.result]

def PollState.Counts (state : PollState) : Prop :=
  Relaying.Counts u64Max state.totals state.trace state.phase.result

theorem pollStep_counts (hcounts : state.Counts)
    (input : PollInput) : (pollStep policy held state input).Counts := by
  rw [PollState.Counts]
  cases (pollStep_turn policy held state input).effect with
  | quiet events hevents htrace htot hended hreports =>
    rw [htot, htrace]
    refine hcounts.keep (fun direction => bytesOf_quiet _ _ hevents) fun recorded hrecorded => ?_
    rcases hended _ (PollPhase.result_eq_some_iff.1 hrecorded) with hpre | hequal
    · exact hcounts.recorded recorded (PollPhase.result_eq_some_iff.2 hpre)
    · exact End.recorded.inj hequal
  | passed direction bytes charges write result hwrite hres hcarries htrace htot hended =>
      rw [htot, htrace]
      refine hcounts.count (fun other => ?_) fun recorded hrecorded => ?_
      · rw [bytesOf_chunkEvents, accepted_of_ne_failed hres]
      · rw [← htot]
        exact End.recorded.inj (hended _ (PollPhase.result_eq_some_iff.1 hrecorded))
  | failed direction bytes charges hcarries htrace htot hended hleaves =>
    rw [htot, htrace]
    refine hcounts.keep (fun other => ?_) fun recorded hrecorded => ?_
    · rw [bytesOf_chunkEvents, Write.accepted, ite_self]
    · have hequal := hended _ (PollPhase.result_eq_some_iff.1 hrecorded)
      split at hequal
      · exact absurd hequal (by simp)
      · exact End.recorded.inj hequal
  | gaveUp hphase hinput hleaves htrace htot hended =>
    rw [htot, htrace, hended, ← List.append_nil state.trace]
    exact hcounts.keep (fun _ => rfl) (by simp [PollPhase.result])

theorem pollRun_counts (inputs : List PollInput) : (pollRun policy held inputs).Counts := by
  refine @Run.exec_always _ _ (pollStep policy held) PollState.Counts
    (fun state input hcounts => pollStep_counts policy held hcounts input) _ ?_ inputs
  exact counts_start u64Max

/-- No step fails, no write is short and no counter is full, or a step fails
before any byte is written. -/
def PollAccountable (inputs : List PollInput) : Prop :=
  Accountable u64Max (Run.Meets (pollStep policy held)
      (fun state input => ¬ PollFails policy held state input) {} inputs)
    (pollRun policy held inputs).trace

/-- When a polling relay has returned, what it recorded is what its writers
took, just if its run is accountable. -/
theorem pollRun_recorded_iff {inputs : List PollInput} {result : End Direction}
    (hended : (pollRun policy held inputs).phase = .ended result) :
    (∀ direction, result.bytes direction = completed direction (pollRun policy held inputs).trace) ↔
      PollAccountable policy held inputs := by
  have hcounts := pollRun_counts policy held inputs
  rw [PollState.Counts, hended] at hcounts
  apply hcounts.recorded_iff
  rw [← pollRun_lost_iff, hended]
  exact ⟨fun hlost => congrArg PollPhase.ended hlost, PollPhase.ended.inj⟩

/-- The next step hands over a download chunk that the limiter is not asked
for, or that it grants after a report. -/
def PollUnpaid (state : PollState) (input : PollInput) : Prop :=
  ∃ bytes charges write, Carries policy held state input .download bytes charges write ∧
      (charges = false ∨ (seen state.trace).reported = true)

/-- Where the download is not charged, each chunk of it is unpaid. -/
theorem pollUnpaid_iff_download (hfree : policy.chargesDownload = false) :
    PollUnpaid policy held state input ↔ state.phase = .download ∧
      ∃ bytes granted write, 0 < bytes ∧ input = .remote (.got bytes) granted write := by
  constructor
  · rintro ⟨bytes, charges, write, ⟨hbytes, -, hphase, granted, hinput, -⟩, -⟩
    exact ⟨hphase, bytes, granted, write, hbytes, hinput⟩
  · rintro ⟨hphase, bytes, granted, write, hbytes, hinput⟩
    refine ⟨bytes, false, write, ⟨hbytes, ?_, hphase, granted, hinput, nofun⟩, .inl rfl⟩
    rw [hfree, Bool.and_false]

theorem pollStep_grows (state : PollState) (input : PollInput) :
    ∃ events, (pollStep policy held state input).trace = state.trace ++ events := by
  cases (pollStep_turn policy held state input).effect with
  | quiet events hevents htrace htot hended hreports => exact ⟨events, htrace⟩
  | passed direction bytes charges write result hwrite hres hcarries htrace htot hended
  | failed direction bytes charges hcarries htrace htot hended hleaves => exact ⟨_, htrace⟩
  | gaveUp hphase hinput hleaves htrace htot hended =>
    exact ⟨[], htrace.trans (List.append_nil _).symm⟩

/-- A metered state: after a report there is no upload any more. -/
structure PollState.Paid (state : PollState) : Prop where
  settled : Settled state.trace
  place : state.phase = .upload → state.uploadDone = false
  reported : (seen state.trace).reported = true →
    state.uploadDone = true ∨ ∃ result, state.phase = .ended result

theorem paid_of_chunk {result : Write} {after : PollState} (hpaid : state.Paid)
    (hcarries : Carries policy true state input direction bytes charges write)
    (hmeets : ¬ PollUnpaid policy true state input)
    (hplace : after.phase = .upload → after.uploadDone = false) (htrace : after.trace =
      state.trace ++ chunkEvents charges direction bytes result) : after.Paid := by
  have hquiet : charges = true ∧ (seen state.trace).reported = false := by
    cases direction with
    | upload =>
      obtain ⟨-, rfl, hphase, -⟩ := hcarries
      refine ⟨rfl, ?_⟩
      by_contra hreported
      rcases hpaid.reported (by simpa using hreported) with hdone | ⟨_, hended⟩
      · exact absurd (hdone.symm.trans (hpaid.place hphase)) (by decide)
      · exact absurd (hended.symm.trans hphase) (by simp)
    | download =>
      rw [PollUnpaid, not_exists] at hmeets
      have hnot := fun hunpaid => hmeets bytes ⟨charges, write, hcarries, hunpaid⟩
      simpa [not_or] using hnot
  obtain ⟨rfl, hreported⟩ := hquiet
  obtain ⟨hset, hafter⟩ := hpaid.settled.chunk hreported direction bytes result
  rw [← htrace] at hset hafter
  refine ⟨hset, hplace, fun hreports => ?_⟩
  exact absurd (hreports.symm.trans hafter) (by decide)

theorem pollStep_paid (hpaid : state.Paid) (hmeets : ¬ PollUnpaid policy true state input) :
    (pollStep policy true state input).Paid := by
  by_cases hended : ∃ result, state.phase = .ended result
  · obtain ⟨result, hended⟩ := hended
    rwa [pollStep_ended policy true hended]
  have hturn := pollStep_turn policy true state input
  have hplace := hturn.place hpaid.place
  cases hturn.effect with
  | quiet events hevents htrace htot hends hreports =>
    refine ⟨?_, hplace, fun hreported => ?_⟩
    · rw [htrace]
      exact hpaid.settled.quiet hevents
    · rw [htrace] at hreported
      rcases reported_quiet hevents hreported with hpre | hnew
      · exact .inl (hturn.done ((hpaid.reported hpre).resolve_right hended))
      · exact hreports hnew
  | passed direction bytes charges write result hwrite hres hcarries htrace htot hends =>
      exact paid_of_chunk policy hpaid hcarries hmeets hplace htrace
  | failed direction bytes charges hcarries htrace htot hends hleaves =>
    exact paid_of_chunk policy hpaid hcarries hmeets hplace htrace
  | gaveUp hphase hinput hleaves htrace htot hends =>
    refine ⟨?_, hplace, fun _ => .inr ⟨_, hends⟩⟩
    rw [htrace]
    exact hpaid.settled

/-- With a limiter, a run of a polling relay is metered just if none of its
steps hands over a download chunk that is not paid for. -/
theorem pollRun_metered_iff (inputs : List PollInput) : Metered (pollRun policy true inputs).trace ↔
      Run.Meets (pollStep policy true) (fun state input => ¬ PollUnpaid policy true state input) {}
        inputs := by
  refine @exec_metered_iff _ _ _ _ (pollStep policy true) _ PollState.trace
    PollState.Paid (fun state hpaid => hpaid.settled) ?_ ?_ (pollStep_grows policy true) _ ?_ inputs
  · exact fun state input hpaid hmeets => pollStep_paid policy hpaid hmeets
  · intro state input hpaid hmeets
    obtain ⟨bytes, charges, write, hcarries, hunpaid⟩ := not_not.1 hmeets
    obtain ⟨result, htrace, -⟩ := pollStep_carries policy true hcarries
    rw [htrace]
    exact hpaid.settled.not_metered_chunk hunpaid .download bytes result
  · exact ⟨settled_nil, by simp, by simp [seen, Run.exec]⟩

end KeliCore
