/-
The relays made of two copy loops that run side by side in one task: the
generic relay of two TCP streams and the relay of a TUIC stream.  The loops
interleave wherever one of them waits.
-/
import KeliCore.Relaying
import KeliCore.Traffic

namespace KeliCore

open Relaying List

/-- In what the copy relays differ. -/
structure CopyPolicy where
  /-- Each turn starts by asking whether the limiter is revoked. -/
  checksRevocation : Bool
  /-- A direction that ends ends the other one. -/
  closesPeer : Bool
  /-- One direction alone is given up after a while. -/
  halfCloses : Bool
  /-- A read or a write that fails drops both loops and their totals. -/
  failsBoth : Bool
deriving DecidableEq

/-- `relay_tcp_bidirectional_async` over `relay_copy_counted_async` -/
def relayTcpBidirectional (closePeerOnEof : Bool) : CopyPolicy where
  checksRevocation := true
  closesPeer := closePeerOnEof
  halfCloses := true
  failsBoth := false

/-- `relay_streams` of TUIC, which joins its loops with `try_join!`. -/
def relayStreams : CopyPolicy where
  checksRevocation := false
  closesPeer := false
  halfCloses := false
  failsBoth := true

inductive CopyPhase where
  | checking
  | reading
  | waiting (bytes : Nat)
  | writing (bytes : Nat)
  | closed
deriving DecidableEq

structure CopyState where
  phases : Direction → CopyPhase
  totals : Direction → Nat := fun _ => 0
  trace : List (RelayEvent Direction) := []
  ended : Option (End Direction) := none

/-- What ends one of the waits. -/
inductive CopyInput where
  | checked (direction : Direction) (revoked : Bool)
  | read (direction : Direction) (read : Read)
  /-- The limiter is revoked during a read. -/
  | revoked (direction : Direction)
  | granted (direction : Direction) (granted : Bool)
  | written (direction : Direction) (done : Bool)
  | halfClosed

namespace CopyState

def emit (state : CopyState) (events : List (RelayEvent Direction)) : CopyState :=
  { state with trace := state.trace ++ events }

def goTo (direction : Direction) (phase : CopyPhase) (state : CopyState) :
    CopyState :=
  { state with phases := Function.update state.phases direction phase }

/-- Both loops are over, or the one that is left does not matter. -/
def finish (state : CopyState) : CopyState :=
  { state with ended := some (.recorded state.totals) }

def isClosed (state : CopyState) (direction : Direction) : Bool :=
  state.phases direction == .closed

/-- One loop is over. -/
def close (policy : CopyPolicy) (direction : Direction) (state : CopyState) :
    CopyState :=
  let state := state.goTo direction .closed
  if policy.closesPeer || state.isClosed .upload && state.isClosed .download
    then state.finish else state

/-- One loop returns an error, or is over. -/
def fail (policy : CopyPolicy) (direction : Direction) (state : CopyState) :
    CopyState :=
  if policy.failsBoth then { state with ended := some .lost }
  else state.close policy direction

end CopyState

section Copy

variable (policy : CopyPolicy) (held : Bool)

open CopyState

/-- The start of a turn.  `held` says whether there is a limiter. -/
def firstPhase : CopyPhase :=
  if policy.checksRevocation && held then .checking else .reading

def copyRead (state : CopyState) (direction : Direction) : Read → CopyState
  | .got 0 => state.close policy direction
  | .got (more + 1) =>
    if held then state.goTo direction (.waiting (more + 1))
    else
      (state.emit [.handed direction (more + 1)]).goTo direction (.writing (more + 1))
  | .blocked => state
  | .failed => state.fail policy direction

def copyWritten (state : CopyState) (direction : Direction) (bytes : Nat)
    (done : Bool) : CopyState :=
  if done then
    let state := state.emit [.wrote direction bytes .all]
    { state with
      totals := Function.update state.totals direction
        (addUpTo u64Max (state.totals direction) bytes) }.goTo direction (firstPhase policy held)
  else (state.emit [.wrote direction bytes .failed]).fail policy direction

/-- One loop goes on; an input that is not what it waits for changes
nothing. -/
def copyAdvance (state : CopyState) (input : CopyInput) : CopyState :=
  match input with
  | .checked direction revoked =>
    if state.phases direction = .checking then
      let state := state.emit [.checked revoked]
      if revoked then state.close policy direction
      else state.goTo direction .reading
    else state
  | .read direction read =>
    if state.phases direction = .reading then
      copyRead policy held state direction read
    else state
  | .revoked direction =>
    if state.phases direction = .reading ∧ held = true then
      (state.emit [.checked true]).close policy direction
    else state
  | .granted direction granted =>
    match state.phases direction with
    | .waiting bytes =>
      if granted then
        -- nothing else runs between the grant and the write
        (state.emit [.waited direction bytes true,
          .handed direction bytes]).goTo direction (.writing bytes)
      else
        (state.emit [.waited direction bytes false]).close policy direction
    | .checking | .reading | .writing _ | .closed => state
  | .written direction done =>
    match state.phases direction with
    | .writing bytes => copyWritten policy held state direction bytes done
    | .checking | .reading | .waiting _ | .closed => state
  | .halfClosed =>
    if policy.halfCloses && state.isClosed .upload != state.isClosed .download
    then state.finish else state

def copyStep (state : CopyState) (input : CopyInput) : CopyState :=
  match state.ended with
  | some _ => state
  | none => copyAdvance policy held state input

def copyStart : CopyState := { phases := fun _ => firstPhase policy held }

def copyRun (inputs : List CopyInput) : CopyState :=
  Run.exec (copyStep policy held) (copyStart policy held) inputs

/-- Ending a loop changes neither the totals nor the trace. -/
structure ClosesWith (before after : CopyState) (allowed : End Direction → Prop) : Prop where
  totals : after.totals = before.totals
  trace : after.trace = before.trace
  ended : ∀ result, after.ended = some result → allowed result

namespace CopyState

theorem close_closesWith {state : CopyState} (hrun : state.ended = none) (direction : Direction) :
    ClosesWith state (state.close policy direction) (· = .recorded state.totals) := by
  rw [close]
  split
  · exact ⟨rfl, rfl, fun result hended => (Option.some.inj hended).symm⟩
  · refine ⟨rfl, rfl, fun result hended => ?_⟩
    rw [goTo, hrun] at hended
    simp at hended

theorem fail_closesWith {state : CopyState} (hrun : state.ended = none)
    (direction : Direction) : ClosesWith state (state.fail policy direction) fun result =>
      result = if policy.failsBoth then .lost else .recorded state.totals := by
  rw [fail]
  split
  · exact ⟨rfl, rfl, fun result hended => (Option.some.inj hended).symm⟩
  · exact close_closesWith policy hrun direction

end CopyState

/-- The next step drops both loops: a read fails, or a write. -/
def CopyFails (state : CopyState) (input : CopyInput) : Prop :=
  policy.failsBoth = true ∧ state.ended = none ∧ ((∃ direction, state.phases direction = .reading ∧
      input = .read direction .failed) ∨
    ∃ direction bytes, state.phases direction = .writing bytes ∧ input = .written direction false)

/-- What a step does to the totals and the trace, and how it can end the
relay. -/
inductive CopyEffect (state : CopyState) (input : CopyInput) (after : CopyState) : Prop where
  /-- No chunk moves. -/
  | quiet (events : List (RelayEvent Direction)) (hevents : Quiet events)
      (htrace : after.trace = state.trace ++ events) (htot : after.totals = state.totals)
      (hended : ∀ result, after.ended = some result → result = .recorded state.totals)
  /-- The limiter grants a chunk. -/
  | granted (direction : Direction) (bytes : Nat) (hphase : state.phases direction = .waiting bytes)
      (hinput : input = .granted direction true) (htrace : after.trace = state.trace ++
        [.waited direction bytes true, .handed direction bytes])
      (htot : after.totals = state.totals) (hended : after.ended = none)
  /-- There is no limiter to grant it. -/
  | handed (direction : Direction) (bytes : Nat) (hheld : held = false)
      (htrace : after.trace = state.trace ++ [.handed direction bytes])
      (htot : after.totals = state.totals) (hended : after.ended = none)
  | written (direction : Direction) (bytes : Nat)
      (htrace : after.trace = state.trace ++ [.wrote direction bytes .all])
      (htot : after.totals = Function.update state.totals direction
        (addUpTo u64Max (state.totals direction) bytes)) (hended : after.ended = none)
  /-- A read or a write fails. -/
  | failed (events : List (RelayEvent Direction))
      (hfails : policy.failsBoth = true → CopyFails policy state input) (hevents : events = [] ∨
        ∃ direction bytes, events = [.wrote direction bytes .failed])
      (htrace : after.trace = state.trace ++ events) (htot : after.totals = state.totals)
      (hended : ∀ result, after.ended = some result →
        result = if policy.failsBoth then .lost else .recorded state.totals)

variable {state : CopyState} {direction : Direction}

theorem copy_unchanged (hrun : state.ended = none)
    (input : CopyInput) : CopyEffect policy held state input state :=
  .quiet [] quiet_nil (append_nil _).symm rfl fun result hended => by
    rw [hrun] at hended
    simp at hended

theorem close_effect {events : List (RelayEvent Direction)} {between : CopyState}
    (hevents : Quiet events) (hmid : between = state.emit events) (hrun : state.ended = none)
    (direction : Direction) (input : CopyInput) :
    CopyEffect policy held state input (between.close policy direction) := by
  subst hmid
  have hcloses := @close_closesWith policy (state.emit events) hrun direction
  exact .quiet events hevents hcloses.trace hcloses.totals hcloses.ended

theorem copyRead_effect (hrun : state.ended = none)
    (hphase : state.phases direction = .reading) (read : Read) :
    CopyEffect policy held state (.read direction read)
      (copyRead policy held state direction read) := by
  unfold copyRead
  split
  case h_1 =>
      have hcloses := close_closesWith policy hrun direction
      exact .quiet [] quiet_nil (hcloses.trace.trans (append_nil _).symm) hcloses.totals
        hcloses.ended
  case h_2 more =>
      split
      · exact .quiet [] quiet_nil (append_nil _).symm rfl
          fun result hended => absurd (hrun.symm.trans hended) (by simp)
      next hheld => exact .handed direction (more + 1) (by simpa using hheld) rfl rfl hrun
  case h_3 => exact copy_unchanged policy held hrun _
  case h_4 =>
      have hcloses := fail_closesWith policy hrun direction
      exact .failed [] (fun hboth => ⟨hboth, hrun, .inl ⟨direction, hphase, rfl⟩⟩)
        (.inl rfl) (hcloses.trace.trans (append_nil _).symm) hcloses.totals hcloses.ended

theorem copyWritten_effect {bytes : Nat} (hrun : state.ended = none)
    (hphase : state.phases direction = .writing bytes) (done : Bool) :
    CopyEffect policy held state (.written direction done)
      (copyWritten policy held state direction bytes done) := by
  cases done with
  | true => exact .written direction bytes rfl rfl hrun
  | false =>
    have hcloses := @fail_closesWith policy
      (state.emit [.wrote direction bytes .failed]) hrun direction
    exact .failed [.wrote direction bytes .failed]
      (fun hboth => ⟨hboth, hrun, .inr ⟨direction, bytes, hphase, rfl⟩⟩)
      (.inr ⟨direction, bytes, rfl⟩) hcloses.trace hcloses.totals hcloses.ended

theorem copyAdvance_effect (hrun : state.ended = none) (input : CopyInput) :
    CopyEffect policy held state input (copyAdvance policy held state input) := by
  have hnone : ∀ result, state.ended = some result →
      result = .recorded state.totals := fun result hended =>
    absurd (hrun.symm.trans hended) (by simp)
  unfold copyAdvance
  split
  case h_1 direction revoked =>
      split
      · cases revoked with
        | true => exact close_effect policy held (quiet_checked true) rfl hrun direction _
        | false => exact .quiet [.checked false] (quiet_checked false) rfl rfl hnone
      · exact copy_unchanged policy held hrun _
  case h_2 direction read =>
      split
      next hphase => exact copyRead_effect policy held hrun hphase read
      · exact copy_unchanged policy held hrun _
  case h_3 direction =>
      split
      · exact close_effect policy held (quiet_checked true) rfl hrun direction _
      · exact copy_unchanged policy held hrun _
  case h_4 direction granted =>
      split
      next bytes hphase =>
        cases granted with
        | true => exact .granted direction bytes hphase rfl rfl rfl hrun
        | false =>
          exact close_effect policy held (quiet_refused direction bytes) rfl hrun direction _
      all_goals exact copy_unchanged policy held hrun _
  case h_5 direction done =>
      split
      next bytes hphase => exact copyWritten_effect policy held hrun hphase done
      all_goals exact copy_unchanged policy held hrun _
  case h_6 =>
      split
      · exact .quiet [] quiet_nil (append_nil _).symm rfl
          fun result hended => (Option.some.inj hended).symm
      · exact copy_unchanged policy held hrun _

end Copy

end KeliCore
