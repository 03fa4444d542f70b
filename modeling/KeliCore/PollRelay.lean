/-
The relays that poll both of their sockets in one thread: the single-stream
relay of VMess, the relay of a TLS connection and the plain-WebSocket relay of
Trojan.  They are one loop, up to what they ask the limiter and what they do
about errors.
-/
import KeliCore.Relaying
import KeliCore.Traffic
import KeliCore.VmessBody

namespace KeliCore

open Relaying

/-- In what the polling relays differ. -/
structure PollPolicy where
  /-- Each turn starts by asking whether the limiter is revoked. -/
  checksRevocation : Bool
  /-- A relay that is idle for too long ends. -/
  watchesIdle : Bool
  /-- The limiter is asked for download chunks as well. -/
  chargesDownload : Bool
  /-- A refused upload chunk ends the download, too. -/
  refusalEndsBoth : Bool
  readErrorEndsBoth : Bool
  /-- A write or a wait that fails leaves the handler at once. -/
  leavesEarly : Bool
  /-- The client's writer goes on after a short write. -/
  writesAll : Bool
deriving DecidableEq

/-- `VmessServer::relay_single_io`; an unframed body is one write. -/
def relaySingleIo (security : VmessSecurity) (options : UInt8) : PollPolicy where
  checksRevocation := false
  watchesIdle := false
  chargesDownload := false
  refusalEndsBoth := false
  readErrorEndsBoth := false
  leavesEarly := true
  writesAll := !unframed security options

def relayTlsStream : PollPolicy where
  checksRevocation := true
  watchesIdle := true
  chargesDownload := true
  refusalEndsBoth := false
  readErrorEndsBoth := true
  leavesEarly := true
  writesAll := true

def relayPlainWebsocket : PollPolicy where
  checksRevocation := false
  watchesIdle := true
  chargesDownload := false
  refusalEndsBoth := true
  readErrorEndsBoth := true
  leavesEarly := false
  writesAll := true

/-- Where a relay stands in its loop. -/
inductive PollPhase where
  | head
  | upload
  | download
  | rest
  | ended (result : End Direction)

structure PollState where
  phase : PollPhase := .head
  uploadDone : Bool := false
  downloadDone : Bool := false
  progressed : Bool := false
  totals : Direction → Nat := fun _ => 0
  trace : List (RelayEvent Direction) := []

/-- What the relay meets at each of its places. -/
inductive PollInput where
  | head (revoked idle : Bool)
  | client (read : Read) (granted : Bool) (write : Write)
  | remote (read : Read) (granted : Bool) (write : Write)
  | rest (idle waitFailed : Bool)

namespace PollState

def emit (state : PollState) (events : List (RelayEvent Direction)) : PollState :=
  { state with trace := state.trace ++ events }

/-- The condition of the loop; at its end the totals are recorded. -/
def again (state : PollState) : PollState :=
  { state with
    phase := if state.uploadDone && state.downloadDone then
      .ended (.recorded state.totals) else .head }

def endBoth (state : PollState) : PollState :=
  { state with uploadDone := true, downloadDone := true }

def endUpload (both : Bool) (state : PollState) : PollState :=
  { state with
    uploadDone := true, downloadDone := state.downloadDone || both }

def endDownload (both : Bool) (state : PollState) : PollState :=
  { state with
    uploadDone := state.uploadDone || both, downloadDone := true }

def progress (state : PollState) : PollState :=
  { state with progressed := true }

/-- After the download: a turn without progress waits, if the relay watches
for idleness, or sleeps. -/
def toRest (policy : PollPolicy) (state : PollState) : PollState :=
  if state.progressed || !policy.watchesIdle then state.again
  else { state with phase := .rest }

def toDownload (policy : PollPolicy) (state : PollState) : PollState :=
  if state.downloadDone then state.toRest policy
  else { state with phase := .download }

def toUpload (policy : PollPolicy) (state : PollState) : PollState :=
  if state.uploadDone then { state with progressed := false }.toDownload policy
  else { state with phase := .upload, progressed := false }

def leave (state : PollState) : PollState :=
  { state with phase := .ended .lost }

def count (direction : Direction) (bytes : Nat) (state : PollState) :
    PollState :=
  { state with
    totals := Function.update state.totals direction
      (addUpTo u64Max (state.totals direction) bytes)
    progressed := true }

/-- A chunk that was read is charged, if there is a limiter to ask, and handed
to the writer. -/
def pass (charges : Bool) (direction : Direction) (bytes : Nat)
    (result : Write) (state : PollState) : PollState :=
  state.emit (chunkEvents charges direction bytes result)

end PollState

section Poll

variable (policy : PollPolicy) (held : Bool)

open PollState

/-- The place of the upload.  `held` says whether there is a limiter. -/
def pollUpload (state : PollState) (read : Read) (granted : Bool) (write : Write) : PollState :=
  match read with
  | .got 0 => (state.endUpload false).progress.toDownload policy
  | .got (more + 1) =>
    if held && !granted then
      ((state.emit [.waited .upload (more + 1) false]).endUpload policy.refusalEndsBoth).again
    else
      match write with
      | .failed =>
        let state := state.pass held .upload (more + 1) .failed
        if policy.leavesEarly then state.leave
        else state.endBoth.progress.toDownload policy
      | .all | .short _ =>
        ((state.pass held .upload (more + 1) .all).count .upload (more + 1)).toDownload policy
  | .blocked => state.toDownload policy
  | .failed => (state.endUpload policy.readErrorEndsBoth).progress.toDownload policy

def pollDownload (state : PollState) (read : Read) (granted : Bool) (write : Write) : PollState :=
  let charges := held && policy.chargesDownload
  match read with
  | .got 0 => (state.endDownload false).progress.toRest policy
  | .got (more + 1) =>
    if charges && !granted then
      (state.emit [.waited .download (more + 1) false]).endBoth.again
    else
      match write with
      | .failed =>
        let state := state.pass charges .download (more + 1) .failed
        if policy.leavesEarly then state.leave
        else state.endBoth.progress.toRest policy
      | .all =>
        ((state.pass charges .download (more + 1) .all).count .download (more + 1)).toRest policy
      | .short taken =>
        -- a writer that goes on ends up with all of it
        let result := if policy.writesAll then .all else .short taken
        ((state.pass charges .download (more + 1) result).count .download (more + 1)).toRest policy
  | .blocked => state.toRest policy
  | .failed => (state.endDownload policy.readErrorEndsBoth).progress.toRest policy

/-- The question at the start of a turn, when the answer is no. -/
def headEvents : List (RelayEvent Direction) :=
  if policy.checksRevocation && held then [.checked false] else []

def pollStep (state : PollState) (input : PollInput) : PollState :=
  match state.phase, input with
  | .head, .head revoked idle =>
    if policy.checksRevocation && held && revoked then
      let state := state.emit [.checked true]
      { state with phase := .ended (.recorded state.totals) }
    else
      let state := state.emit (headEvents policy held)
      if policy.watchesIdle && idle then state.endBoth.again
      else state.toUpload policy
  | .upload, .client read granted write => pollUpload policy held state read granted write
  | .download, .remote read granted write => pollDownload policy held state read granted write
  | .rest, .rest idle waitFailed =>
    if idle then state.endBoth.again
    else if waitFailed then
      if policy.leavesEarly then state.leave else state.endBoth.again
    else state.again
  | _, _ => state

def pollRun (inputs : List PollInput) : PollState :=
  Run.exec (pollStep policy held) {} inputs

namespace PollState

/-- Moving on changes neither the totals nor the trace, and never loses the
totals. -/
structure MovesOn (before after : PollState) : Prop where
  totals : after.totals = before.totals
  trace : after.trace = before.trace
  uploadDone : after.uploadDone = before.uploadDone
  place : after.phase = .upload → after.uploadDone = false
  ended : ∀ result, after.phase = .ended result → result = .recorded before.totals

theorem again_movesOn (state : PollState) : MovesOn state state.again where
  totals := rfl
  trace := rfl
  uploadDone := rfl
  place hplace := by
    rw [again] at hplace
    split at hplace <;> simp at hplace
  ended result hended := by
    rw [again] at hended
    split at hended
    · exact (PollPhase.ended.inj hended).symm
    · simp at hended

theorem toRest_movesOn (state : PollState) : MovesOn state (state.toRest policy) := by
  rw [toRest]
  split
  · exact again_movesOn state
  · exact ⟨rfl, rfl, rfl, by simp, by simp⟩

theorem toDownload_movesOn (state : PollState) : MovesOn state (state.toDownload policy) := by
  rw [toDownload]
  split
  · exact toRest_movesOn policy state
  · exact ⟨rfl, rfl, rfl, by simp, by simp⟩

theorem toUpload_movesOn (state : PollState) : MovesOn state (state.toUpload policy) := by
  rw [toUpload]
  split
  · have hmoves := toDownload_movesOn policy { state with progressed := false }
    exact ⟨hmoves.totals, hmoves.trace, hmoves.uploadDone, hmoves.place, hmoves.ended⟩
  next hdone => exact ⟨rfl, rfl, rfl, fun _ => by simpa using hdone, by simp⟩

end PollState

/-- The relay is at the place of a direction, a chunk has come, and the limiter
grants it if it is asked. -/
def Carries (state : PollState) (input : PollInput) (direction : Direction)
    (bytes : Nat) (charges : Bool) (write : Write) : Prop :=
  0 < bytes ∧
    match direction with
    | .upload => charges = held ∧ state.phase = .upload ∧
        ∃ granted, input = .client (.got bytes) granted write ∧ (charges = true → granted = true)
    | .download => charges = (held && policy.chargesDownload) ∧ state.phase = .download ∧
        ∃ granted, input = .remote (.got bytes) granted write ∧ (charges = true → granted = true)

/-- What a step does to the totals and the trace, and how it can end the
relay. -/
inductive PollEffect (state : PollState) (input : PollInput) (after : PollState) : Prop where
  /-- No chunk moves. -/
  | quiet (events : List (RelayEvent Direction)) (hevents : Quiet events)
      (htrace : after.trace = state.trace ++ events) (htot : after.totals = state.totals)
      (hended : ∀ result, after.phase = .ended result →
        state.phase = .ended result ∨ result = .recorded state.totals)
      (hreports : Reports events → after.uploadDone = true ∨ ∃ result, after.phase = .ended result)
  /-- A chunk goes through. -/
  | passed (direction : Direction) (bytes : Nat) (charges : Bool)
      (write result : Write) (hwrite : write ≠ .failed) (hres : result ≠ .failed)
      (hcarries : Carries policy held state input direction bytes charges write)
      (htrace : after.trace = state.trace ++ chunkEvents charges direction bytes result)
      (htot : after.totals = Function.update state.totals direction
        (addUpTo u64Max (state.totals direction) bytes))
      (hended : ∀ result, after.phase = .ended result → result = .recorded after.totals)
  /-- A chunk does not. -/
  | failed (direction : Direction) (bytes : Nat) (charges : Bool)
      (hcarries : Carries policy held state input direction bytes charges .failed)
      (htrace : after.trace = state.trace ++ chunkEvents charges direction bytes .failed)
      (htot : after.totals = state.totals) (hended : ∀ result, after.phase = .ended result →
        result = if policy.leavesEarly then .lost
          else .recorded state.totals)
      (hleaves : policy.leavesEarly = true → after.phase = .ended .lost)
  /-- The wait for the sockets fails. -/
  | gaveUp (hphase : state.phase = .rest) (hinput : input = .rest false true)
      (hleaves : policy.leavesEarly = true) (htrace : after.trace = state.trace)
      (htot : after.totals = state.totals) (hended : after.phase = .ended .lost)

/-- An effect, and that a finished upload stays finished. -/
structure PollTurn (state : PollState) (input : PollInput) (after : PollState) : Prop where
  effect : PollEffect policy held state input after
  done : state.uploadDone = true → after.uploadDone = true
  place : (state.phase = .upload → state.uploadDone = false) →
    after.phase = .upload → after.uploadDone = false

variable {between after state : PollState} {input : PollInput} {direction : Direction} {bytes : Nat}
  {charges : Bool}

theorem quiet_of_movesOn {events : List (RelayEvent Direction)}
    (hevents : Quiet events) (hmoves : MovesOn between after)
    (htrace : between.trace = state.trace ++ events) (htot : between.totals = state.totals)
    (hdone : state.uploadDone = true ∨ Reports events → between.uploadDone = true) :
    PollTurn policy held state input after where
  effect := .quiet events hevents (hmoves.trace.trans htrace) (hmoves.totals.trans htot)
    (fun result hended => .inr (htot ▸ hmoves.ended result hended))
    fun hreports => .inl (hmoves.uploadDone.trans (hdone (.inr hreports)))
  done hpre := hmoves.uploadDone.trans (hdone (.inl hpre))
  place _ := hmoves.place

theorem passed_of_movesOn {write result : Write}
    (hwrite : write ≠ .failed) (hres : result ≠ .failed)
    (hcarries : Carries policy held state input direction bytes charges write)
    (hmid : between = (state.pass charges direction bytes result).count direction bytes)
    (hmoves : MovesOn between after) : PollTurn policy held state input after := by
  subst hmid
  refine ⟨.passed direction bytes charges write result hwrite hres hcarries
    hmoves.trace hmoves.totals (fun last hended => ?_),
    fun hpre => hmoves.uploadDone.trans hpre, fun _ => hmoves.place⟩
  rw [hmoves.totals]
  exact hmoves.ended last hended

/-- A chunk whose write failed: the relay leaves at once, or both directions
end and the relay moves on. -/
theorem failed_of_movesOn
    (hcarries : Carries policy held state input direction bytes charges .failed) (hmoves : MovesOn
      (state.pass charges direction bytes .failed).endBoth.progress after) :
    PollTurn policy held state input (if policy.leavesEarly then
        (state.pass charges direction bytes .failed).leave else after) := by
  split
  next hleaves =>
    exact ⟨.failed direction bytes charges hcarries rfl rfl
      (by simp [leave, hleaves]) fun _ => rfl, id, by simp [leave]⟩
  next hleaves =>
    refine ⟨.failed direction bytes charges hcarries hmoves.trace
      hmoves.totals (fun result hended => ?_) fun htrue => absurd htrue hleaves,
      fun _ => hmoves.uploadDone, fun _ => hmoves.place⟩
    rw [if_neg hleaves]
    exact hmoves.ended result hended

theorem silent_of_movesOn (hmoves : MovesOn between after) (htrace : between.trace = state.trace)
    (htot : between.totals = state.totals)
    (hdone : state.uploadDone = true → between.uploadDone = true) :
    PollTurn policy held state input after := by
  refine quiet_of_movesOn policy held quiet_nil hmoves
    (htrace.trans (List.append_nil _).symm) htot fun hpre => ?_
  rcases hpre with hpre | hreports
  · exact hdone hpre
  · simp [Reports] at hreports

theorem pollUpload_turn (hphase : state.phase = .upload)
    (read : Read) (granted : Bool) (write : Write) :
    PollTurn policy held state (.client read granted write)
      (pollUpload policy held state read granted write) := by
  unfold pollUpload
  split
  case h_1 => exact silent_of_movesOn policy held (toDownload_movesOn policy _) rfl rfl fun _ => rfl
  case h_2 more =>
      split
      · exact quiet_of_movesOn policy held
          (quiet_refused .upload (more + 1)) (again_movesOn _) rfl rfl fun _ => rfl
      rename_i hgranted
      have hcarries : Carries policy held state
          (.client (.got (more + 1)) granted write) .upload (more + 1) held
          write := by
        refine ⟨Nat.succ_pos more, rfl, hphase, granted, rfl, fun hheld => ?_⟩
        simpa [hheld] using hgranted
      cases write with
      | all | short taken =>
        exact passed_of_movesOn policy held (by simp) (by simp) hcarries rfl
          (toDownload_movesOn policy _)
      | failed => exact failed_of_movesOn policy held hcarries (toDownload_movesOn policy _)
  case h_3 => exact silent_of_movesOn policy held (toDownload_movesOn policy _) rfl rfl id
  case h_4 => exact silent_of_movesOn policy held (toDownload_movesOn policy _) rfl rfl fun _ => rfl

theorem pollDownload_turn
    (hphase : state.phase = .download) (read : Read) (granted : Bool) (write : Write) :
    PollTurn policy held state (.remote read granted write)
      (pollDownload policy held state read granted write) := by
  unfold pollDownload
  dsimp only
  split
  case h_1 =>
      exact silent_of_movesOn policy held (toRest_movesOn policy _) rfl rfl
        fun hdone => by simp [endDownload, progress, hdone]
  case h_2 more =>
      split
      · exact quiet_of_movesOn policy held
          (quiet_refused .download (more + 1)) (again_movesOn _) rfl rfl fun _ => rfl
      rename_i hgranted
      have hcarries : Carries policy held state
          (.remote (.got (more + 1)) granted write) .download (more + 1)
          (held && policy.chargesDownload) write := by
        refine ⟨Nat.succ_pos more, rfl, hphase, granted, rfl, fun hcharge => ?_⟩
        simpa [hcharge] using hgranted
      cases write with
      | all =>
        exact passed_of_movesOn policy held (by simp) (by simp) hcarries rfl
          (toRest_movesOn policy _)
      | short taken =>
        refine passed_of_movesOn policy held (by simp) ?_ hcarries rfl (toRest_movesOn policy _)
        split <;> simp
      | failed => exact failed_of_movesOn policy held hcarries (toRest_movesOn policy _)
  case h_3 => exact silent_of_movesOn policy held (toRest_movesOn policy _) rfl rfl id
  case h_4 =>
      exact silent_of_movesOn policy held (toRest_movesOn policy _) rfl rfl
        fun hdone => by simp [endDownload, progress, hdone]

theorem pollStep_turn (state : PollState) (input : PollInput) :
    PollTurn policy held state input (pollStep policy held state input) := by
  unfold pollStep
  split
  case h_1 revoked idle hphase =>
      split
      · exact ⟨.quiet [.checked true] (quiet_checked true) rfl rfl
          (fun result hended => .inr (PollPhase.ended.inj hended).symm)
          fun _ => .inr ⟨_, rfl⟩, id, by simp⟩
      have hevents : Quiet (headEvents policy held) := by
        rw [headEvents]
        split
        · exact quiet_checked false
        · exact quiet_nil
      have hquiet : ¬ Reports (headEvents policy held) := by
        rw [headEvents]
        split <;> simp [Reports]
      split
      · exact quiet_of_movesOn policy held hevents (again_movesOn _) rfl rfl fun _ => rfl
      · exact quiet_of_movesOn policy held hevents (toUpload_movesOn policy _)
          rfl rfl fun hdone => hdone.resolve_right hquiet
  case h_2 read granted write hphase => exact pollUpload_turn policy held hphase read granted write
  case h_3 read granted write hphase =>
      exact pollDownload_turn policy held hphase read granted write
  case h_4 idle waitFailed hphase =>
      split
      · exact silent_of_movesOn policy held (again_movesOn _) rfl rfl fun _ => rfl
      rename_i hidle
      split
      next hwait =>
        split
        next hleaves =>
          refine ⟨.gaveUp hphase ?_ hleaves rfl rfl rfl, id, by simp [leave]⟩
          simp only [Bool.not_eq_true] at hidle
          rw [hidle, hwait]
        · exact silent_of_movesOn policy held (again_movesOn _) rfl rfl fun _ => rfl
      · exact silent_of_movesOn policy held (again_movesOn _) rfl rfl id
  case h_5 =>
      exact ⟨.quiet [] quiet_nil (List.append_nil _).symm rfl
        (fun _ hended => .inl hended) (by simp [Reports]), id, id⟩

end Poll

end KeliCore
