/-
What the destination of REALITY sees of a client that does not authenticate.
The first TLS record is read before the decision, and is handed to the
destination in front of everything else.
-/
import KeliCore.ProxyAuth

namespace KeliCore

open Sample

open List

namespace Reality

def maxTlsRecordLen : Nat := 64 * 1024

/-- The length of a record's payload, from its header. -/
def recordLen (header : List UInt8) : Nat :=
  (fromBeBytes (header.getD 3 0) (header.getD 4 0)).toNat

/-- `write_all_nonblocking` to a destination that stays: a write finds no room,
or takes at most so many bytes beyond the first one.  The bytes that are taken,
and those for which there were no writes yet. -/
def writeAllNonblocking : List (Option Nat) → List UInt8 → List UInt8 × List UInt8
  | _, [] => ([], [])
  | [], input => ([], input)
  | none :: writes, input => writeAllNonblocking writes input
  | some more :: writes, first :: rest =>
    let (taken, left) := writeAllNonblocking writes (rest.drop more)
    (first :: rest.take more ++ taken, left)

/-- What one turn of the loop of `fallback_to_dest` meets. -/
structure FallbackRound where
  /-- A read of the client returns, with at most this many bytes beyond the
  first one. -/
  clientRead : Option Nat
  destWrites : List (Option Nat)
  /-- A read of the destination returns bytes, and whether the client takes
  them. -/
  destReply : Option Bool
  /-- The client's end is five seconds ago. -/
  drained : Bool

/-- What the destination has received, and whether it has seen the end. -/
structure DestSide where
  received : List UInt8
  ended : Bool
deriving DecidableEq

structure FallbackState where
  /-- What the client sends and the destination has not got. -/
  unsent : List UInt8
  dest : DestSide
  /-- The loop is held by a write. -/
  writing : Bool := false
  uploadDone : Bool := false
  finished : Bool := false

namespace FallbackState

/-- The first half of a turn. -/
def upload (state : FallbackState) (round : FallbackRound) : FallbackState :=
  if state.uploadDone then state
  else
    match round.clientRead with
    | none => state
    | some more =>
      match state.unsent with
      | [] =>
        { state with
          uploadDone := true
          dest := { state.dest with ended := true } }
      | first :: rest =>
        let (taken, left) := writeAllNonblocking round.destWrites (first :: rest.take more)
        { state with
          unsent := left ++ rest.drop more
          dest := { state.dest with
            received := state.dest.received ++ taken }
          writing := !left.isEmpty }

/-- Both sockets are shut down behind the loop. -/
def finish (state : FallbackState) : FallbackState :=
  { state with finished := true, dest := { state.dest with ended := true } }

/-- The other half: the answer of the destination, and the drain. -/
def download (state : FallbackState) (round : FallbackRound) : FallbackState :=
  if state.writing then state
  else if round.destReply = some false then state.finish
  else if state.uploadDone && round.drained then state.finish
  else state

def turn (state : FallbackState) (round : FallbackRound) : FallbackState :=
  if state.finished || state.writing then state
  else (state.upload round).download round

end FallbackState

/-- The loop has come to the client's end, or to its own. -/
def Complete (state : FallbackState) : Prop :=
  state.uploadDone = true ∨ state.finished = true

/-- How a client's bytes arrive: pieces, each after a pause, and the end. -/
structure Arrival where
  pieces : List (Nat × List UInt8)
  endPause : Nat

def Arrival.stream (arrival : Arrival) : List UInt8 :=
  arrival.pieces.flatMap Prod.snd

theorem writeAllNonblocking_append (writes : List (Option Nat)) (input : List UInt8) :
    (writeAllNonblocking writes input).1 ++ (writeAllNonblocking writes input).2 = input := by
  induction writes generalizing input with
  | nil =>
    cases input with
    | nil | cons first rest => rfl
  | cons write writes ih =>
    cases input with
    | nil =>
      cases write with
      | none | some more => rfl
    | cons first rest =>
      cases write with
      | none => exact ih (first :: rest)
      | some more =>
        rw [writeAllNonblocking]
        dsimp only
        rw [cons_append, cons_append, append_assoc, ih (rest.drop more), take_append_drop]

/-- The destination has what the client has sent up to some byte, and has seen
the end only behind the last one, or behind the loop. -/
structure Accounted (stream : List UInt8) (state : FallbackState) : Prop where
  bytes : state.dest.received ++ state.unsent = stream
  done : state.uploadDone = true → state.unsent = []
  ended : state.dest.ended = (state.uploadDone || state.finished)
  held : state.writing = true → state.uploadDone = false ∧ state.finished = false

variable {state : FallbackState} {rounds : List FallbackRound}

theorem Accounted.upload {stream : List UInt8}
    (haccounted : Accounted stream state) (hfinished : state.finished = false)
    (hwriting : state.writing = false) (round : FallbackRound) :
    Accounted stream (state.upload round) ∧ (state.upload round).finished = false ∧
      ((state.upload round).writing = false → (state.upload round).unsent =
        state.unsent.drop ((round.clientRead.map (· + 1)).getD 0)) := by
  rw [FallbackState.upload]
  split
  next hdone =>
    refine ⟨haccounted, hfinished, fun _ => ?_⟩
    rw [haccounted.done hdone, drop_nil]
  next hdone =>
    rw [Bool.not_eq_true] at hdone
    cases round.clientRead with
    | none => exact ⟨haccounted, hfinished, fun _ => rfl⟩
    | some more =>
      cases hunsent : state.unsent with
      | nil =>
        refine ⟨⟨?_, fun _ => rfl, ?_, ?_⟩, hfinished, fun _ => ?_⟩
        · rw [← haccounted.bytes, hunsent]
        · rfl
        · intro hheld
          rw [hwriting] at hheld
          contradiction
        · rw [drop_nil]
      | cons first rest =>
        have hwrite := writeAllNonblocking_append round.destWrites (first :: rest.take more)
        dsimp only
        refine ⟨⟨?_, ?_, ?_, ?_⟩, hfinished, ?_⟩
        · rw [← haccounted.bytes, hunsent, append_assoc,
            ← append_assoc (writeAllNonblocking _ _).1, hwrite, cons_append, take_append_drop]
        · intro hboth
          rw [hdone] at hboth
          contradiction
        · exact haccounted.ended
        · exact fun _ => ⟨hdone, hfinished⟩
        · intro hempty
          rw [Bool.not_eq_false'] at hempty
          rw [isEmpty_iff.1 hempty]
          rfl

theorem Accounted.finish {stream : List UInt8}
    (haccounted : Accounted stream state) (hwriting : state.writing = false) :
    Accounted stream state.finish := by
  refine ⟨haccounted.bytes, haccounted.done, ?_, ?_⟩
  · simp [FallbackState.finish]
  · intro hheld
    exact absurd (hwriting.symm.trans hheld) (by decide)

theorem Accounted.turn {stream : List UInt8}
    (haccounted : Accounted stream state) (round : FallbackRound) :
    Accounted stream (state.turn round) := by
  rw [FallbackState.turn]
  split
  · exact haccounted
  next hgoing =>
    rw [Bool.or_eq_true, not_or, Bool.not_eq_true, Bool.not_eq_true] at hgoing
    have hupload := (haccounted.upload hgoing.1 hgoing.2 round).1
    rw [FallbackState.download]
    split
    · exact hupload
    next hwriting =>
      rw [Bool.not_eq_true] at hwriting
      split
      · exact hupload.finish hwriting
      · split
        · exact hupload.finish hwriting
        · exact hupload

end Reality

end KeliCore
