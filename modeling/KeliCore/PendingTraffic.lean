/-
The traffic counters of a UDP session in Hysteria2.  Any number of tasks add to
them and flush them; a flush takes one counter, then the other, and hands both
amounts to the registry.
-/
import KeliCore.Run
import KeliCore.Traffic
import Mathlib.Algebra.GroupWithZero.Nat

namespace KeliCore

open Run

/-- How far a call of `flush_traffic` has got, and what it has taken. -/
inductive PendingFlush where
  | started
  | tookUpload (upload : UInt64)
  | tookBoth (upload download : UInt64)
deriving DecidableEq

def PendingFlush.taken : PendingFlush → Direction → Nat
  | .tookUpload upload, .upload | .tookBoth upload _, .upload => upload.toNat
  | .tookBoth _ download, .download => download.toNat
  | _, _ => 0

inductive PendingEvent where
  /-- `add_upload` or `add_download`, up to the flush -/
  | add (direction : Direction) (bytes : UInt64)
  /-- `close`, or a task that flushes -/
  | flush
  | advance (flush : PendingFlush)

/-- The counters, the flushes under way, and what was recorded and added. -/
structure PendingTraffic where
  pending : Direction → UInt64 := fun _ => 0
  flushes : List PendingFlush := []
  recorded : Direction → Nat := fun _ => 0
  added : Direction → Nat := fun _ => 0

namespace PendingTraffic

variable (session : PendingTraffic)

def record (upload download : UInt64) : PendingTraffic :=
  { session with
    recorded := fun direction =>
      if upload = 0 ∧ download = 0 then session.recorded direction
      else session.recorded direction + (PendingFlush.tookBoth upload download).taken direction }

def begin : PendingTraffic :=
  { session with flushes := .started :: session.flushes }

/-- The addition of `add_pending`; it wraps. -/
def count (direction : Direction) (bytes : UInt64) : PendingTraffic :=
  { session with
    pending := Function.update session.pending direction (session.pending direction + bytes)
    added := Function.update session.added direction (session.added direction + bytes.toNat) }

def addPending (direction : Direction) (bytes : UInt64) : PendingTraffic :=
  if bytes = 0 then session
  else if 64 * 1024 ≤ saturatingAdd (session.pending direction) bytes then
    (session.count direction bytes).begin
  else session.count direction bytes

/-- The next access of a flush. -/
def flushTraffic : PendingFlush → PendingTraffic
  | .started =>
    { session with
      pending := Function.update session.pending .upload 0
      flushes := .tookUpload (session.pending .upload) :: session.flushes }
  | .tookUpload upload =>
    { session with
      pending := Function.update session.pending .download 0
      flushes := .tookBoth upload (session.pending .download) :: session.flushes }
  | .tookBoth upload download => session.record upload download

def step : PendingEvent → PendingTraffic
  | .add direction bytes => session.addPending direction bytes
  | .flush => session.begin
  | .advance flush =>
    if flush ∈ session.flushes then
      { session with flushes := session.flushes.erase flush }.flushTraffic flush
    else session

/-- `drop` runs once, when no task has the session any more: its flush is not
interrupted. -/
def drop : PendingTraffic :=
  session.record (session.pending .upload) (session.pending .download)

/-- What the flushes under way have taken. -/
def taken (direction : Direction) : Nat :=
  (session.flushes.map fun flush => flush.taken direction).sum

/-- Every byte is recorded, in a flush, or pending. -/
def Kept : Prop :=
  ∀ direction, session.recorded direction + session.taken direction +
    (session.pending direction).toNat = session.added direction

/-- An addition that the counter can hold. -/
def Fits (session : PendingTraffic) : PendingEvent → Prop
  | .add direction bytes => (session.pending direction).toNat + bytes.toNat < 2 ^ 64
  | _ => True

instance (session : PendingTraffic) (event : PendingEvent) : Decidable (session.Fits event) :=
  match event with
  | .add _ _ => inferInstanceAs (Decidable (_ < _))
  | .flush | .advance _ => isTrue trivial

variable {session : PendingTraffic} {flush : PendingFlush}

theorem recorded_record (upload download : UInt64) (direction : Direction) :
    (session.record upload download).recorded direction =
      session.recorded direction + (PendingFlush.tookBoth upload download).taken direction := by
  rw [record]
  split
  next hnothing =>
    cases direction <;> simp [PendingFlush.taken, hnothing]
  · rfl

theorem Kept.begin (hkept : session.Kept) : session.begin.Kept := by
  intro direction
  simpa [PendingTraffic.begin, taken, PendingFlush.taken] using hkept direction

theorem Kept.count {direction : Direction} {bytes : UInt64} (hkept : session.Kept)
    (hfits : session.Fits (.add direction bytes)) : (session.count direction bytes).Kept := by
  intro other
  have hpre := hkept other
  by_cases hother : other = direction
  · subst hother
    have hsum : (session.pending other + bytes).toNat =
        (session.pending other).toNat + bytes.toNat := by
      rw [UInt64.toNat_add, Nat.mod_eq_of_lt hfits]
    simp only [PendingTraffic.count, taken, Function.update_self, hsum] at hpre ⊢
    omega
  · simpa [PendingTraffic.count, taken, hother] using hpre

theorem Kept.flushTraffic (hkept : session.Kept) (hmem : flush ∈ session.flushes) :
    ({ session with flushes := session.flushes.erase flush }.flushTraffic flush).Kept := by
  intro direction
  have hsum := ((List.perm_cons_erase hmem).map fun flush => flush.taken direction).sum_eq
  rw [List.map_cons, List.sum_cons] at hsum
  have hpre := hkept direction
  cases flush with
  | started | tookUpload upload =>
    cases direction <;>
      simp [PendingTraffic.flushTraffic, taken, PendingFlush.taken] at hpre hsum ⊢ <;> omega
  | tookBoth upload download =>
    rw [PendingTraffic.flushTraffic, recorded_record]
    simp only [record, taken] at hpre ⊢
    omega

theorem Kept.step {event : PendingEvent} (hkept : session.Kept) (hfits : session.Fits event) :
    (session.step event).Kept := by
  cases event with
  | add direction bytes =>
    rw [PendingTraffic.step, addPending]
    repeat' split
    · exact hkept
    · exact (hkept.count hfits).begin
    · exact hkept.count hfits
  | flush => exact hkept.begin
  | advance flush =>
    rw [PendingTraffic.step]
    split
    · exact hkept.flushTraffic ‹_›
    · exact hkept

namespace Sample

end Sample

open PendingTraffic.Sample

end PendingTraffic

end KeliCore
