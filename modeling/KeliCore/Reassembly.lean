/-
Messages that arrive in numbered parts.  Parts of one message share a key; they
wait in a group of slots until every slot is filled, and a part that contradicts
its group takes the group away.
-/
import KeliCore.HashMap

universe u v w

namespace Reassembly

variable {κ : Type u} {τ : Type v} {α : Type w}

structure Limits where
  maxGroups : Nat
  maxBytes : Nat
  /-- how long a group may wait for its last part -/
  idle : Nat

/-- How the addresses of a message's parts become the message's address. -/
structure Joining (τ : Type v) where
  /-- the address of a new group, given its first part's -/
  initial : τ → τ
  /-- a group's address with one more part's, if they agree -/
  join : τ → τ → Option τ
  /-- a message can have this address -/
  known : τ → Bool

inductive Fault where
  | badIndex
  | tooManyGroups
  | otherCount
  | otherTarget
  | tooLarge

structure Part (κ : Type u) (τ : Type v) (α : Type w) where
  key : κ
  index : Nat
  count : Nat
  target : τ
  bytes : List α

/-- The only part of its message. -/
def Part.isWhole (part : Part κ τ α) : Bool :=
  part.count == 1 && part.index == 0

structure Group (τ : Type v) (α : Type w) where
  target : τ
  parts : List (Option (List α))
  created : Nat
  receivedBytes : Nat
  receivedParts : Nat

abbrev Store (κ : Type u) (τ : Type v) (α : Type w) := HashMap κ (Group τ α)

namespace Group

def empty (target : τ) (count now : Nat) : Group τ α where
  target
  parts := List.replicate count none
  created := now
  receivedBytes := 0
  receivedParts := 0

def put (limits : Limits) (group : Group τ α) (target : τ) (index : Nat)
    (bytes : List α) : Except Fault (Group τ α) :=
  let previous := (group.parts[index]?).getD none
  let receivedBytes := group.receivedBytes - (previous.getD []).length
  let receivedParts := group.receivedParts - previous.toList.length
  if limits.maxBytes < receivedBytes + bytes.length then .error .tooLarge
  else
    .ok { group with
      target
      parts := group.parts.set index (some bytes)
      receivedBytes := receivedBytes + bytes.length
      receivedParts := receivedParts + 1 }

/-- Add a part, unless it contradicts the group. -/
def add (limits : Limits) (joining : Joining τ) (group : Group τ α)
    (part : Part κ τ α) : Except Fault (Group τ α) :=
  if group.parts.length ≠ part.count then .error .otherCount
  else
    match joining.join group.target part.target with
    | none => .error .otherTarget
    | some target => group.put limits target part.index part.bytes

theorem receivedParts_of_first {limits : Limits} {joining : Joining τ}
    {part : Part κ τ α} {first group : Group τ α} (hfirst : first.receivedParts = 0)
    (hadd : first.add limits joining part = .ok group) : group.receivedParts = 1 := by
  rw [add] at hadd
  split at hadd
  · contradiction
  split at hadd
  · contradiction
  rw [put] at hadd
  split at hadd
  · contradiction
  · rw [← Except.ok.inj hadd]
    dsimp only
    omega

/-- The message of a group whose slots are filled. -/
def message (group : Group τ α) (key : κ) : Part κ τ α where
  key
  index := 0
  count := 1
  target := group.target
  bytes := group.parts.flatMap fun part => part.getD []

end Group

namespace Store

variable [DecidableEq κ]

/-- Forget the groups that have waited too long. -/
def pruneExpired (limits : Limits) (store : Store κ τ α) (now : Nat) : Store κ τ α :=
  store.retain fun _ group => now - group.created < limits.idle

/-- Take a part: the message, if this part completes one. -/
def push (limits : Limits) (joining : Joining τ) (store : Store κ τ α)
    (now : Nat) (part : Part κ τ α) : Store κ τ α × Except Fault (Option (Part κ τ α)) :=
  if part.count = 0 ∨ part.count ≤ part.index then (store, .error .badIndex)
  else if part.isWhole then (store, .ok (some part))
  else
    let store := pruneExpired limits store now
    if store.lookup part.key = none ∧ limits.maxGroups ≤ store.len then
      (store, .error .tooManyGroups)
    else
      let group := (store.lookup part.key).getD
        (.empty (joining.initial part.target) part.count now)
      match group.add limits joining part with
      | .error fault => (store.erase part.key, .error fault)
      | .ok group =>
        if group.receivedParts ≠ part.count ∨ !joining.known group.target then
          (store.insert part.key group, .ok none)
        else (store.erase part.key, .ok (some (group.message part.key)))

variable {limits : Limits} {joining : Joining τ} {store : Store κ τ α} {now : Nat}
  {part message : Part κ τ α}

theorem push_whole (hwhole : part.isWhole = true) :
    push limits joining store now part = (store, .ok (some part)) := by
  have hcount : part.count = 1 ∧ part.index = 0 := by simpa [Part.isWhole] using hwhole
  rw [push, if_neg (by omega), if_pos hwhole]

theorem group_of_push (hpart : part.isWhole = false) {after : Store κ τ α}
    (hpush : push limits joining store now part = (after, .ok (some message))) :
    store.lookup part.key ≠ none ∧ after.lookup part.key = none := by
  rw [push] at hpush
  split at hpush
  · simp at hpush
  rename_i hindex
  rw [if_neg (by simp [hpart])] at hpush
  dsimp only at hpush
  split at hpush
  · simp at hpush
  split at hpush
  · simp at hpush
  rename_i group hadd
  split at hpush
  · simp at hpush
  rename_i hcomplete
  cases hpush
  refine ⟨fun habsent => ?_, by rw [Finmap.lookup_erase_ite, if_pos rfl]⟩
  -- a new group has one part, and the message has more
  have hnew : (pruneExpired limits store now).lookup part.key = none := by
    rw [pruneExpired, Finmap.lookup_retain, habsent]
    rfl
  rw [hnew] at hadd
  have hfirst : group.receivedParts = 1 := Group.receivedParts_of_first rfl hadd
  have hmany : part.count ≠ 1 := by
    intro hone
    have hzero : part.index = 0 := by omega
    simp [Part.isWhole, hone, hzero] at hpart
  exact hcomplete (.inl (by omega))

end Store

end Reassembly
