/-
A cache that remembers for a fixed time what it was shown, against a record
that never forgets.  A key shown again is accepted a second time exactly if the
cache has forgotten it, which is a matter of how far apart the showings are.
-/
import KeliCore.HashMap
import KeliCore.Run

universe u

namespace Retention

open Finmap

variable {κ : Type u} [DecidableEq κ]

/-- Time passes, and a key may be shown. -/
structure Showing (κ : Type u) where
  elapsed : Nat
  key : Option κ

/-- The cache with the time, and the keys that were accepted. -/
structure State (κ : Type u) where
  cache : HashMap κ Nat := ∅
  now : Nat := 0
  accepted : List κ := []

/-- When each key was last shown. -/
structure Record (κ : Type u) where
  seen : HashMap κ Nat := ∅
  now : Nat := 0

/-- What the cache keeps at a time. -/
def kept (ttl now : Nat) (cache : HashMap κ Nat) : HashMap κ Nat :=
  cache.retain fun _ seenAt => now - seenAt ≤ ttl

/-- A key that is not in the cache is accepted; in any case it is remembered
as shown now. -/
def State.step (ttl : Nat) (state : State κ) (showing : Showing κ) : State κ :=
  let now := state.now + showing.elapsed
  match showing.key with
  | none => { state with now }
  | some key =>
    { cache := (kept ttl now state.cache).insert key now
      now
      accepted :=
        match (kept ttl now state.cache).lookup key with
        | some _ => state.accepted
        | none => key :: state.accepted }

def Record.step (record : Record κ) (showing : Showing κ) : Record κ :=
  let now := record.now + showing.elapsed
  match showing.key with
  | none => { record with now }
  | some key => { seen := record.seen.insert key now, now }

/-- A key that was shown before is shown again within the time. -/
def InTime (ttl : Nat) (record : Record κ) (showing : Showing κ) : Prop :=
  ∀ key ∈ showing.key, ∀ seenAt ∈ record.seen.lookup key,
    record.now + showing.elapsed - seenAt ≤ ttl

/-- The cache holds what the record holds, but for what is too old, and every
recorded key was accepted once. -/
structure Follows (ttl : Nat) (state : State κ) (record : Record κ) : Prop where
  now : state.now = record.now
  within : ∀ key seenAt, state.cache.lookup key = some seenAt → record.seen.lookup key = some seenAt
  missing : ∀ key seenAt, record.seen.lookup key = some seenAt →
    state.cache.lookup key = none → ttl < record.now - seenAt
  accepted : ∀ key, key ∈ state.accepted ↔ key ∈ record.seen
  nodup : state.accepted.Nodup

variable {state : State κ} {record : Record κ} {ttl : Nat} {showing : Showing κ}

section

variable (hfollows : Follows ttl state record)

include hfollows

theorem Follows.lookup_kept (elapsed : Nat) (key : κ) :
    (kept ttl (record.now + elapsed) state.cache).lookup key =
      (record.seen.lookup key).filter fun seenAt => record.now + elapsed - seenAt ≤ ttl := by
  rw [kept, lookup_retain]
  cases hcache : state.cache.lookup key with
  | some seenAt => rw [hfollows.within key seenAt hcache]
  | none =>
    cases hseen : record.seen.lookup key with
    | none => rfl
    | some seenAt =>
      have hold := hfollows.missing key seenAt hseen hcache
      have hlate : ¬ record.now + elapsed - seenAt ≤ ttl := by omega
      rw [Option.filter_some, if_neg (by simpa using hlate)]
      rfl

theorem Follows.pass (hkey : showing.key = none) :
    Follows ttl (state.step ttl showing) (record.step showing) := by
  simp only [State.step, Record.step, hkey]
  refine ⟨by rw [hfollows.now], hfollows.within, ?_, hfollows.accepted, hfollows.nodup⟩
  intro key seenAt hseen hcache
  have hold := hfollows.missing key seenAt hseen hcache
  dsimp only
  omega

theorem Follows.shown {key : κ}
    (hkey : showing.key = some key) (hintime : InTime ttl record showing) :
    Follows ttl (state.step ttl showing) (record.step showing) := by
  have hget := hfollows.lookup_kept showing.elapsed
  have hown : (kept ttl (record.now + showing.elapsed) state.cache).lookup key =
      record.seen.lookup key := by
    rw [hget]
    cases hseen : record.seen.lookup key with
    | none => rfl
    | some seenAt => simpa using hintime key hkey seenAt hseen
  simp only [State.step, Record.step, hkey, hfollows.now]
  refine ⟨rfl, ?_, ?_, ?_, ?_⟩
  · intro other seenAt hcache
    rw [lookup_insert_ite] at hcache ⊢
    split at hcache
    next heq =>
      rw [if_pos heq]
      exact hcache
    next hne =>
      rw [if_neg hne]
      rw [hget] at hcache
      exact (Option.filter_eq_some_iff.1 hcache).1
  · intro other seenAt hseen hcache
    rw [lookup_insert_ite] at hseen hcache
    split at hcache
    · simp at hcache
    next hne =>
      rw [if_neg hne] at hseen
      rw [hget, hseen, Option.filter_some] at hcache
      split at hcache
      · simp at hcache
      next hlate => simpa only [decide_eq_true_eq, Nat.not_le] using hlate
  · intro other
    rw [hown, mem_insert]
    cases hseen : record.seen.lookup key with
    | none => simp [hfollows.accepted]
    | some seenAt =>
      have hmem : key ∈ record.seen := mem_of_lookup_eq_some hseen
      rw [hfollows.accepted]
      constructor
      · exact .inr
      · rintro (rfl | hother)
        · exact hmem
        · exact hother
  · rw [hown]
    cases hseen : record.seen.lookup key with
    | none =>
      refine List.nodup_cons.2 ⟨?_, hfollows.nodup⟩
      rw [hfollows.accepted, ← lookup_eq_none]
      exact hseen
    | some seenAt => exact hfollows.nodup

theorem Follows.accepts_again (hlate : ¬ InTime ttl record showing) :
    ¬ (state.step ttl showing).accepted.Nodup := by
  simp only [InTime, Option.mem_def, not_forall] at hlate
  obtain ⟨key, hkey, seenAt, hseen, hold⟩ := hlate
  have hgone : (kept ttl (record.now + showing.elapsed) state.cache).lookup key = none := by
    rw [hfollows.lookup_kept, hseen]
    simpa using hold
  simp only [State.step, hkey, hfollows.now, hgone]
  rw [List.nodup_cons, hfollows.accepted]
  exact fun h => h.1 (mem_of_lookup_eq_some hseen)

end

theorem accepted_nodup_of_step (hnodup : (state.step ttl showing).accepted.Nodup) :
    state.accepted.Nodup := by
  unfold State.step at hnodup
  split at hnodup
  · exact hnodup
  · dsimp only at hnodup
    split at hnodup
    · exact hnodup
    · exact (List.nodup_cons.1 hnodup).2

/-- No key is accepted twice exactly if every key is shown again in time. -/
theorem accepted_nodup_iff (ttl : Nat) (showings : List (Showing κ)) :
    (Run.exec (State.step ttl) {} showings).accepted.Nodup ↔
      Run.Meets Record.step (InTime ttl) {} showings := by
  have hstart : Follows ttl ({} : State κ) {} :=
    ⟨rfl, by simp, by simp, by simp [notMem_empty], List.nodup_nil⟩
  rcases @Run.exec_kept_or_broken _ _ (State.step ttl) _ Record.step
    (InTime ttl) (Follows ttl) (fun state _ => ¬ state.accepted.Nodup)
    (fun _ _ showing hfollows hintime => by
      cases hkey : showing.key with
      | none => exact hfollows.pass hkey
      | some key => exact hfollows.shown hkey hintime)
    (fun _ _ _ hfollows hlate => hfollows.accepts_again hlate)
    (fun _ _ _ htwice hnodup => htwice (accepted_nodup_of_step hnodup))
    _ _ hstart showings with ⟨hmeets, hfollows⟩ | ⟨hmeets, htwice⟩
  · exact ⟨fun _ => hmeets, fun _ => hfollows.nodup⟩
  · exact ⟨fun hnodup => absurd hnodup htwice, fun h => absurd h hmeets⟩

end Retention
