/-
What a delta does to the stores that all inbounds share, one uuid at a time.
The same uuids lose their sessions and their connections; limiters are revoked
and enabled again by different lists.
-/
import KeliCore.Limits

namespace KeliCore

open UserBandwidthLimiters Finmap List

theorem lookup_resetLimiter (limiters : HashMap String BandwidthLimiter)
    (user : CoreUser) (uuid : String) :
    (resetLimiter limiters user).lookup uuid = if uuid = user.uuid then
        (limiters.lookup uuid).map fun _ => enabledLimiter user
      else limiters.lookup uuid := by
  apply lookup_change
  · intro limiter hfound
    rw [resetLimiter, hfound]
  · intro hnone
    rw [resetLimiter, hnone]

theorem lookup_revokeLimiter (limiters : HashMap String BandwidthLimiter) (gone uuid : String) :
    (revokeLimiter limiters gone).lookup uuid =
      if uuid = gone then (limiters.lookup uuid).map revokedLimiter
      else limiters.lookup uuid := by
  apply lookup_change
  · intro limiter hfound
    rw [revokeLimiter, hfound]
  · intro hnone
    rw [revokeLimiter, hnone]

theorem lookup_foldl_revokeLimiter (uuids : List String)
    (limiters : HashMap String BandwidthLimiter) (uuid : String) :
    (uuids.foldl revokeLimiter limiters).lookup uuid =
      if uuid ∈ uuids then (limiters.lookup uuid).map revokedLimiter
      else limiters.lookup uuid := by
  induction uuids generalizing limiters with
  | nil => simp
  | cons gone rest ih =>
    rw [foldl_cons, ih, lookup_revokeLimiter]
    by_cases huuid : uuid = gone
    · simp only [huuid, if_true, mem_cons_self, Option.map_map]
      split <;> rfl
    · simp [huuid]

variable {uuid : String} {full : List CoreUser}

namespace UserBandwidthLimiters

variable (bandwidth : UserBandwidthLimiters)

theorem lookup_syncUsers_other {users : List CoreUser} (hother : uuid ∉ users.map CoreUser.uuid) :
    (bandwidth.syncUsers users).limiters.lookup uuid = bandwidth.limiters.lookup uuid := by
  unfold syncUsers
  generalize bandwidth.limiters = limiters
  induction users generalizing limiters with
  | nil => rfl
  | cons user rest ih =>
    rw [map_cons, mem_cons, not_or] at hother
    rw [foldl_cons, ih hother.2, lookup_resetLimiter, if_neg hother.1]

theorem lookup_syncUsers_none
    (hnone : bandwidth.limiters.lookup uuid = none) (users : List CoreUser) :
    (bandwidth.syncUsers users).limiters.lookup uuid = none := by
  unfold syncUsers
  generalize bandwidth.limiters = limiters at hnone
  induction users generalizing limiters with
  | nil => exact hnone
  | cons user rest ih =>
    rw [foldl_cons]
    apply ih
    rw [lookup_resetLimiter, hnone]
    split <;> rfl

end UserBandwidthLimiters

/-- The delta drops what is kept under this uuid: a snapshot everything it does
not list, the lists what they delete or update. -/
def Sweeps (delta : CoreUserDelta) (uuid : String) : Prop :=
  match delta.full with
  | some full => uuid ∉ full.map CoreUser.uuid
  | none => uuid ∈ delta.deleted ∨ uuid ∈ delta.updated.map CoreUser.uuid

instance (delta : CoreUserDelta) (uuid : String) : Decidable (Sweeps delta uuid) := by
  unfold Sweeps
  split <;> infer_instance

theorem sweeps_full {delta : CoreUserDelta} (hfull : delta.full = some full) (uuid : String) :
    Sweeps delta uuid ↔ uuid ∉ full.map CoreUser.uuid := by rw [Sweeps, hfull]

theorem sweeps_lists {delta : CoreUserDelta} (hfull : delta.full = none) (uuid : String) :
    Sweeps delta uuid ↔ uuid ∈ delta.deleted ∨ uuid ∈ delta.updated.map CoreUser.uuid := by
  rw [Sweeps, hfull]

def closed (connection : Connection) : Connection :=
  { connection with isOpen := false }

theorem closeExcept_eq (connections : List Connection) (activeUuids : List String) :
    closeExcept connections activeUuids = connections.map fun connection =>
      if connection.key ∉ activeUuids then closed connection
      else connection := by
  apply map_congr_left
  intro connection hmem
  have hfiled : connection.key ∈ (connections.map Connection.key).filter
      (· ∉ activeUuids) ↔ connection.key ∉ activeUuids := by
    rw [mem_filter, decide_eq_true_eq]
    exact and_iff_right (mem_map_of_mem hmem)
  simp only [hfiled]
  rfl

section Delta

variable (bandwidth : UserBandwidthLimiters) (sessions : UserSessionTracker)
    (delta : CoreUserDelta)

theorem connections_delta : (syncUserLimitDelta bandwidth sessions delta).1.connections =
      bandwidth.connections.map fun connection =>
        if Sweeps delta connection.key then closed connection
        else connection := by
  cases hfull : delta.full with
  | some full =>
    simp only [syncUserLimitDelta, sweeps_full hfull, hfull]
    exact closeExcept_eq _ _
  | none =>
    simp only [syncUserLimitDelta, sweeps_lists hfull, hfull]
    change closeUsers (closeUsers bandwidth.connections _) _ = _
    rw [closeUsers, closeUsers, map_map]
    apply map_congr_left
    intro connection _
    by_cases hdeleted : connection.key ∈ delta.deleted
    · simp [hdeleted, closed]
    · simp only [Function.comp, hdeleted, if_false, false_or]
      rfl

theorem sessions_delta (uuid : String) :
    (syncUserLimitDelta bandwidth sessions delta).2.active.lookup uuid =
      if Sweeps delta uuid then none
      else sessions.active.lookup uuid := by
  cases hfull : delta.full with
  | some full =>
    simp only [syncUserLimitDelta, sweeps_full hfull, hfull]
    change (sessions.active.retain _).lookup uuid = _
    rw [lookup_retain]
    by_cases hlisted : uuid ∈ full.map CoreUser.uuid
    · rw [if_neg (not_not.2 hlisted)]
      cases sessions.active.lookup uuid <;> simp [hlisted]
    · rw [if_pos hlisted]
      cases sessions.active.lookup uuid <;> simp [hlisted]
  | none =>
    simp only [syncUserLimitDelta, sweeps_lists hfull, hfull]
    change ((sessions.active.eraseAll _).eraseAll _).lookup uuid = _
    rw [lookup_eraseAll, lookup_eraseAll]
    by_cases hupdated : uuid ∈ delta.updated.map CoreUser.uuid <;> simp [hupdated]

theorem limiters_full (hfull : delta.full = some full) (hmissing : uuid ∉ full.map CoreUser.uuid) :
    (syncUserLimitDelta bandwidth sessions delta).1.limiters.lookup uuid =
      (bandwidth.limiters.lookup uuid).map revokedLimiter := by
  unfold syncUserLimitDelta
  rw [hfull]
  change (syncUsers _ full).limiters.lookup uuid = _
  rw [lookup_syncUsers_other _ hmissing, lookup_mapValues]
  simp only [hmissing, if_false]

/-- The lists revoke the limiters of deleted users that they do not name
otherwise. -/
theorem limiters_lists (hfull : delta.full = none)
    (hunnamed : uuid ∉ (delta.added ++ delta.updated).map CoreUser.uuid) :
    (syncUserLimitDelta bandwidth sessions delta).1.limiters.lookup uuid =
      if uuid ∈ delta.deleted then (bandwidth.limiters.lookup uuid).map revokedLimiter
      else bandwidth.limiters.lookup uuid := by
  rw [map_append, mem_append, not_or] at hunnamed
  unfold syncUserLimitDelta
  rw [hfull]
  change (syncUsers (.syncUsers _ _) _).limiters.lookup uuid = _
  rw [lookup_syncUsers_other _ hunnamed.2, lookup_syncUsers_other _ hunnamed.1]
  exact lookup_foldl_revokeLimiter _ _ _

theorem limiters_none (hnone : bandwidth.limiters.lookup uuid = none) :
    (syncUserLimitDelta bandwidth sessions delta).1.limiters.lookup uuid = none := by
  unfold syncUserLimitDelta
  split
  · apply lookup_syncUsers_none
    rw [lookup_mapValues, hnone]
    rfl
  · apply lookup_syncUsers_none
    apply lookup_syncUsers_none
    refine (lookup_foldl_revokeLimiter _ _ _).trans ?_
    change (if _ then (bandwidth.limiters.lookup uuid).map _
      else bandwidth.limiters.lookup uuid) = none
    rw [hnone]
    split <;> rfl

end Delta

end KeliCore
