/-
What a delta does to the users of a keyed table and to their credentials.
-/
import KeliCore.KeyedMaps
import KeliCore.KeyedStore

namespace KeliCore

open Finmap List

/-- The three ways to apply an incremental delta, each with the deltas for
which it ends with the table by uuid. -/
theorem keyed_delta_endsWith_iff (delta : CoreUserDelta) :
    (∀ (κ : Type) [DecidableEq κ] (order : HashOrder κ CoreUser)
      (key : CoreUser → Option κ) (filed : HashMap κ CoreUser),
      delta.full = none → OneEntryPerUuid filed →
      (Assignment.applyLists key (.ofTable order filed) delta).1.DistinctPlaces →
      (EndsWith (applyUserDeltaToKeyedMap order key filed delta)
          (Assignment.applyLists key (.ofTable order filed) delta) ↔
        KeyLedger.KeysLastTaken key (.ofTable order filed) delta.changes) ∧
      (EndsWith (applyUserDeltaToKeyedArcMap order key filed delta)
          (Assignment.applyLists key (.ofTable order filed) delta) ↔
        KeyLedger.KeysLastTaken key (.ofTable order filed) delta.changes)) ∧
    (∀ (order : UserOrder) (key : CoreUser → String)
      (filed : HashMap String CoreUser), delta.full = none → OneEntryPerUuid filed →
      (Assignment.applyLists (fun user => some (key user))
        (.ofTable order filed) delta).1.DistinctPlaces →
      (EndsWith (applyKeyedDelta order key filed delta)
          (Assignment.applyLists (fun user => some (key user)) (.ofTable order filed) delta) ↔
        Assignment.KeysTakenFree (fun user => some (key user))
          (.ofTable order filed) delta.changes)) := by
  constructor
  · intro κ _ order key filed hfull hone hplaces
    have hmap := applyUserDeltaToKeyedArcMap_endsWith_iff order hone hfull hplaces
    exact ⟨hmap, hmap⟩
  · intro order key filed hfull hone _
    exact applyKeyedDelta_endsWith_iff order key hone hfull

def Sample.alice (password : String) : CoreUser :=
  { uuid := "alice", password := some password }

def Sample.bob (password : String) : CoreUser :=
  { uuid := "bob", password := some password }

def Sample.passwords : HashMap String CoreUser :=
  .collect [("1", alice "1"), ("2", bob "2")]

/-- Alice moves to a new password before Bob takes the old one. -/
def Sample.reuse : CoreUserDelta := { updated := [alice "3", bob "1"] }

def Sample.swap : CoreUserDelta := { updated := [alice "2", bob "1"] }

/-- The users by uuid after a delta on `passwords`. -/
def Sample.wanted (delta : CoreUserDelta) : Progress (Assignment String) :=
  Assignment.applyLists (fun user => some user.credential)
    (.ofTable Finmap.sortedOrder passwords) delta

open Sample

theorem keyed_delta_endsWith_reuse : EndsWith (applyUserDeltaToKeyedMap Finmap.sortedOrder
        (fun user => some user.credential) passwords reuse)
        (wanted reuse) ∧ EndsWith (applyUserDeltaToKeyedArcMap Finmap.sortedOrder
        (fun user => some user.credential) passwords reuse)
        (wanted reuse) ∧
      EndsWith (applyKeyedDelta Finmap.sortedOrder CoreUser.credential
        passwords reuse) (wanted reuse) := by
  have hone : OneEntryPerUuid passwords := by decide +kernel
  have hplaces : (wanted reuse).1.DistinctPlaces := by decide +kernel
  have hmaps := (keyed_delta_endsWith_iff reuse).1 String
    sortedOrder (fun user => some user.credential) passwords rfl hone hplaces
  have hstore := (keyed_delta_endsWith_iff reuse).2 sortedOrder
    CoreUser.credential passwords rfl hone hplaces
  exact ⟨hmaps.1.2 (by decide +kernel), hmaps.2.2 (by decide +kernel), hstore.2 (by decide +kernel)⟩

/-- After the swap one of the two users is gone: Bob from the store, Alice
from the maps. -/
theorem swapped_passwords_lose_user : swap.full = none ∧ OneEntryPerUuid passwords ∧
      (wanted swap).1.DistinctPlaces ∧
      ¬ EndsWith (applyUserDeltaToKeyedMap Finmap.sortedOrder
        (fun user => some user.credential) passwords swap)
        (wanted swap) ∧ ¬ EndsWith (applyUserDeltaToKeyedArcMap Finmap.sortedOrder
        (fun user => some user.credential) passwords swap)
        (wanted swap) ∧
      ¬ EndsWith (applyKeyedDelta Finmap.sortedOrder CoreUser.credential
        passwords swap) (wanted swap) := by
  have hone : OneEntryPerUuid passwords := by decide +kernel
  have hplaces : (wanted swap).1.DistinctPlaces := by decide +kernel
  have hmap := (applyUserDeltaToKeyedArcMap_endsWith_iff sortedOrder
    hone rfl hplaces).not.2 (by decide +kernel)
  exact ⟨rfl, hone, hplaces, hmap, hmap,
    (applyKeyedDelta_endsWith_iff sortedOrder CoreUser.credential hone
      rfl).not.2 (by decide +kernel)⟩

section Runs

variable {κ : Type} {key : CoreUser → Option κ}

/-- A full snapshot gives each uuid one key. -/
def OneKeyPerUuid (key : CoreUser → Option κ) (delta : CoreUserDelta) : Prop :=
  ∀ full, delta.full = some full → ∀ first ∈ full, ∀ second ∈ full, first.isEmpty = false →
      second.isEmpty = false → first.uuid = second.uuid →
        (key first).isSome = true → (key second).isSome = true → key first = key second

/-- The delta leaves the uuid out of a full snapshot, or deletes it. -/
def Removes (key : CoreUser → Option κ) (delta : CoreUserDelta) (uuid : String) : Prop :=
  match delta.full with
  | some full => Assignment.lastTaken key uuid full = none
  | none => uuid ∈ delta.deleted

def Rekeys (key : CoreUser → Option κ) (delta : CoreUserDelta) (uuid : String) (old : κ) : Prop :=
  ∃ listed, Assignment.lastTaken key uuid
      (delta.full.getD (delta.added ++ delta.updated)) = some listed ∧ key listed ≠ some old

/-- No key authenticates a removed user, and no other key than the new one a
user whose credential was changed. -/
def Withdraws [DecidableEq κ] (key : CoreUser → Option κ)
    (delta : CoreUserDelta) (filed : HashMap κ CoreUser) : Prop :=
  ∀ uuid old, Removes key delta uuid ∨ Rekeys key delta uuid old →
    ∀ user, filed.lookup old = some user → user.uuid ≠ uuid

variable [DecidableEq κ] {delta : CoreUserDelta} {filed : HashMap κ CoreUser} {full : List CoreUser}

theorem Within.withdraws {users : Assignment κ} (hfull : delta.full = none)
    (hwithin : Within (Assignment.applyLists key users delta).1 filed) :
    Withdraws key delta filed := by
  rintro uuid old hgone user hget rfl
  obtain ⟨hdeleted, hlast⟩ := Assignment.applyLists_lookup (hwithin old user hget)
  rcases hgone with hremoved | ⟨listed, hlisted, hkey⟩
  · simp only [Removes, hfull] at hremoved
    exact hdeleted hremoved
  · rw [hfull, Option.getD_none] at hlisted
    exact hkey (hlast listed hlisted)

def FiledFrom (key : CoreUser → Option κ) (full : List CoreUser)
    (filed : HashMap κ CoreUser) : Prop :=
  ∀ place user, filed.lookup place = some user →
    user ∈ full ∧ user.isEmpty = false ∧ key user = some place

theorem FiledFrom.oneEntry (hfull : delta.full = some full) (hkeys : OneKeyPerUuid key delta)
    (hfiled : FiledFrom key full filed) : OneEntryPerUuid filed := by
  intro first second user other hfirst hsecond huuid
  obtain ⟨huser, hempty, hkey⟩ := hfiled first user hfirst
  obtain ⟨hother, hempty', hkey'⟩ := hfiled second other hsecond
  have hsame := hkeys full hfull user huser other hother hempty hempty' huuid
    (by rw [hkey]; rfl) (by rw [hkey']; rfl)
  rw [hkey, hkey'] at hsame
  exact Option.some.inj hsame

theorem FiledFrom.withdraws (hfull : delta.full = some full) (hkeys : OneKeyPerUuid key delta)
    (hfiled : FiledFrom key full filed) : Withdraws key delta filed := by
  rintro uuid old hgone user hget rfl
  obtain ⟨huser, hempty, hkey⟩ := hfiled old user hget
  rcases hgone with hremoved | ⟨listed, hlisted, hother⟩
  · simp only [Removes, hfull, Assignment.lastTaken, getLast?_eq_none_iff,
      filter_eq_nil_iff] at hremoved
    exact hremoved user huser (by simp [hempty, hkey])
  · rw [hfull, Option.getD_some] at hlisted
    have hmem := mem_filter.1 (mem_of_getLast? hlisted)
    simp only [Bool.and_eq_true, Bool.not_eq_true', beq_iff_eq] at hmem
    have hsame := hkeys full hfull listed hmem.1 user huser hmem.2.1.1 hempty
      hmem.2.2 hmem.2.1.2 (by rw [hkey]; rfl)
    exact hother (hsame.trans hkey)

theorem filedFrom_collect (full : List CoreUser) :
    FiledFrom key full (.collect (keyedEntries key (nonEmptyUsers full))) := by
  intro place user hget
  rcases lookup_extend_cases hget with hmem | hempty
  · obtain ⟨listed, hlisted, hentry⟩ := mem_filterMap.1 hmem
    obtain ⟨_, hkey, heq⟩ := Option.map_eq_some_iff.1 hentry
    cases heq
    obtain ⟨hlisted, hempty⟩ := mem_filter.1 hlisted
    exact ⟨hlisted, by simpa using hempty, hkey⟩
  · simp at hempty

theorem filedFrom_keyedUserState (key : CoreUser → String) (full : List CoreUser) :
    FiledFrom (fun user => some (key user)) full (keyedUserState key full) := by
  intro place user hget
  rcases lookup_extend_cases hget with hmem | hempty
  · obtain ⟨listed, hlisted, hentry⟩ := mem_map.1 hmem
    cases hentry
    obtain ⟨hlisted, hempty⟩ := mem_filter.1 hlisted
    exact ⟨hlisted, by simpa using hempty, rfl⟩
  · simp at hempty

/-- A delta and the order in which the map is walked when it comes. -/
abbrev DeltaEvent (κ : Type) [DecidableEq κ] :=
  HashOrder κ CoreUser × CoreUserDelta

/-- In every state of the run no uuid has two entries, and every delta
withdraws the credentials it should. -/
def KeepsOneEntry (key : CoreUser → Option κ)
    (step : HashMap κ CoreUser → DeltaEvent κ → HashMap κ CoreUser)
    (start : HashMap κ CoreUser) (events : List (DeltaEvent κ)) : Prop :=
  ∀ past, past <+: events → OneEntryPerUuid (Run.exec step start past) ∧
      ∀ before event, past = before ++ [event] → Withdraws key event.2 (Run.exec step start past)

theorem keepsOneEntry_of_step {step : HashMap κ CoreUser → DeltaEvent κ → HashMap κ CoreUser}
    (hstep : ∀ filed event, OneEntryPerUuid filed → OneKeyPerUuid key event.2 →
        OneEntryPerUuid (step filed event) ∧ Withdraws key event.2 (step filed event))
    {start : HashMap κ CoreUser} (hstart : OneEntryPerUuid start) {events : List (DeltaEvent κ)}
    (hkeys : ∀ event ∈ events, OneKeyPerUuid key event.2) :
    KeepsOneEntry key step start events := by
  intro past hpast
  induction past using reverseRecOn with
  | nil => exact ⟨hstart, by simp⟩
  | append_singleton past event ih =>
    have hpre := (ih ((prefix_append past [event]).trans hpast)).1
    have hevent := hstep _ event hpre (hkeys event (hpast.subset (by simp)))
    rw [Run.exec_concat]
    refine ⟨hevent.1, fun before last heq => ?_⟩
    obtain ⟨-, hlast⟩ := append_inj' heq rfl
    cases hlast
    exact hevent.2

theorem applyUserDeltaToKeyedArcMap_step (order : HashOrder κ CoreUser)
    (hone : OneEntryPerUuid filed) (hkeys : OneKeyPerUuid key delta) :
    OneEntryPerUuid (applyUserDeltaToKeyedArcMap order key filed delta).1 ∧
      Withdraws key delta (applyUserDeltaToKeyedArcMap order key filed delta).1 := by
  cases hfull : delta.full with
  | none =>
    have hwithin := @applyUserDeltaToKeyedArcMap_within _ _ key order filed hone delta hfull
    exact ⟨hwithin.oneEntry, hwithin.withdraws hfull⟩
  | some full =>
    have hfiled : FiledFrom key full _ := filedFrom_collect full
    have heq : (applyUserDeltaToKeyedArcMap order key filed delta).1 =
        .collect (keyedEntries key (nonEmptyUsers full)) := by
      simp only [applyUserDeltaToKeyedArcMap, hfull]
    rw [heq]
    exact ⟨hfiled.oneEntry hfull hkeys, hfiled.withdraws hfull hkeys⟩

theorem applyKeyedDelta_step (order : UserOrder) {key : CoreUser → String}
    {filed : HashMap String CoreUser} (hone : OneEntryPerUuid filed)
    (hkeys : OneKeyPerUuid (fun user => some (key user)) delta) :
    OneEntryPerUuid (applyKeyedDelta order key filed delta).1 ∧
      Withdraws (fun user => some (key user)) delta (applyKeyedDelta order key filed delta).1 := by
  cases hfull : delta.full with
  | none =>
    have hwithin := applyKeyedDelta_within order key hone hfull
    exact ⟨hwithin.oneEntry, hwithin.withdraws hfull⟩
  | some full =>
    have hfiled := filedFrom_keyedUserState key full
    have heq : (applyKeyedDelta order key filed delta).1 = keyedUserState key full := by
      simp only [applyKeyedDelta, hfull]
    rw [heq]
    exact ⟨hfiled.oneEntry hfull hkeys, hfiled.withdraws hfull hkeys⟩

end Runs

/-- Full snapshots that give each uuid one key, and any incremental deltas. -/
theorem keyed_tables_keep_one_entry (stringKey : CoreUser → String) :
    (∀ (κ : Type) [DecidableEq κ] (key : CoreUser → Option κ)
      (start : HashMap κ CoreUser) (events : List (DeltaEvent κ)), OneEntryPerUuid start →
      (∀ event ∈ events, OneKeyPerUuid key event.2) → KeepsOneEntry key (fun filed event =>
          (applyUserDeltaToKeyedMap event.1 key filed event.2).1)
          start events ∧
        KeepsOneEntry key (fun filed event =>
          (applyUserDeltaToKeyedArcMap event.1 key filed event.2).1)
          start events) ∧
    (∀ (start : HashMap String CoreUser) (events : List (DeltaEvent String)),
      OneEntryPerUuid start →
      (∀ event ∈ events, OneKeyPerUuid (fun user => some (stringKey user)) event.2) →
      KeepsOneEntry (fun user => some (stringKey user)) (fun filed event =>
          (applyKeyedDelta event.1 stringKey filed event.2).1) start events) := by
  constructor
  · intro κ _ key start events hstart hkeys
    have hmap := @keepsOneEntry_of_step κ key _ (fun filed event =>
        (applyUserDeltaToKeyedArcMap event.1 key filed event.2).1)
      (fun _ event hone => applyUserDeltaToKeyedArcMap_step event.1 hone)
      start hstart events hkeys
    exact ⟨hmap, hmap⟩
  · intro start events hstart hkeys
    exact keepsOneEntry_of_step (fun _ event hone => applyKeyedDelta_step event.1 hone) hstart hkeys

/-- A snapshot of both users, then Bob takes the password Alice gave up, then
Alice is deleted. -/
def handover : List (DeltaEvent String) :=
  [{ full := some [alice "1", bob "2"] }, reuse,
    { deleted := ["alice"] }].map fun delta => (Finmap.sortedOrder, delta)

theorem keyed_tables_keep_one_entry_handover :
    KeepsOneEntry (fun user => some user.credential) (fun filed event =>
        (applyUserDeltaToKeyedMap event.1 (fun user => some user.credential)
          filed event.2).1) ∅ handover ∧
      KeepsOneEntry (fun user => some user.credential) (fun filed event =>
        (applyUserDeltaToKeyedArcMap event.1 (fun user => some user.credential) filed event.2).1) ∅
        handover ∧
      KeepsOneEntry (fun user => some user.credential) (fun filed event =>
        (applyKeyedDelta event.1 CoreUser.credential filed event.2).1) ∅
        handover := by
  have hstart : OneEntryPerUuid (∅ : HashMap String CoreUser) := by decide +kernel
  have hkeys : ∀ event ∈ handover, OneKeyPerUuid (fun user => some user.credential) event.2 := by
    intro event hevent full hfull
    simp only [handover, reuse, map_cons, map_nil, mem_cons, not_mem_nil, or_false] at hevent
    rcases hevent with rfl | rfl | rfl
    · cases hfull
      decide
    · simp at hfull
    · simp at hfull
  have hmaps := (keyed_tables_keep_one_entry CoreUser.credential).1 String
    (fun user => some user.credential) ∅ handover hstart hkeys
  exact ⟨hmaps.1, hmaps.2, (keyed_tables_keep_one_entry CoreUser.credential).2 ∅
    handover hstart hkeys⟩

/-- Alice twice in one snapshot, with different passwords. -/
def aliceTwice : CoreUserDelta :=
  { full := some [alice "1", alice "2"] }

def aliceDeleted : CoreUserDelta := { deleted := ["alice"] }

/-- The table holds Alice twice, and a deletion leaves one of the two. -/
theorem snapshot_files_user_twice : ¬ OneEntryPerUuid (applyUserDeltaToKeyedMap Finmap.sortedOrder
        (fun user => some user.credential) ∅ aliceTwice).1 ∧
      (applyUserDeltaToKeyedMap Finmap.sortedOrder (fun user => some user.credential)
        (applyUserDeltaToKeyedMap Finmap.sortedOrder
          (fun user => some user.credential) ∅ aliceTwice).1
        aliceDeleted).1.lookup "1" = some (alice "1") ∧
      ¬ OneEntryPerUuid (applyKeyedDelta Finmap.sortedOrder
        CoreUser.credential ∅ aliceTwice).1 ∧
      (applyKeyedDelta Finmap.sortedOrder CoreUser.credential
        (applyKeyedDelta Finmap.sortedOrder CoreUser.credential ∅ aliceTwice).1
        aliceDeleted).1.lookup "2" = some (alice "2") := by decide +kernel

end KeliCore
