/-
Who is left in a table after a delta, without assuming that keys tell users
apart.  A user that is held or added and not deleted stays, provided that its
key is its own.
-/
import KeliCore.ByUuid
import KeliCore.Tables

namespace KeliCore

open Finmap List Option KeyedMap

variable {table : UserTable}

def FiledUnderKey (key : CoreUser → Option String) (known : CoreUser → Prop)
    (filed : HashMap String CoreUser) : Prop :=
  ∀ place user, filed.lookup place = some user → key user = some place ∧ known user

def HasEntry (uuid : String) (filed : HashMap String CoreUser) : Prop :=
  ∃ place user, filed.lookup place = some user ∧ user.uuid = uuid

def OwnKey (key : CoreUser → Option String) (known : CoreUser → Prop) (uuid : String) : Prop :=
  ∀ user other, known user → known other → user.uuid = uuid →
    other.uuid ≠ uuid → key user ≠ key other

variable {known : CoreUser → Prop} {user : CoreUser} {uuid : String}
  {progress : Progress (HashMap String CoreUser)} {storeKey : CoreUser → String}
  {filed : HashMap String CoreUser}

section Filed

variable {key : CoreUser → Option String} {filed : HashMap String CoreUser} {place : String}

theorem FiledUnderKey.insert (hfiled : FiledUnderKey key known filed)
    (hknown : known user) (hkey : key user = some place) :
    FiledUnderKey key known (filed.insert place user) := by
  intro other found hget
  rw [lookup_insert_ite] at hget
  split at hget
  next hplace =>
    cases hget
    exact ⟨hplace ▸ hkey, hknown⟩
  · exact hfiled other found hget

theorem FiledUnderKey.erase (hfiled : FiledUnderKey key known filed)
    (place : String) : FiledUnderKey key known (filed.erase place) := by
  intro other found hget
  exact hfiled other found (of_lookup_erase hget).2

theorem hasEntry_insert_self : HasEntry user.uuid (filed.insert place user) := by
  refine ⟨place, user, ?_, rfl⟩
  rw [lookup_insert_ite, if_pos rfl]

theorem HasEntry.insert (hown : OwnKey key known uuid) (hfiled : FiledUnderKey key known filed)
    (hentry : user.uuid ≠ uuid → HasEntry uuid filed) (hknown : known user)
    (hkey : key user = some place) : HasEntry uuid (filed.insert place user) := by
  by_cases huuid : user.uuid = uuid
  · exact huuid ▸ hasEntry_insert_self
  · obtain ⟨old, found, hget, hfound⟩ := hentry huuid
    obtain ⟨hold, hfoundKnown⟩ := hfiled old found hget
    refine ⟨old, found, ?_, hfound⟩
    rw [lookup_insert_ite, if_neg]
    · exact hget
    · rintro rfl
      exact hown found user hfoundKnown hknown hfound huuid (hold.trans hkey.symm)

theorem HasEntry.erase (hown : OwnKey key known uuid)
    (hfiled : FiledUnderKey key known filed) (hentry : HasEntry uuid filed)
    (hknown : known user) (huuid : user.uuid ≠ uuid)
    (hkey : key user = some place) : HasEntry uuid (filed.erase place) := by
  obtain ⟨old, found, hget, hfound⟩ := hentry
  obtain ⟨hold, hfoundKnown⟩ := hfiled old found hget
  refine ⟨old, found, ?_, hfound⟩
  rw [lookup_erase_ite, if_neg]
  · exact hget
  · rintro rfl
    exact hown found user hfoundKnown hknown hfound huuid (hold.trans hkey.symm)

end Filed

def TakenOut (key : CoreUser → Option String) (known : CoreUser → Prop)
    (gone : String) (filed rest : HashMap String CoreUser) : Prop :=
  rest = filed ∨ ∃ place user, known user ∧ user.uuid = gone ∧
    key user = some place ∧ rest = filed.erase place

/-- Nothing happens, or this user goes in, for one that is taken out. -/
def PutIn (key : CoreUser → Option String) (known : CoreUser → Prop)
    (user : CoreUser) (filed after : HashMap String CoreUser) : Prop :=
  after = filed ∨ ∃ rest place, TakenOut key known user.uuid filed rest ∧
    known user ∧ key user = some place ∧ after = rest.insert place user

variable {order : UserOrder}

section Entries

variable {key : CoreUser → Option String} {filed rest after : HashMap String CoreUser}
  {gone : String}

theorem TakenOut.keeps (hout : TakenOut key known gone filed rest)
    (hfiled : FiledUnderKey key known filed) : FiledUnderKey key known rest ∧
      (∀ uuid, OwnKey key known uuid → gone ≠ uuid → HasEntry uuid filed → HasEntry uuid rest) := by
  rcases hout with rfl | ⟨place, user, hknown, rfl, hkey, rfl⟩
  · exact ⟨hfiled, fun _ _ _ hentry => hentry⟩
  · exact ⟨hfiled.erase place, fun uuid hown hgone hentry =>
      hentry.erase hown hfiled hknown hgone hkey⟩

theorem PutIn.keeps (hput : PutIn key known user filed after)
    (hfiled : FiledUnderKey key known filed) : FiledUnderKey key known after ∧
      (∀ uuid, OwnKey key known uuid → HasEntry uuid filed → HasEntry uuid after) := by
  rcases hput with rfl | ⟨rest, place, hout, hknown, hkey, rfl⟩
  · exact ⟨hfiled, fun _ _ hentry => hentry⟩
  · obtain ⟨hrest, hkept⟩ := hout.keeps hfiled
    refine ⟨hrest.insert hknown hkey, fun uuid hown hentry => ?_⟩
    exact .insert hown hrest (fun huuid => hkept uuid hown huuid hentry) hknown hkey

theorem FiledUnderKey.takenOut_of_remove (hfiled : FiledUnderKey key known filed)
    (hremove : removeArcUserByUuid order filed gone = some rest) :
    TakenOut key known gone filed rest := by
  rcases removeArcUserByUuid_cases order filed gone with
    ⟨place, user, hget, huser, heq⟩ | ⟨hnone, -⟩
  · obtain ⟨hkey, hknown⟩ := hfiled place user hget
    exact .inr ⟨place, user, hknown, huser, hkey, some.inj (hremove.symm.trans heq)⟩
  · exact absurd (hnone.symm.trans hremove) (some_ne_none rest).symm

end Entries

section Store

variable {key : CoreUser → Option String}

theorem FiledUnderKey.store_added (hfiled : FiledUnderKey key known progress.1)
    (hstore : user.isEmpty = false → key user = some (storeKey user))
    (hknown : user.isEmpty = false → known user) :
    PutIn key known user progress.1 (UserStore.onAdded order storeKey progress user).1 := by
  unfold UserStore.onAdded
  split
  · exact .inl rfl
  next hempty =>
    have hempty := eq_false_of_ne_true hempty
    split
    next rest hremove =>
      exact .inr ⟨rest, _, hfiled.takenOut_of_remove hremove, hknown hempty, hstore hempty, rfl⟩
    · exact .inr ⟨_, _, .inl rfl, hknown hempty, hstore hempty, rfl⟩

theorem hasEntry_store_added (hempty : user.isEmpty = false) :
    HasEntry user.uuid (UserStore.onAdded order storeKey progress user).1 := by
  unfold UserStore.onAdded
  rw [hempty, if_neg Bool.false_ne_true]
  split <;> exact hasEntry_insert_self

theorem FiledUnderKey.store_updated (hfiled : FiledUnderKey key known progress.1)
    (hstore : user.isEmpty = false → key user = some (storeKey user))
    (hknown : user.isEmpty = false → known user) :
    PutIn key known user progress.1 (UserStore.onUpdated order storeKey progress user).1 := by
  unfold UserStore.onUpdated
  split
  · exact .inl rfl
  next hempty =>
    have hempty := eq_false_of_ne_true hempty
    split
    next rest hremove =>
      exact .inr ⟨rest, _, hfiled.takenOut_of_remove hremove, hknown hempty, hstore hempty, rfl⟩
    · exact .inl rfl

theorem FiledUnderKey.store_deleted
    (hfiled : FiledUnderKey key known progress.1) (deleted : String) :
    TakenOut key known deleted progress.1 (UserStore.onDeleted order progress deleted).1 := by
  unfold UserStore.onDeleted
  split
  next rest hremove => exact hfiled.takenOut_of_remove hremove
  · exact .inl rfl

end Store

section KeyedMap

variable {progress : Progress (KeyedMap String)}

def SideKeys (key : CoreUser → Option String) (known : CoreUser → Prop)
    (map : KeyedMap String) : Prop :=
  ∀ uuid place, map.uuidKeys.lookup uuid = some place →
    ∃ user, known user ∧ user.uuid = uuid ∧ key user = some place

variable {place : String} {key : CoreUser → Option String}

theorem SideKeys.insert (hside : SideKeys key known progress.1)
    {users : HashMap String CoreUser} (hknown : known user) (hkey : key user = some place) :
    SideKeys key known ⟨users, progress.1.uuidKeys.insert user.uuid place⟩ := by
  intro other found hget
  rw [lookup_insert_ite] at hget
  split at hget
  next huuid => exact ⟨user, hknown, huuid.symm, hkey.trans hget⟩
  · exact hside other found hget

theorem SideKeys.takenOut {gone : String} (hside : SideKeys key known progress.1)
    (hget : progress.1.uuidKeys.lookup gone = some place) :
    TakenOut key known gone progress.1.users (progress.1.users.erase place) := by
  obtain ⟨user, hknown, huuid, hkey⟩ := hside gone place hget
  exact .inr ⟨place, user, hknown, huuid, hkey, rfl⟩

theorem SideKeys.added (hside : SideKeys key known progress.1)
    (hknown : user ∈ takenUsers key [user] → known user) :
    SideKeys key known (onAdded key progress user).1 ∧
      PutIn key known user progress.1.users (onAdded key progress user).1.users := by
  unfold onAdded
  split
  · exact ⟨hside, .inl rfl⟩
  next hempty =>
    split
    · exact ⟨hside, .inl rfl⟩
    next place hkey =>
      have hknown := hknown (by simp [mem_takenUsers, hempty, hkey])
      dsimp only
      split
      next old hold =>
        exact ⟨hside.insert hknown hkey, .inr ⟨_, place, hside.takenOut hold, hknown, hkey, rfl⟩⟩
      · exact ⟨hside.insert hknown hkey, .inr ⟨_, place, .inl rfl, hknown, hkey, rfl⟩⟩

theorem hasEntry_map_added (htaken : user ∈ takenUsers key [user]) :
    HasEntry user.uuid (onAdded key progress user).1.users := by
  obtain ⟨-, hempty, hsome⟩ := mem_takenUsers.1 htaken
  obtain ⟨place, hkey⟩ := isSome_iff_exists.1 hsome
  unfold onAdded
  rw [hempty, if_neg Bool.false_ne_true, hkey]
  dsimp only
  split <;> exact hasEntry_insert_self

theorem SideKeys.updated (hside : SideKeys key known progress.1)
    (hknown : user ∈ takenUsers key [user] → known user) :
    SideKeys key known (onUpdated key progress user).1 ∧
      PutIn key known user progress.1.users (onUpdated key progress user).1.users := by
  unfold onUpdated
  split
  · exact ⟨hside, .inl rfl⟩
  next hempty =>
    split
    · exact ⟨hside, .inl rfl⟩
    next place hkey =>
      have hknown := hknown (by simp [mem_takenUsers, hempty, hkey])
      dsimp only
      split
      next old hold =>
        exact ⟨hside.insert hknown hkey, .inr ⟨_, place, hside.takenOut hold, hknown, hkey, rfl⟩⟩
      · refine ⟨fun other found hget => ?_, .inl rfl⟩
        rw [lookup_erase_ite, lookup_insert_ite] at hget
        split at hget
        · exact absurd hget (some_ne_none found).symm
        · exact hside other found hget

theorem SideKeys.deleted (hside : SideKeys key known progress.1) (deleted : String) :
    SideKeys key known (onDeleted progress deleted).1 ∧ TakenOut key known deleted progress.1.users
        (onDeleted progress deleted).1.users := by
  unfold onDeleted
  dsimp only
  split
  next place hplace =>
    refine ⟨fun other found hget => ?_, hside.takenOut hplace⟩
    exact hside other found (of_lookup_erase hget).2
  · exact ⟨hside, .inl rfl⟩

end KeyedMap

section UuidMap

theorem ownKey_uuid (known : CoreUser → Prop) (uuid : String) :
    OwnKey (fun user => some user.uuid) known uuid := by
  intro user other _ _ huser hother heq
  exact hother ((some.inj heq).symm.trans huser)

theorem putIn_uuid_added (hknown : user.isEmpty = false → known user) :
    PutIn (fun user => some user.uuid) known user progress.1 (UuidMap.onAdded progress user).1 := by
  unfold UuidMap.onAdded
  split
  · exact .inl rfl
  next hempty => exact .inr ⟨_, _, .inl rfl, hknown (eq_false_of_ne_true hempty), rfl, rfl⟩

theorem hasEntry_uuid_added (hempty : user.isEmpty = false) :
    HasEntry user.uuid (UuidMap.onAdded progress user).1 := by
  unfold UuidMap.onAdded
  rw [hempty, if_neg Bool.false_ne_true]
  exact hasEntry_insert_self

theorem putIn_uuid_updated (hknown : user.isEmpty = false → known user) :
    PutIn (fun user => some user.uuid) known user progress.1
      (UuidMap.onUpdated progress user).1 := by
  unfold UuidMap.onUpdated
  split
  · exact .inl rfl
  next hempty =>
    split
    · exact .inr ⟨_, _, .inl rfl, hknown (eq_false_of_ne_true hempty), rfl, rfl⟩
    · exact .inl rfl

theorem FiledUnderKey.uuid_deleted
    (hfiled : FiledUnderKey (fun user => some user.uuid) known progress.1) (deleted : String) :
    TakenOut (fun user => some user.uuid) known deleted progress.1
      (UuidMap.onDeleted progress deleted).1 := by
  unfold UuidMap.onDeleted
  cases hget : progress.1.lookup deleted with
  | none =>
    refine .inl (ext_lookup fun place => ?_)
    rw [lookup_erase_ite]
    split
    next hplace => rw [hplace, hget]
    · rfl
  | some user =>
    obtain ⟨hkey, hknown⟩ := hfiled deleted user hget
    exact .inr ⟨deleted, user, hknown, some.inj hkey, hkey, rfl⟩

end UuidMap

def Stays (key : CoreUser → Option String) (held : Prop) (uuid : String)
    (delta : CoreUserDelta) : Prop :=
  uuid ∉ delta.deleted ∧ (held ∨ ∃ user ∈ takenUsers key delta.added, user.uuid = uuid)

section Delta

variable {key : CoreUser → Option String} {known : CoreUser → Prop} {uuid : String}
    {delta : CoreUserDelta}

/-- A change puts its user in or takes it out. -/
def Moves (key : CoreUser → Option String) (known : CoreUser → Prop)
    (filed after : HashMap String CoreUser) : UserChange → Prop
  | .add user | .update user => PutIn key known user filed after
  | .delete uuid => TakenOut key known uuid filed after

theorem Moves.keeps {after : HashMap String CoreUser} {change : UserChange}
    (hmoves : Moves key known filed after change) (hfiled : FiledUnderKey key known filed) :
    FiledUnderKey key known after ∧ (OwnKey key known uuid → change ≠ .delete uuid →
      HasEntry uuid filed → HasEntry uuid after) := by
  cases change with
  | add user | update user =>
    obtain ⟨hafter, hkept⟩ := PutIn.keeps hmoves hfiled
    exact ⟨hafter, fun hown _ => hkept uuid hown⟩
  | delete gone =>
    obtain ⟨hafter, hkept⟩ := TakenOut.keeps hmoves hfiled
    exact ⟨hafter, fun hown hne => hkept uuid hown fun heq => hne (congrArg _ heq)⟩

section Run

variable {τ : Type} {side : τ → Prop} {users : τ → HashMap String CoreUser}

/-- The users stay filed, and a user with a key of its own stays unless it is
deleted.  `side` is what else the changes keep. -/
theorem exec_keeps {step : Progress τ → UserChange → Progress τ} {changes : List UserChange}
    (hstep : ∀ change ∈ changes, ∀ progress,
      FiledUnderKey key known (users progress.1) → side progress.1 →
      side (step progress change).1 ∧
        Moves key known (users progress.1) (users (step progress change).1) change)
    {progress : Progress τ} (hfiled : FiledUnderKey key known (users progress.1))
    (hside : side progress.1) :
    (FiledUnderKey key known (users (Run.exec step progress changes).1) ∧
        side (Run.exec step progress changes).1) ∧
      (OwnKey key known uuid → .delete uuid ∉ changes → HasEntry uuid (users progress.1) →
        HasEntry uuid (users (Run.exec step progress changes).1)) := by
  induction changes generalizing progress with
  | nil => exact ⟨⟨hfiled, hside⟩, fun _ _ => id⟩
  | cons change changes ih =>
    obtain ⟨hnext, hmoves⟩ := hstep change mem_cons_self progress hfiled hside
    obtain ⟨hafter, hkeeps⟩ := hmoves.keeps hfiled
    obtain ⟨hlast, hkept⟩ := ih (fun other hother => hstep other (.tail _ hother)) hafter hnext
    refine ⟨hlast, fun hown hspared hentry => hkept hown (fun hmem => hspared (.tail _ hmem)) ?_⟩
    exact hkeeps hown (fun heq => hspared (heq ▸ mem_cons_self)) hentry

theorem runDelta_keeps {onAdded onUpdated : Progress τ → CoreUser → Progress τ}
    {onDeleted : Progress τ → String → Progress τ} {table : τ}
    (hfiled : FiledUnderKey key known (users table)) (hside : side table)
    (hstep : ∀ change ∈ delta.changes, ∀ progress,
      FiledUnderKey key known (users progress.1) → side progress.1 →
      side (changeStep onAdded onUpdated onDeleted progress change).1 ∧
        Moves key known (users progress.1)
          (users (changeStep onAdded onUpdated onDeleted progress change).1) change)
    (hbrings : ∀ user ∈ takenUsers key delta.added, ∀ progress,
      HasEntry user.uuid (users (onAdded progress user).1)) :
    FiledUnderKey key known (users (runDelta onAdded onUpdated onDeleted table delta).1) ∧
      (OwnKey key known uuid → Stays key (HasEntry uuid (users table)) uuid delta →
        HasEntry uuid (users (runDelta onAdded onUpdated onDeleted table delta).1)) := by
  rw [runDelta_eq_exec]
  have hall := @exec_keeps _ _ uuid _ _ _ _ _ hstep (table, {}) hfiled hside
  refine ⟨hall.1.1, fun hown ⟨hdeleted, hstays⟩ => ?_⟩
  have hspared : .delete uuid ∉ delta.changes := by simpa [CoreUserDelta.changes] using hdeleted
  rcases hstays with hheld | ⟨user, htaken, rfl⟩
  · exact hall.2 hown hspared hheld
  · -- The changes are cut after the one that brings the user in.
    have hmem : .add user ∈ delta.changes := by
      simp [CoreUserDelta.changes, (mem_takenUsers.1 htaken).1]
    obtain ⟨front, back, hcut⟩ := append_of_mem hmem
    rw [append_cons] at hcut
    rw [hcut] at hstep hspared ⊢
    obtain ⟨hfront, hmid⟩ := (@exec_keeps _ _ user.uuid _ _ _ _ _
      (fun change hmem => hstep change (mem_append_left _ hmem)) (table, {}) hfiled hside).1
    rw [Run.exec_append]
    refine (exec_keeps (fun change hmem => hstep change (mem_append_right _ hmem)) hfront
      hmid).2 hown (fun hmem => hspared (mem_append_right _ hmem)) ?_
    rw [Run.exec_concat]
    exact hbrings user htaken _

end Run

theorem mem_listed_of_changes
    (hmem : UserChange.add user ∈ delta.changes ∨ .update user ∈ delta.changes) :
    user ∈ delta.added ++ delta.updated := by simpa [CoreUserDelta.changes] using hmem

theorem mem_takenUsers_self {place : String}
    (hempty : user.isEmpty = false) (hkey : key user = some place) :
    user ∈ takenUsers key [user] := by simp [mem_takenUsers, hempty, hkey]

theorem FiledUnderKey.applyKeyedDelta (hfiled : FiledUnderKey key known filed)
    (hfull : delta.full = none)
    (hstore : ∀ user ∈ delta.added ++ delta.updated, user.isEmpty = false →
      key user = some (storeKey user)) (hnamed : ∀ user ∈ namedUsers key delta, known user) :
    FiledUnderKey key known (applyKeyedDelta order storeKey filed delta).1 ∧
      (OwnKey key known uuid → Stays key (HasEntry uuid filed) uuid delta →
        HasEntry uuid (applyKeyedDelta order storeKey filed delta).1) := by
  have hknown : ∀ user ∈ delta.added ++ delta.updated,
      user.isEmpty = false → known user := fun user hmem hempty =>
    hnamed user (mem_namedUsers_of_taken hmem
      (mem_takenUsers_self hempty (hstore user hmem hempty)))
  unfold KeliCore.applyKeyedDelta
  rw [hfull]
  refine @runDelta_keeps _ _ _ _ _ (fun _ => True) id _ _ _ _ hfiled trivial ?_ ?_
  · rintro (user | user | gone) hmem progress hfiled - <;> dsimp only [Moves, changeStep, id_eq]
    · have hlisted := mem_listed_of_changes (.inl hmem)
      exact ⟨trivial, hfiled.store_added (hstore user hlisted) (hknown user hlisted)⟩
    · have hlisted := mem_listed_of_changes (.inr hmem)
      exact ⟨trivial, hfiled.store_updated (hstore user hlisted) (hknown user hlisted)⟩
    · exact ⟨trivial, hfiled.store_deleted gone⟩
  · intro user htaken progress
    exact hasEntry_store_added (mem_takenUsers.1 htaken).2.1

theorem FiledUnderKey.sideKeys (hfiled : FiledUnderKey key known filed) (order : UserOrder) :
    SideKeys key known ⟨filed, .collect ((order.iter filed).map fun entry =>
        (entry.2.uuid, entry.1))⟩ := by
  intro uuid place hget
  rcases lookup_extend_cases hget with hmem | hempty
  · obtain ⟨entry, hentry, heq⟩ := mem_map.1 hmem
    cases heq
    obtain ⟨hkey, hknown⟩ := hfiled entry.1 entry.2
      ((order.mem_iter filed entry.1 entry.2).1 hentry)
    exact ⟨entry.2, hknown, rfl, hkey⟩
  · simp at hempty

theorem FiledUnderKey.applyUserDeltaToKeyedArcMap
    (hfiled : FiledUnderKey key known filed) (hfull : delta.full = none)
    (hnamed : ∀ user ∈ namedUsers key delta, known user) :
    FiledUnderKey key known (applyUserDeltaToKeyedArcMap order key filed delta).1 ∧
      (OwnKey key known uuid → Stays key (HasEntry uuid filed) uuid delta →
        HasEntry uuid (applyUserDeltaToKeyedArcMap order key filed delta).1) := by
  unfold KeliCore.applyUserDeltaToKeyedArcMap
  rw [hfull]
  refine @runDelta_keeps _ _ _ _ _ (SideKeys key known) users _ _ _ _
    hfiled (hfiled.sideKeys order) ?_ ?_
  · rintro (user | user | gone) hmem progress - hside <;> dsimp only [Moves, changeStep]
    · exact hside.added fun htaken => hnamed user
        (mem_namedUsers_of_taken (mem_listed_of_changes (.inl hmem)) htaken)
    · exact hside.updated fun htaken => hnamed user
        (mem_namedUsers_of_taken (mem_listed_of_changes (.inr hmem)) htaken)
    · exact hside.deleted gone
  · intro user htaken progress
    exact hasEntry_map_added (mem_takenUsers.mpr
      ⟨mem_singleton_self user, (mem_takenUsers.1 htaken).2⟩)

theorem FiledUnderKey.applyUuidLists {filed : HashMap String CoreUser}
    (hfiled : FiledUnderKey (fun user => some user.uuid) known filed)
    (hnamed : ∀ user ∈ namedUsers (fun user => some user.uuid) delta, known user) :
    FiledUnderKey (fun user => some user.uuid) known (applyUuidLists filed delta).1 ∧
      (Stays (fun user => some user.uuid) (HasEntry uuid filed) uuid delta →
        HasEntry uuid (applyUuidLists filed delta).1) := by
  have hknown : ∀ user ∈ delta.added ++ delta.updated,
      user.isEmpty = false → known user := fun user hmem hempty =>
    hnamed user (mem_namedUsers_of_taken hmem (mem_takenUsers_self hempty rfl))
  refine (@runDelta_keeps _ _ uuid _ _ (fun _ => True) id _ _ _ _ hfiled
    trivial ?_ ?_).imp_right fun hkept => hkept (ownKey_uuid known uuid)
  · rintro (user | user | gone) hmem progress hfiled - <;> dsimp only [Moves, changeStep, id_eq]
    · exact ⟨trivial, putIn_uuid_added (hknown user (mem_listed_of_changes (.inl hmem)))⟩
    · exact ⟨trivial, putIn_uuid_updated (hknown user (mem_listed_of_changes (.inr hmem)))⟩
    · exact ⟨trivial, hfiled.uuid_deleted gone⟩
  · intro user htaken progress
    exact hasEntry_uuid_added (mem_takenUsers.1 htaken).2.1

end Delta

namespace UserTable

variable {known : CoreUser → Prop}

/-- The table is of the protocol's shape, and its users are known and filed
under their keys. -/
def Sound (env : Externals) (protocol : Protocol) (known : CoreUser → Prop) : UserTable → Prop
  | .keyed filed => protocol.keepsList = false ∧ FiledUnderKey (userKey env protocol) known filed
  | .listed list => protocol.keepsList = true ∧ ∀ user ∈ list, known user

variable {env : Externals} {protocol : Protocol} {list : List CoreUser}

theorem Sound.of_holds (hsound : table.Sound env protocol known) (hholds : table.Holds user) :
    known user := by
  cases table with
  | keyed filed =>
    obtain ⟨place, hget⟩ := hholds
    exact (hsound.2 place user hget).2
  | listed list => exact hsound.2 user hholds

theorem Sound.mono {wider : CoreUser → Prop} (hsound : table.Sound env protocol known)
    (hwider : ∀ user, table.Holds user → known user → wider user) :
    table.Sound env protocol wider := by
  cases table with
  | keyed filed =>
    refine ⟨hsound.1, fun place user hget => ?_⟩
    obtain ⟨hkey, hknown⟩ := hsound.2 place user hget
    exact ⟨hkey, hwider user ⟨place, hget⟩ hknown⟩
  | listed list => exact ⟨hsound.1, fun user hmem => hwider user hmem (hsound.2 user hmem)⟩

theorem OfList.sound {listed : List CoreUser} (hlist : OfList env protocol listed table) :
    table.Sound env protocol fun user => user ∈ takenUsers (userKey env protocol) listed := by
  cases hlist with
  | keyed hkeeps =>
    refine ⟨hkeeps, fun place user hget => ?_⟩
    rcases lookup_extend_cases hget with hmem | hempty
    · obtain ⟨found, hfound, heq⟩ := mem_map.1 hmem
      cases heq
      exact ⟨storeKey_getD (mem_takenUsers.1 hfound).2.2, hfound⟩
    · simp at hempty
  | @listed list hkeeps hperm =>
    refine ⟨hkeeps, fun user hmem => ?_⟩
    rw [hperm.mem_iff, ← takenUsers_uuid] at hmem
    cases protocol with
    | shadowsocks | mieru => exact hmem
    | _ => exact absurd hkeeps Bool.false_ne_true

theorem OfList.exists_holds {listed : List CoreUser} (hlist : OfList env protocol listed table)
    (htaken : user ∈ takenUsers (userKey env protocol) listed) :
    ∃ held, table.Holds held ∧ userKey env protocol user = userKey env protocol held := by
  have hsound := hlist.sound
  cases hlist with
  | keyed =>
    have hmem : (userKey env protocol user).getD "" ∈ filedUsers (userKey env protocol) listed :=
      (mem_extend _ _ _).2 (.inl ⟨_, mem_map_of_mem htaken, rfl⟩)
    obtain ⟨held, hheld⟩ := isSome_iff_exists.1 (lookup_isSome.2 hmem)
    refine ⟨held, ⟨_, hheld⟩, ?_⟩
    exact (storeKey_getD (mem_takenUsers.1 htaken).2.2).trans (hsound.2 _ held hheld).1.symm
  | listed hkeeps hperm =>
    obtain ⟨hmem, hempty, -⟩ := mem_takenUsers.1 htaken
    refine ⟨user, hperm.mem_iff.2 (mem_filter.2 ⟨hmem, ?_⟩), rfl⟩
    rw [hempty]
    rfl

theorem hasUuid_keyed : (keyed filed).HasUuid uuid ↔ HasEntry uuid filed := by
  constructor
  · rintro ⟨user, ⟨place, hget⟩, huuid⟩
    exact ⟨place, user, hget, huuid⟩
  · rintro ⟨place, user, hget, huuid⟩
    exact ⟨user, ⟨place, hget⟩, huuid⟩

theorem filedUnderKey_keyedUserState (hknown : ∀ user ∈ list, known user) :
    FiledUnderKey (fun user => some user.uuid) known (keyedUserState CoreUser.uuid list) := by
  intro place user hget
  rcases lookup_extend_cases hget with hmem | hempty
  · obtain ⟨found, hfound, heq⟩ := mem_map.1 hmem
    obtain ⟨rfl, rfl⟩ := Prod.mk.inj heq
    exact ⟨rfl, hknown found (mem_of_mem_filter hfound)⟩
  · simp at hempty

theorem hasEntry_keyedUserState (hmem : user ∈ list) (hempty : user.isEmpty = false) :
    HasEntry user.uuid (keyedUserState CoreUser.uuid list) := by
  have hnonempty : user ∈ nonEmptyUsers list := mem_filter.2 ⟨hmem, by rw [hempty]; rfl⟩
  have hplace : user.uuid ∈ keyedUserState CoreUser.uuid list :=
    (mem_extend _ _ _).2 (.inl ⟨_, mem_map_of_mem hnonempty, rfl⟩)
  obtain ⟨held, hheld⟩ := isSome_iff_exists.1 (lookup_isSome.2 hplace)
  have hfiled := filedUnderKey_keyedUserState (fun _ hmem => hmem) _ _ hheld
  exact ⟨user.uuid, held, hheld, some.inj hfiled.1⟩

theorem applyUserDeltaToVec_keeps {delta : CoreUserDelta} (hfull : delta.full = none)
    (hknown : ∀ user ∈ list, known user) (hnonempty : ∀ user, known user → user.isEmpty = false)
    (hnamed : ∀ user ∈ namedUsers (fun user => some user.uuid) delta, known user) :
    (∀ user ∈ (applyUserDeltaToVec list delta).1, known user) ∧
      (Stays (fun user => some user.uuid) ((listed list).HasUuid uuid) uuid
        delta → ∃ user ∈ (applyUserDeltaToVec list delta).1, user.uuid = uuid) := by
  obtain ⟨hfiled, hkept⟩ := FiledUnderKey.applyUuidLists
    (filedUnderKey_keyedUserState hknown) hnamed
  unfold applyUserDeltaToVec
  rw [hfull]
  constructor
  · intro user hmem
    obtain ⟨place, -, hget⟩ := mem_filterMap.1 hmem
    exact (hfiled place user hget).2
  · intro hstays
    obtain ⟨place, user, hget, huuid⟩ := hkept
      ⟨hstays.1, hstays.2.imp_left fun ⟨user, hmem, huuid⟩ =>
        huuid ▸ hasEntry_keyedUserState hmem (hnonempty user (hknown user hmem))⟩
    refine ⟨user, mem_filterMap.2 ⟨place, ?_, hget⟩, huuid⟩
    exact (mem_sortedKeys _ _).2 (mem_of_lookup_eq_some hget)

theorem Sound.applyLists {env : Externals} {protocol : Protocol}
    {table : UserTable} {order : UserOrder}
    {delta : CoreUserDelta} {uuid : String} (hsound : table.Sound env protocol known)
    (hnonempty : ∀ user, known user → user.isEmpty = false)
    (hkeyable : Keyable env protocol delta) (hfull : delta.full = none)
    (hnamed : ∀ user ∈ namedUsers (userKey env protocol) delta, known user) :
    (table.applyDelta env order protocol delta).1.Sound env protocol known ∧
      (OwnKey (userKey env protocol) known uuid →
        Stays (userKey env protocol) (table.HasUuid uuid) uuid delta →
        (table.applyDelta env order protocol delta).1.HasUuid uuid) := by
  cases table with
  | listed list =>
    obtain ⟨hkeeps, hknown⟩ := hsound
    cases protocol with
    | shadowsocks | mieru =>
      obtain ⟨hall, hkept⟩ := applyUserDeltaToVec_keeps hfull hknown hnonempty hnamed
      exact ⟨⟨rfl, hall⟩, fun _ => hkept⟩
    | _ => exact absurd hkeeps Bool.false_ne_true
  | keyed filed =>
    obtain ⟨hkeeps, hfiled⟩ := hsound
    rw [hasUuid_keyed]
    unfold Keyable listedUsers at hkeyable
    rw [hfull] at hkeyable
    cases protocol with
    | shadowsocks | mieru => exact absurd hkeeps.symm Bool.false_ne_true
    | socks | http | naive =>
      obtain ⟨hafter, hkept⟩ := FiledUnderKey.applyUuidLists hfiled hnamed
      unfold applyDelta applyUuidDelta
      rw [hfull]
      exact ⟨⟨rfl, hafter⟩, fun _ hstays => hasUuid_keyed.2 (hkept hstays)⟩
    | vless | trojan | hysteria2 =>
      obtain ⟨hafter, hkept⟩ := hfiled.applyKeyedDelta hfull (fun _ _ _ => rfl) hnamed
      exact ⟨⟨rfl, hafter⟩, fun hown hstays => hasUuid_keyed.2 (hkept hown hstays)⟩
    | vmess =>
      obtain ⟨hafter, hkept⟩ := hfiled.applyKeyedDelta hfull (fun user hmem hempty =>
          storeKey_getD (hkeyable rfl user hmem hempty)) hnamed
      exact ⟨⟨rfl, hafter⟩, fun hown hstays => hasUuid_keyed.2 (hkept hown hstays)⟩
    | anyTls | tuic =>
      obtain ⟨hafter, hkept⟩ := hfiled.applyUserDeltaToKeyedArcMap hfull hnamed
      exact ⟨⟨rfl, hafter⟩, fun hown hstays => hasUuid_keyed.2 (hkept hown hstays)⟩

end UserTable

end KeliCore
