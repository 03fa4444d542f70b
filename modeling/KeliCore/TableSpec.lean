/-
What the user tables are for: one user per uuid.  The map from uuids to users
is the abstract table, and deltas act on it list by list.  The tables of the
protocols file the same users under keys of their own, or in a list, and each
of them follows the abstract table as long as users with different uuids have
different keys.
-/
import KeliCore.KeyedIndex
import KeliCore.UserTable

namespace KeliCore

open Finmap KeyedIndex List Option UserStore

def takenUsers (key : CoreUser → Option String) (users : List CoreUser) : List CoreUser :=
  users.filter fun user => !user.isEmpty && (key user).isSome

variable {user : CoreUser}

theorem mem_takenUsers {key : CoreUser → Option String} {users : List CoreUser} :
    user ∈ takenUsers key users ↔
      user ∈ users ∧ user.isEmpty = false ∧ (key user).isSome = true := by simp [takenUsers]

def uuidEntries (users : List CoreUser) : List (String × CoreUser) :=
  users.map fun user => (user.uuid, user)

namespace UsersByUuid

def ofList (key : CoreUser → Option String) (users : List CoreUser) : HashMap String CoreUser :=
  .collect (uuidEntries (takenUsers key users))

def add (users : HashMap String CoreUser) (user : CoreUser) : HashMap String CoreUser :=
  users.insert user.uuid user

/-- Only a known user is updated. -/
def update (users : HashMap String CoreUser) (user : CoreUser) : HashMap String CoreUser :=
  if (users.lookup user.uuid).isSome then users.insert user.uuid user
  else users

/-- A delta on the abstract table. -/
def next (key : CoreUser → Option String) (users : HashMap String CoreUser)
    (delta : CoreUserDelta) : HashMap String CoreUser :=
  match delta.full with
  | some full => ofList key full
  | none =>
    ((takenUsers key delta.updated).foldl update
      ((takenUsers key delta.added).foldl add users)).eraseAll delta.deleted

end UsersByUuid

open UsersByUuid

structure Follows (key : CoreUser → Option String) (known : CoreUser → Prop)
    (users filed : HashMap String CoreUser) : Prop where
  represents : Represents CoreUser.uuid key users filed
  known : ∀ uuid user, users.lookup uuid = some user → known user

/-- Users with different uuids have different keys. -/
def DistinctKeys (key : CoreUser → Option String) (known : CoreUser → Prop) :
    Prop :=
  ∀ first second, known first → known second → (key first).isSome = true →
    key first = key second → first.uuid = second.uuid

section Follows

variable {key : CoreUser → Option String} {known : CoreUser → Prop}
  {users filed rest : HashMap String CoreUser} {delta : CoreUserDelta}

theorem Follows.insert {place : String} (hkeys : DistinctKeys key known)
    (hfollows : Follows key known users filed) (hknown : known user) (hkey : key user = some place)
    (hrest : Without CoreUser.uuid user.uuid filed rest) :
    Follows key known (users.insert user.uuid user) (rest.insert place user) where
  represents := by
    apply hfollows.represents.insert hkey _ hrest
    intro uuid other hother hplace
    have hsome := hfollows.represents.keyed uuid other hother
    exact hkeys other user (hfollows.known uuid other hother) hknown hsome (hplace.trans hkey.symm)
  known uuid found hget := by
    rw [lookup_insert_ite] at hget
    split at hget
    · rwa [← some.inj hget]
    · exact hfollows.known uuid found hget

theorem Follows.erase {uuid : String} (hfollows : Follows key known users filed)
    (hrest : Without CoreUser.uuid uuid filed rest) :
    Follows key known (users.erase uuid) rest where
  represents := hfollows.represents.erase hrest
  known other found hget := by exact hfollows.known other found (of_lookup_erase hget).2

/-- `removeArcUserByUuid` takes out one entry of a user with the uuid, if there
is one. -/
theorem removeArcUserByUuid_cases (order : UserOrder)
    (filed : HashMap String CoreUser) (uuid : String) :
    (∃ place user, filed.lookup place = some user ∧ user.uuid = uuid ∧
      removeArcUserByUuid order filed uuid = some (filed.erase place)) ∨
    (removeArcUserByUuid order filed uuid = none ∧
      ∀ place user, filed.lookup place = some user → user.uuid ≠ uuid) := by
  unfold removeArcUserByUuid
  cases hfound : (order.iter filed).findSome? fun entry =>
      if entry.2.uuid = uuid then some entry.1 else none with
  | some place =>
    left
    obtain ⟨entry, hentry, heq⟩ := exists_of_findSome?_eq_some hfound
    split at heq
    next huuid =>
      cases heq
      exact ⟨entry.1, entry.2, (order.mem_iter filed entry.1 entry.2).1 hentry, huuid, rfl⟩
    · contradiction
  | none =>
    right
    refine ⟨rfl, fun place user hget huuid => ?_⟩
    have hentry := (order.mem_iter filed place user).2 hget
    have hmiss := findSome?_eq_none_iff.1 hfound _ hentry
    simp [huuid] at hmiss

/-- In a table that follows, the entry taken out is the only one. -/
theorem Follows.removeArc (hfollows : Follows key known users filed)
    (order : UserOrder) (uuid : String) :
    (∃ rest, removeArcUserByUuid order filed uuid = some rest ∧ (users.lookup uuid).isSome = true ∧
      Without CoreUser.uuid uuid filed rest) ∨ (removeArcUserByUuid order filed uuid = none ∧
      users.lookup uuid = none ∧ Without CoreUser.uuid uuid filed filed) := by
  rcases removeArcUserByUuid_cases order filed uuid with
    ⟨place, user, hget, rfl, heq⟩ | ⟨heq, hmissing⟩
  · left
    refine ⟨_, heq, ?_, hfollows.represents.without_erase hget⟩
    rw [((hfollows.represents.places _ _).1 hget).1]
    rfl
  · right
    have hnone : users.lookup uuid = none := by
      cases hget : users.lookup uuid with
      | none => rfl
      | some user =>
        obtain ⟨place, -, hplace⟩ := hfollows.represents.exists_place hget
        exact absurd (hfollows.represents.own uuid user hget) (hmissing place user hplace)
    exact ⟨heq, hnone, hfollows.represents.without_self hnone⟩

/-- One user of a list, if the table takes it. -/
def whenTaken (key : CoreUser → Option String)
    (change : HashMap String CoreUser → CoreUser → HashMap String CoreUser)
    (users : HashMap String CoreUser) (user : CoreUser) : HashMap String CoreUser :=
  if !user.isEmpty && (key user).isSome then change users user else users

theorem runDelta_rel {users : HashMap String CoreUser}
    {τ : Type} {relation : HashMap String CoreUser → Progress τ → Prop}
    {onAdded onUpdated : Progress τ → CoreUser → Progress τ}
    {onDeleted : Progress τ → String → Progress τ} {table : τ}
    {delta : CoreUserDelta} (hfull : delta.full = none) (hstart : relation users (table, {}))
    (hadded : ∀ user ∈ delta.added, ∀ users progress, relation users progress →
        relation (whenTaken key add users user) (onAdded progress user))
    (hupdated : ∀ user ∈ delta.updated, ∀ users progress, relation users progress →
        relation (whenTaken key update users user) (onUpdated progress user))
    (hdeleted : ∀ uuid users progress, relation users progress →
      relation (users.erase uuid) (onDeleted progress uuid)) :
    relation (next key users delta) (runDelta onAdded onUpdated onDeleted table delta) := by
  unfold UsersByUuid.next runDelta
  rw [hfull]
  simp only [takenUsers, foldl_filter]
  apply foldl_rel
  · exact foldl_rel (foldl_rel hstart hadded) hupdated
  · exact fun uuid _ => hdeleted uuid

def namedUsers (key : CoreUser → Option String) (delta : CoreUserDelta) : List CoreUser :=
  takenUsers key (delta.added ++ delta.updated)

theorem mem_namedUsers_of_taken (hmem : user ∈ delta.added ++ delta.updated)
    (htaken : user ∈ takenUsers key [user]) : user ∈ namedUsers key delta :=
  mem_takenUsers.2 ⟨hmem, (mem_takenUsers.1 htaken).2⟩

section Store

variable {users : HashMap String CoreUser} {progress : Progress (HashMap String CoreUser)}
  {storeKey : CoreUser → String} {order : UserOrder}

theorem Follows.store_added (hkeys : DistinctKeys key known)
    (hfollows : Follows key known users progress.1)
    (hstore : user.isEmpty = false → key user = some (storeKey user))
    (hknown : user ∈ takenUsers key [user] → known user) :
    Follows key known (whenTaken key add users user) (onAdded order storeKey progress user).1 := by
  unfold whenTaken onAdded
  cases hempty : user.isEmpty with
  | true => simpa using hfollows
  | false =>
    have hkey := hstore hempty
    have hknown := hknown (by simp [mem_takenUsers, hempty, hkey])
    simp only [hkey, Bool.not_false, isSome_some, Bool.and_self,
      if_true, Bool.false_eq_true, if_false]
    rcases hfollows.removeArc order user.uuid with
      ⟨rest, heq, -, hrest⟩ | ⟨heq, -, hrest⟩ <;> rw [heq] <;>
      exact hfollows.insert hkeys hknown hkey hrest

theorem Follows.store_updated (hkeys : DistinctKeys key known)
    (hfollows : Follows key known users progress.1)
    (hstore : user.isEmpty = false → key user = some (storeKey user))
    (hknown : user ∈ takenUsers key [user] → known user) :
    Follows key known (whenTaken key update users user)
      (onUpdated order storeKey progress user).1 := by
  unfold whenTaken onUpdated
  cases hempty : user.isEmpty with
  | true => simpa using hfollows
  | false =>
    have hkey := hstore hempty
    have hknown := hknown (by simp [mem_takenUsers, hempty, hkey])
    simp only [hkey, Bool.not_false, isSome_some, Bool.and_self,
      if_true, Bool.false_eq_true, if_false, update]
    rcases hfollows.removeArc order user.uuid with ⟨rest, heq, hsome, hrest⟩ | ⟨heq, hnone, -⟩
    · rw [heq, if_pos hsome]
      exact hfollows.insert hkeys hknown hkey hrest
    · simpa [heq, hnone] using hfollows

theorem Follows.store_deleted (hfollows : Follows key known users progress.1) (uuid : String) :
    Follows key known (users.erase uuid) (onDeleted order progress uuid).1 := by
  unfold onDeleted
  rcases hfollows.removeArc order uuid with
    ⟨rest, heq, -, hrest⟩ | ⟨heq, -, hrest⟩ <;> rw [heq] <;> exact hfollows.erase hrest

theorem Follows.store_delta {filed : HashMap String CoreUser} (hkeys : DistinctKeys key known)
    (hfollows : Follows key known users filed) (hfull : delta.full = none)
    (hstore : ∀ user ∈ delta.added ++ delta.updated, user.isEmpty = false →
      key user = some (storeKey user)) (hnamed : ∀ user ∈ namedUsers key delta, known user) :
    Follows key known (next key users delta) (applyKeyedDelta order storeKey filed delta).1 := by
  have hrun := @runDelta_rel key users _ (fun users progress => Follows key known users progress.1)
    (onAdded order storeKey) (onUpdated order storeKey)
    (onDeleted order) filed delta hfull hfollows
  unfold applyKeyedDelta
  rw [hfull]
  apply hrun
  · intro user hmem users progress hfollows
    have hlisted := mem_append_left delta.updated hmem
    exact hfollows.store_added hkeys (hstore user hlisted) fun htaken =>
      hnamed user (mem_namedUsers_of_taken hlisted htaken)
  · intro user hmem users progress hfollows
    have hlisted := mem_append_right delta.added hmem
    exact hfollows.store_updated hkeys (hstore user hlisted) fun htaken =>
      hnamed user (mem_namedUsers_of_taken hlisted htaken)
  · intro uuid users progress hfollows
    exact hfollows.store_deleted uuid

end Store

theorem applyUuidLists_eq (users : HashMap String CoreUser) (hfull : delta.full = none) :
    (applyUuidLists users delta).1 = next (fun user => some user.uuid) users delta := by
  refine @runDelta_rel (fun user => some user.uuid) users _
    (fun users progress => progress.1 = users) _ _ _ users delta hfull rfl ?_ ?_ ?_
  · rintro user - users progress rfl
    cases hempty : user.isEmpty <;> simp [whenTaken, add, UuidMap.onAdded, hempty]
  · rintro user - users progress rfl
    cases hempty : user.isEmpty <;> cases hget : progress.1.lookup user.uuid <;>
      simp [whenTaken, update, UuidMap.onUpdated, hempty, hget]
  · rintro uuid users progress rfl
    rfl

/-- The side table knows the place of every user. -/
structure MapFollows (key : CoreUser → Option String)
    (known : CoreUser → Prop) (users : HashMap String CoreUser) (map : KeyedMap String) : Prop where
  follows : Follows key known users map.users
  uuidKeys : ∀ uuid, map.uuidKeys.lookup uuid = (users.lookup uuid).bind key

section KeyedMap

variable {progress : Progress (KeyedMap String)} {users filed : HashMap String CoreUser}

theorem MapFollows.insert {place : String} {rest : HashMap String CoreUser}
    (hkeys : DistinctKeys key known)
    (hmap : MapFollows key known users progress.1) (hknown : known user)
    (hkey : key user = some place) (hrest : Without CoreUser.uuid user.uuid progress.1.users rest) :
    MapFollows key known (users.insert user.uuid user) ⟨rest.insert place user,
        progress.1.uuidKeys.insert user.uuid place⟩ where
  follows := hmap.follows.insert hkeys hknown hkey hrest
  uuidKeys uuid := by
    rw [lookup_insert_ite, lookup_insert_ite, hmap.uuidKeys]
    by_cases huuid : uuid = user.uuid
    · simp [huuid, hkey]
    · simp [huuid]

theorem MapFollows.place_cases (hmap : MapFollows key known users progress.1) (uuid : String) :
    (∃ place, progress.1.uuidKeys.lookup uuid = some place ∧ (users.lookup uuid).isSome = true ∧
      Without CoreUser.uuid uuid progress.1.users (progress.1.users.erase place)) ∨
    (progress.1.uuidKeys.lookup uuid = none ∧ users.lookup uuid = none ∧
      Without CoreUser.uuid uuid progress.1.users progress.1.users) := by
  have hside := hmap.uuidKeys uuid
  cases hget : users.lookup uuid with
  | none =>
    rw [hget] at hside
    exact .inr ⟨hside, rfl, hmap.follows.represents.without_self hget⟩
  | some user =>
    obtain ⟨place, hplace, hfiled⟩ := hmap.follows.represents.exists_place hget
    rw [hget, bind_some, hplace] at hside
    have hwithout := hmap.follows.represents.without_erase hfiled
    rw [hmap.follows.represents.own uuid user hget] at hwithout
    exact .inl ⟨place, hside, rfl, hwithout⟩

theorem MapFollows.added (hkeys : DistinctKeys key known)
    (hmap : MapFollows key known users progress.1)
    (hknown : user ∈ takenUsers key [user] → known user) :
    MapFollows key known (whenTaken key add users user) (KeyedMap.onAdded key progress user).1 := by
  unfold whenTaken KeyedMap.onAdded
  cases hempty : user.isEmpty with
  | true => simpa using hmap
  | false =>
    cases hkey : key user with
    | none => simpa using hmap
    | some place =>
      have hknown := hknown (by simp [mem_takenUsers, hempty, hkey])
      simp only [Bool.not_false, isSome_some, Bool.and_self, if_true, Bool.false_eq_true, if_false]
      rcases hmap.place_cases user.uuid with
        ⟨old, hplace, -, hrest⟩ | ⟨hplace, -, hrest⟩ <;> rw [hplace] <;>
        exact hmap.insert hkeys hknown hkey hrest

theorem MapFollows.updated (hkeys : DistinctKeys key known)
    (hmap : MapFollows key known users progress.1)
    (hknown : user ∈ takenUsers key [user] → known user) :
    MapFollows key known (whenTaken key update users user)
      (KeyedMap.onUpdated key progress user).1 := by
  unfold whenTaken KeyedMap.onUpdated
  cases hempty : user.isEmpty with
  | true => simpa using hmap
  | false =>
    cases hkey : key user with
    | none => simpa using hmap
    | some place =>
      have hknown := hknown (by simp [mem_takenUsers, hempty, hkey])
      simp only [Bool.not_false, isSome_some, Bool.and_self,
        if_true, Bool.false_eq_true, if_false, update]
      rcases hmap.place_cases user.uuid with ⟨old, hold, hsome, hrest⟩ | ⟨hnone, hmissing, -⟩
      · rw [hold, if_pos hsome]
        exact hmap.insert hkeys hknown hkey hrest
      · rw [hnone, hmissing, isSome_none, if_neg Bool.false_ne_true]
        refine ⟨hmap.follows, fun uuid => ?_⟩
        rw [lookup_erase_ite, lookup_insert_ite, ← hmap.uuidKeys]
        by_cases huuid : uuid = user.uuid
        · rw [if_pos huuid, huuid, hnone]
        · simp [huuid]

theorem MapFollows.deleted (hmap : MapFollows key known users progress.1) (uuid : String) :
    MapFollows key known (users.erase uuid) (KeyedMap.onDeleted progress uuid).1 := by
  unfold KeyedMap.onDeleted
  rcases hmap.place_cases uuid with ⟨place, hplace, -, hrest⟩ | ⟨hnone, hmissing, hrest⟩
  · simp only [hplace]
    refine ⟨hmap.follows.erase hrest, fun other => ?_⟩
    rw [lookup_erase_ite, lookup_erase_ite, hmap.uuidKeys]
    by_cases huuid : other = uuid <;> simp [huuid]
  · simp only [hnone]
    refine ⟨hmap.follows.erase hrest, fun other => ?_⟩
    rw [lookup_erase_ite, hmap.uuidKeys]
    by_cases huuid : other = uuid
    · subst huuid
      simp [hmissing]
    · simp [huuid]

theorem Follows.mapFollows (hfollows : Follows key known users filed) (order : UserOrder) :
    MapFollows key known users ⟨filed, .collect ((order.iter filed).map fun entry =>
        (entry.2.uuid, entry.1))⟩ where
  follows := hfollows
  uuidKeys uuid := by
    have hentry : ∀ {place : String}, (uuid, place) ∈
        ((order.iter filed).map fun entry => (entry.2.uuid, entry.1)) →
          (users.lookup uuid).bind key = some place := by
      intro place hmem
      obtain ⟨entry, hentry, heq⟩ := mem_map.1 hmem
      cases heq
      have hget := (order.mem_iter filed entry.1 entry.2).1 hentry
      obtain ⟨hby, hkey⟩ := (hfollows.represents.places _ _).1 hget
      rw [hby, bind_some, hkey]
    cases hside : (collect ((order.iter filed).map fun entry =>
        (entry.2.uuid, entry.1))).lookup uuid with
    | some place =>
      rcases lookup_extend_cases hside with hmem | hempty
      · exact (hentry hmem).symm
      · simp at hempty
    | none =>
      cases hget : users.lookup uuid with
      | none => rfl
      | some user =>
        obtain ⟨place, -, hfiled⟩ := hfollows.represents.exists_place hget
        have hiter := (order.mem_iter filed place user).2 hfiled
        rw [lookup_eq_none] at hside
        refine absurd ((mem_extend _ _ _).2 (.inl
          ⟨(user.uuid, place), mem_map.2 ⟨_, hiter, rfl⟩, ?_⟩)) hside
        exact hfollows.represents.own uuid user hget

theorem Follows.map_delta (hkeys : DistinctKeys key known)
    (hfollows : Follows key known users filed) (hfull : delta.full = none)
    (hnamed : ∀ user ∈ namedUsers key delta, known user) (order : UserOrder) :
    Follows key known (next key users delta)
      (applyUserDeltaToKeyedArcMap order key filed delta).1 := by
  have hrun := @runDelta_rel key users _
    (fun users progress => MapFollows key known users progress.1)
    (KeyedMap.onAdded key) (KeyedMap.onUpdated key) KeyedMap.onDeleted
    _ delta hfull (hfollows.mapFollows order)
  unfold applyUserDeltaToKeyedArcMap
  rw [hfull]
  refine (hrun ?_ ?_ ?_).follows
  · intro user hmem users progress hmap
    have hlisted := mem_append_left delta.updated hmem
    exact hmap.added hkeys fun htaken => hnamed user (mem_namedUsers_of_taken hlisted htaken)
  · intro user hmem users progress hmap
    have hlisted := mem_append_right delta.added hmem
    exact hmap.updated hkeys fun htaken => hnamed user (mem_namedUsers_of_taken hlisted htaken)
  · intro uuid users progress hmap
    exact hmap.deleted uuid

end KeyedMap

/-- Two users of a list have the same uuid exactly when they have the same
key. -/
def Unambiguous (key : CoreUser → Option String) (listed : List CoreUser) :
    Prop :=
  ∀ first ∈ takenUsers key listed, ∀ second ∈ takenUsers key listed,
    first.uuid = second.uuid ↔ key first = key second

theorem represents_extend {listed : List CoreUser} {storeKey : CoreUser → String}
    (hstore : ∀ user ∈ listed, key user = some (storeKey user))
    (hsame : ∀ user ∈ listed, ∀ uuid other, users.lookup uuid = some other →
      (other.uuid = user.uuid ↔ key other = key user))
    (hpairs : ∀ first ∈ listed, ∀ second ∈ listed,
      first.uuid = second.uuid ↔ key first = key second)
    (hrepresents : Represents CoreUser.uuid key users filed) :
    Represents CoreUser.uuid key (users.extend (uuidEntries listed))
      (filed.extend (listed.map fun user => (storeKey user, user))) := by
  induction listed generalizing users filed with
  | nil => exact hrepresents
  | cons user rest ih =>
    have hkey := hstore user mem_cons_self
    have hown := hsame user mem_cons_self
    rw [uuidEntries, map_cons, map_cons, extend_cons, extend_cons]
    apply ih
    · exact fun other hother => hstore other (.tail _ hother)
    · intro other hother uuid found hget
      rw [lookup_insert_ite] at hget
      split at hget
      · cases hget
        exact hpairs user mem_cons_self other (.tail _ hother)
      · exact hsame other (.tail _ hother) uuid found hget
    · exact fun first hfirst second hsecond =>
        hpairs first (.tail _ hfirst) second (.tail _ hsecond)
    · apply hrepresents.insert_same hkey
      intro uuid other hget
      rw [hown uuid other hget, hkey]

end Follows

end KeliCore
