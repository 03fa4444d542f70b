/-
Keyed user tables against the table the panel has in mind: one user per uuid,
filed under the key of its credential.  An incremental delta is read as a list
of changes to that table; the code makes the same changes on its own map,
where a key can be taken from a user who still holds it.
-/
import KeliCore.Run
import KeliCore.TableSpec

namespace KeliCore

open Run Finmap List

/-- One entry of the lists of an incremental delta. -/
inductive UserChange where
  | add (user : CoreUser)
  | update (user : CoreUser)
  | delete (uuid : String)

/-- The changes in the order of the source: added, updated, deleted. -/
def CoreUserDelta.changes (delta : CoreUserDelta) : List UserChange :=
  delta.added.map .add ++ delta.updated.map .update ++ delta.deleted.map .delete

/-- One step of a delta, by the list it comes from. -/
def changeStep {τ : Type} (onAdded onUpdated : Progress τ → CoreUser → Progress τ)
    (onDeleted : Progress τ → String → Progress τ) (progress : Progress τ) : UserChange → Progress τ
  | .add user => onAdded progress user
  | .update user => onUpdated progress user
  | .delete uuid => onDeleted progress uuid

theorem runDelta_eq_exec {τ : Type} (onAdded onUpdated : Progress τ → CoreUser → Progress τ)
    (onDeleted : Progress τ → String → Progress τ) (table : τ) (delta : CoreUserDelta) :
    runDelta onAdded onUpdated onDeleted table delta =
      Run.exec (changeStep onAdded onUpdated onDeleted) (table, {})
        delta.changes := by
  simp [runDelta, exec, CoreUserDelta.changes, foldl_append, foldl_map, changeStep]

/-- Every uuid with its user and the user's key. -/
abbrev Assignment (κ : Type) := HashMap String (κ × CoreUser)

variable {user : CoreUser} {uuid : String}

namespace Assignment

variable {κ : Type}

/-- What a table holds, by uuid. -/
def ofTable [DecidableEq κ] (order : HashOrder κ CoreUser)
    (users : HashMap κ CoreUser) : Assignment κ :=
  .collect ((order.iter users).map fun entry => (entry.2.uuid, entry))

section Steps

variable (key : CoreUser → Option κ)

/-- A user without a key cannot be filed and is passed over. -/
def onAdded (progress : Progress (Assignment κ)) (user : CoreUser) : Progress (Assignment κ) :=
  if user.isEmpty then progress
  else
    match key user with
    | none => progress
    | some place =>
      (progress.1.insert user.uuid (place, user),
        countAdded progress.2 (progress.1.lookup user.uuid).isSome)

def onUpdated (progress : Progress (Assignment κ)) (user : CoreUser) : Progress (Assignment κ) :=
  if user.isEmpty then progress
  else
    match key user with
    | none => (progress.1, countUpdated progress.2 false)
    | some place =>
      if (progress.1.lookup user.uuid).isSome then
        (progress.1.insert user.uuid (place, user), countUpdated progress.2 true)
      else (progress.1, countUpdated progress.2 false)

def onDeleted (progress : Progress (Assignment κ)) (uuid : String) : Progress (Assignment κ) :=
  (progress.1.erase uuid, countDeleted progress.2 (progress.1.lookup uuid).isSome)

/-- A change of the table by uuid, with its counts. -/
def step (progress : Progress (Assignment κ)) (change : UserChange) : Progress (Assignment κ) :=
  changeStep (onAdded key) (onUpdated key) onDeleted progress change

/-- The result of an incremental delta by uuid. -/
def applyLists (users : Assignment κ) (delta : CoreUserDelta) : Progress (Assignment κ) :=
  Run.exec (step key) (users, {}) delta.changes

/-- The user a change puts in the table, and its key. -/
def assigned (users : Assignment κ) : UserChange → Option (κ × CoreUser)
  | .add user => if user.isEmpty then none else (key user).map fun place => (place, user)
  | .update user =>
    if user.isEmpty || (users.lookup user.uuid).isNone then none
    else (key user).map fun place => (place, user)
  | .delete _ => none

/-- A change takes no key that another uuid holds at that moment. -/
def TakesFreeKey (users : Assignment κ) (change : UserChange) : Prop :=
  ∀ place user, assigned key users change = some (place, user) →
    ∀ uuid holder, users.lookup uuid = some (place, holder) → uuid = user.uuid

def KeysTakenFree (users : Assignment κ) (changes : List UserChange) : Prop :=
  Run.Meets (step key) (fun wanted => TakesFreeKey key wanted.1) (users, {}) changes

end Steps

/-- No key is held twice. -/
def DistinctPlaces (users : Assignment κ) : Prop :=
  ∀ first second place user other, users.lookup first = some (place, user) →
    users.lookup second = some (place, other) → first = second

section Decidable

variable [DecidableEq κ]

instance (users : Assignment κ) : Decidable users.DistinctPlaces :=
  decidable_of_iff (∀ first (entry : κ × CoreUser), users.lookup first = some entry →
      ∀ second (other : κ × CoreUser), users.lookup second = some other →
        entry.1 = other.1 → first = second)
    ⟨fun hall first second place user other hfirst hsecond =>
      hall first (place, user) hfirst second (place, other) hsecond rfl,
    fun hplaces first entry hfirst second other hsecond hplace =>
      hplaces first second entry.1 entry.2 other.2 hfirst (by rw [hsecond, hplace])⟩

instance (key : CoreUser → Option κ) (users : Assignment κ)
    (change : UserChange) : Decidable (TakesFreeKey key users change) :=
  decidable_of_iff (∀ given ∈ assigned key users change,
      ∀ uuid (held : κ × CoreUser), users.lookup uuid = some held →
        held.1 = given.1 → uuid = given.2.uuid)
    ⟨fun hall place user hassigned uuid holder hget =>
      hall (place, user) hassigned uuid (place, holder) hget rfl,
    fun hfree given hgiven uuid held hget hplace =>
      hfree given.1 given.2 hgiven uuid held.2 (by rw [hget, ← hplace])⟩

instance (key : CoreUser → Option κ) (users : Assignment κ)
    (changes : List UserChange) : Decidable (KeysTakenFree key users changes) :=
  inferInstanceAs (Decidable (Run.Meets _ _ _ _))

end Decidable

/-- Each uuid holds its own user. -/
def Own (users : Assignment κ) : Prop :=
  ∀ uuid place user, users.lookup uuid = some (place, user) → user.uuid = uuid

variable {users : Assignment κ}

def listedUser : UserChange → Option CoreUser
  | .add user | .update user => some user
  | .delete _ => none

def lastTaken (key : CoreUser → Option κ) (uuid : String)
    (listed : List CoreUser) : Option CoreUser :=
  (listed.filter fun user => !user.isEmpty && (key user).isSome && user.uuid == uuid).getLast?

theorem lastTaken_concat (key : CoreUser → Option κ) (uuid : String)
    (listed : List CoreUser) (user : CoreUser) : lastTaken key uuid (listed ++ [user]) =
      if !user.isEmpty && (key user).isSome && user.uuid == uuid then
        some user
      else lastTaken key uuid listed := by
  unfold lastTaken
  rw [filter_append]
  split
  next htaken => rw [filter_singleton, cond_eq_ite, if_pos htaken, getLast?_concat]
  next htaken => rw [filter_singleton, cond_eq_ite, if_neg htaken, append_nil]

variable {change : UserChange} {entry : κ × CoreUser}

theorem assigned_eq_some {place : κ} {key : CoreUser → Option κ}
    (hassigned : assigned key users change = some (place, user)) :
    listedUser change = some user ∧ user.isEmpty = false ∧ key user = some place := by
  cases change with
  | add listed | update listed =>
    simp only [assigned] at hassigned
    split at hassigned
    · simp at hassigned
    next hempty =>
      obtain ⟨_, hkey, heq⟩ := Option.map_eq_some_iff.1 hassigned
      cases heq
      exact ⟨rfl, by simp_all, hkey⟩
  | delete uuid => simp [assigned] at hassigned

/-- A user the table takes is assigned its key, unless it is updated and not
there. -/
theorem assigned_eq_none {key : CoreUser → Option κ} (hassigned : assigned key users change = none)
    (hlisted : listedUser change = some user) (hempty : user.isEmpty = false)
    (hkey : (key user).isSome = true) : users.lookup user.uuid = none := by
  obtain ⟨place, hkey⟩ := Option.isSome_iff_exists.1 hkey
  cases change with
  | add added =>
    cases hlisted
    simp [assigned, hempty, hkey] at hassigned
  | update updated =>
    cases hlisted
    simpa [assigned, hempty, hkey] using hassigned
  | delete uuid => simp [listedUser] at hlisted

theorem step_table (key : CoreUser → Option κ)
    (wanted : Progress (Assignment κ)) (change : UserChange) : (step key wanted change).1 =
      match assigned key wanted.1 change with
      | some given => wanted.1.insert given.2.uuid given
      | none =>
        match change with
        | .delete uuid => wanted.1.erase uuid
        | _ => wanted.1 := by
  cases change with
  | add user =>
    cases hempty : user.isEmpty <;> cases hkey : key user <;>
      simp [step, changeStep, onAdded, assigned, hempty, hkey]
  | update user =>
    cases hempty : user.isEmpty <;> cases hkey : key user <;>
      cases hget : wanted.1.lookup user.uuid <;>
      simp [step, changeStep, onUpdated, assigned, hempty, hkey, hget]
  | delete uuid => rfl

theorem exec_lastTaken {listed : CoreUser} (key : CoreUser → Option κ) (users : Assignment κ)
    (changes : List UserChange)
    (hget : (Run.exec (step key) (users, {}) changes).1.lookup uuid = some entry)
    (hlisted : lastTaken key uuid (changes.filterMap listedUser) =
      some listed) : key listed = some entry.1 := by
  induction changes using reverseRecOn generalizing entry with
  | nil => simp [lastTaken] at hlisted
  | append_singleton changes change ih =>
    have hlast : [change].filterMap listedUser =
        (listedUser change).toList := by cases change <;> rfl
    rw [exec_concat, step_table] at hget
    rw [filterMap_append, hlast] at hlisted
    cases hassigned : assigned key (exec (step key) (users, {}) changes).1 change with
    | some given =>
      obtain ⟨huser, hempty, hkey⟩ := assigned_eq_some hassigned
      rw [hassigned, lookup_insert_ite] at hget
      rw [huser, Option.toList_some, lastTaken_concat] at hlisted
      by_cases huuid : uuid = given.2.uuid
      · rw [if_pos huuid] at hget
        simp only [hempty, hkey, huuid, Bool.not_false, Option.isSome_some,
          beq_self_eq_true, Bool.and_self, if_true] at hlisted
        cases hget
        cases hlisted
        exact hkey
      · have hother : (given.2.uuid == uuid) = false := by simpa using Ne.symm huuid
        rw [if_neg huuid] at hget
        simp only [hother, Bool.and_false, Bool.false_eq_true, if_false] at hlisted
        exact ih hget hlisted
    | none =>
      rw [hassigned] at hget
      cases hchange : listedUser change with
      | none =>
        rw [hchange, Option.toList_none, append_nil] at hlisted
        cases change with
        | delete gone =>
          simp only [lookup_erase_ite] at hget
          split at hget
          · simp at hget
          · exact ih hget hlisted
        | add user | update user => simp [listedUser] at hchange
      | some user =>
        have hsame : (exec (step key) (users, {}) changes).1.lookup uuid = some entry := by
          cases change with
          | delete gone => simp [listedUser] at hchange
          | add user | update user => exact hget
        rw [hchange, Option.toList_some, lastTaken_concat] at hlisted
        split at hlisted
        · -- listed and taken, yet not assigned: it was not there
          rename_i htaken
          simp only [Bool.and_eq_true, Bool.not_eq_true', beq_iff_eq] at htaken
          have hnone := assigned_eq_none hassigned hchange htaken.1.1 htaken.1.2
          rw [htaken.2, hsame] at hnone
          simp at hnone
        · exact ih hsame hlisted

theorem Own.insert (hown : users.Own) (user : CoreUser) (place : κ) :
    Own (users.insert user.uuid (place, user)) := by
  intro uuid other found hget
  rw [lookup_insert_ite] at hget
  split at hget
  next huuid =>
    cases hget
    exact huuid.symm
  · exact hown uuid other found hget

theorem Own.erase (hown : users.Own) (gone : String) : Own (users.erase gone) := by
  intro uuid other found hget
  exact hown uuid other found (of_lookup_erase hget).2

theorem own_exec (key : CoreUser → Option κ) (hown : users.Own) (changes : List UserChange) :
    (Run.exec (step key) (users, {}) changes).1.Own := by
  refine @exec_always _ _ (step key) (fun wanted => wanted.1.Own) ?_ (users, {}) hown changes
  intro wanted change hown
  rw [step_table]
  split
  · exact hown.insert _ _
  · split
    · exact hown.erase _
    · exact hown

/-- After an incremental delta, no deleted uuid is assigned, and an assigned
key is that of the last user listed. -/
theorem applyLists_lookup {delta : CoreUserDelta} {key : CoreUser → Option κ}
    (hget : (applyLists key users delta).1.lookup uuid = some entry) : uuid ∉ delta.deleted ∧
      ∀ listed, lastTaken key uuid (delta.added ++ delta.updated) =
        some listed → key listed = some entry.1 := by
  have hdeleted : ∀ (uuids : List String) (wanted : Progress (Assignment κ)),
      (exec (step key) wanted (uuids.map .delete)).1 = wanted.1.eraseAll uuids := by
    intro uuids
    induction uuids with
    | nil => exact fun _ => rfl
    | cons gone rest ih => exact fun wanted => ih _
  have hedits : (delta.added.map UserChange.add ++
      delta.updated.map UserChange.update).filterMap listedUser = delta.added ++ delta.updated := by
    simp [filterMap_append, filterMap_map, Function.comp_def, listedUser]
  unfold applyLists CoreUserDelta.changes at hget
  rw [exec_append, hdeleted, lookup_eraseAll] at hget
  split at hget
  · simp at hget
  next hmem =>
    refine ⟨hmem, fun listed hlisted => ?_⟩
    rw [← hedits] at hlisted
    exact exec_lastTaken key users _ hget hlisted

end Assignment

section Entries

variable {κ : Type} [DecidableEq κ] {users : Assignment κ}
    {filed rest : HashMap κ CoreUser}

def OneEntryPerUuid (filed : HashMap κ CoreUser) : Prop :=
  ∀ first second user other, filed.lookup first = some user →
    filed.lookup second = some other → user.uuid = other.uuid → first = second

instance (filed : HashMap κ CoreUser) : Decidable (OneEntryPerUuid filed) :=
  decidable_of_iff (∀ first user, filed.lookup first = some user →
      ∀ second other, filed.lookup second = some other →
        user.uuid = other.uuid → first = second) ⟨fun hall first second user other hfirst hsecond =>
      hall first user hfirst second other hsecond,
    fun hone first user hfirst second other hsecond => hone first second user other hfirst hsecond⟩

/-- Every entry of the table is the one its uuid is assigned. -/
def Within (users : Assignment κ) (filed : HashMap κ CoreUser) : Prop :=
  ∀ place user, filed.lookup place = some user → users.lookup user.uuid = some (place, user)

/-- The table holds what is assigned, under the assigned keys. -/
def FiledExactly (users : Assignment κ) (filed : HashMap κ CoreUser) : Prop :=
  ∀ place user, filed.lookup place = some user ↔ users.lookup user.uuid = some (place, user)

/-- An assigned uuid without an entry. -/
def LostUuid (users : Assignment κ) (filed : HashMap κ CoreUser) (uuid : String) : Prop :=
  (users.lookup uuid).isSome = true ∧
    ∀ place user, filed.lookup place = some user → user.uuid ≠ uuid

/-- What is left has no entry of this uuid and no new ones. -/
def LeftWithout (uuid : String) (filed rest : HashMap κ CoreUser) : Prop :=
  ∀ place user, rest.lookup place = some user → filed.lookup place = some user ∧ user.uuid ≠ uuid

section

variable (hwithin : Within users filed)

include hwithin

theorem Within.oneEntry : OneEntryPerUuid filed := by
  intro first second user other hfirst hsecond huuid
  have hfirst := hwithin first user hfirst
  have hsecond := hwithin second other hsecond
  rw [huuid, hsecond] at hfirst
  exact (congrArg Prod.fst (Option.some.inj hfirst)).symm

variable {place : κ}

theorem Within.assign (hrest : LeftWithout user.uuid filed rest) :
    Within (users.insert user.uuid (place, user)) (rest.insert place user) := by
  intro other found hget
  rw [lookup_insert_ite] at hget
  split at hget
  next hplace =>
    cases hget
    rw [hplace, lookup_insert]
  · obtain ⟨hfiled, hne⟩ := hrest other found hget
    rw [lookup_insert_of_ne _ hne]
    exact hwithin other found hfiled

theorem Within.drop (hrest : LeftWithout uuid filed rest) : Within (users.erase uuid) rest := by
  intro place user hget
  obtain ⟨hfiled, hne⟩ := hrest place user hget
  rw [lookup_erase_ite, if_neg hne]
  exact hwithin place user hfiled

theorem Within.leftWithout_erase (hget : users.lookup uuid = some (place, user)) :
    LeftWithout uuid filed (filed.erase place) := by
  intro other found hfound
  obtain ⟨hplace, hfound⟩ := of_lookup_erase hfound
  refine ⟨hfound, fun huuid => hplace ?_⟩
  have hfound := hwithin other found hfound
  rw [huuid, hget] at hfound
  exact (congrArg Prod.fst (Option.some.inj hfound)).symm

theorem Within.leftWithout_self (hget : users.lookup uuid = none) :
    LeftWithout uuid filed filed := by
  refine fun place user hfound => ⟨hfound, fun huuid => ?_⟩
  have hfound := hwithin place user hfound
  rw [huuid, hget] at hfound
  simp at hfound

end

theorem FiledExactly.within (hexact : FiledExactly users filed) : Within users filed :=
  fun place user => (hexact place user).1

theorem FiledExactly.not_lost (hown : users.Own)
    (hexact : FiledExactly users filed) (uuid : String) : ¬ LostUuid users filed uuid := by
  rintro ⟨hsome, hmissing⟩
  obtain ⟨⟨place, user⟩, hget⟩ := Option.isSome_iff_exists.1 hsome
  have huuid := hown uuid place user hget
  rw [← huuid] at hget
  exact hmissing place user ((hexact place user).2 hget) huuid

theorem FiledExactly.assign {place : κ} (hexact : FiledExactly users filed)
    (hfree : ∀ uuid holder, users.lookup uuid = some (place, holder) →
      uuid = user.uuid) (hrest : LeftWithout user.uuid filed rest)
    (hkept : ∀ other found, filed.lookup other = some found →
      found.uuid ≠ user.uuid → rest.lookup other = some found) :
    FiledExactly (users.insert user.uuid (place, user)) (rest.insert place user) := by
  intro other found
  refine ⟨hexact.within.assign hrest other found, fun hget => ?_⟩
  rw [lookup_insert_ite] at hget
  rw [lookup_insert_ite]
  split at hget
  · cases hget
    rw [if_pos rfl]
  next huuid =>
    have hother : other ≠ place := by
      rintro rfl
      exact huuid (hfree found.uuid found hget)
    rw [if_neg hother]
    exact hkept other found ((hexact other found).2 hget) huuid

theorem FiledExactly.drop (hexact : FiledExactly users filed)
    (hrest : LeftWithout uuid filed rest) (hkept : ∀ other found, filed.lookup other = some found →
      found.uuid ≠ uuid → rest.lookup other = some found) :
    FiledExactly (users.erase uuid) rest := by
  intro other found
  refine ⟨hexact.within.drop hrest other found, fun hget => ?_⟩
  obtain ⟨huuid, hget⟩ := of_lookup_erase hget
  exact hkept other found ((hexact other found).2 hget) huuid

variable {order : HashOrder κ CoreUser}

theorem ofTable_lookup
    (hone : OneEntryPerUuid filed) (uuid : String) (place : κ) (user : CoreUser) :
    (Assignment.ofTable order filed).lookup uuid = some (place, user) ↔
      filed.lookup place = some user ∧ user.uuid = uuid := by
  have hlisted : ∀ {uuid entry}, (uuid, entry) ∈
      ((order.iter filed).map fun entry => (entry.2.uuid, entry)) ↔
        filed.lookup entry.1 = some entry.2 ∧ entry.2.uuid = uuid := by
    intro uuid entry
    rw [← order.mem_iter, mem_map]
    constructor
    · rintro ⟨found, hfound, heq⟩
      cases heq
      exact ⟨hfound, rfl⟩
    · rintro ⟨hentry, rfl⟩
      exact ⟨entry, hentry, rfl⟩
  have hfound : ∀ {uuid entry}, (Assignment.ofTable order filed).lookup uuid = some entry →
        filed.lookup entry.1 = some entry.2 ∧ entry.2.uuid = uuid := by
    intro uuid entry hget
    rcases lookup_extend_cases hget with hmem | hempty
    · exact hlisted.1 hmem
    · simp at hempty
  refine ⟨fun hget => hfound hget, ?_⟩
  rintro ⟨hget, rfl⟩
  have hentry := (@hlisted user.uuid (place, user)).2 ⟨hget, rfl⟩
  have hmem : user.uuid ∈ Assignment.ofTable order filed :=
    (mem_extend _ _ _).2 (.inl ⟨_, hentry, rfl⟩)
  obtain ⟨entry, hentry⟩ := mem_iff.1 hmem
  obtain ⟨hplace, huuid⟩ := hfound hentry
  -- one entry per uuid: it is the same one
  have hsame := hone entry.1 place entry.2 user hplace hget huuid
  rw [hsame, hget] at hplace
  rw [hentry, ← hsame, Option.some.inj hplace]

theorem ofTable_exactly (hone : OneEntryPerUuid filed) :
    FiledExactly (Assignment.ofTable order filed) filed := by
  intro place user
  rw [ofTable_lookup hone]
  simp

theorem ofTable_own {order : HashOrder κ CoreUser} (hone : OneEntryPerUuid filed) :
    (Assignment.ofTable order filed).Own :=
  fun uuid place user hget => ((ofTable_lookup hone uuid place user).1 hget).2

theorem FiledExactly.len_eq (hown : users.Own)
    (hexact : FiledExactly users filed) : filed.len = users.len := by
  have hkeys : users.keys = filed.keys.image fun place =>
        ((filed.lookup place).map CoreUser.uuid).getD "" := by
    ext uuid
    simp only [Finmap.mem_keys, Finset.mem_image, mem_iff]
    constructor
    · rintro ⟨⟨place, user⟩, hget⟩
      have huuid := hown uuid place user hget
      rw [← huuid] at hget
      have hfiled := (hexact place user).2 hget
      exact ⟨place, ⟨user, hfiled⟩, by simp [hfiled, huuid]⟩
    · rintro ⟨place, ⟨user, hfiled⟩, rfl⟩
      refine ⟨(place, user), ?_⟩
      rw [hfiled]
      exact (hexact place user).1 hfiled
  unfold len
  rw [hkeys, Finset.card_image_of_injOn]
  intro first hfirst second hsecond heq
  obtain ⟨user, hfirst⟩ := mem_iff.1 (Finmap.mem_keys.1 hfirst)
  obtain ⟨other, hsecond⟩ := mem_iff.1 (Finmap.mem_keys.1 hsecond)
  exact hexact.within.oneEntry first second user other hfirst hsecond
    (by simpa [hfirst, hsecond] using heq)

/-- What a keyed table should be after an incremental delta. -/
structure EndsWith (outcome : Progress (HashMap κ CoreUser))
    (wanted : Progress (Assignment κ)) : Prop where
  exactly : FiledExactly wanted.1 outcome.1
  counts : outcome.2 = { wanted.2 with activeUsers := wanted.1.len }

end Entries

end KeliCore
