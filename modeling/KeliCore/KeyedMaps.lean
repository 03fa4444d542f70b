/-
`apply_user_delta_to_keyed_map` and its shared twin against the table by uuid.
A side table remembers the key of every user, so no user is missed; but a user
who gives up a key removes whatever entry stands there.
-/
import KeliCore.ByUuid

namespace KeliCore

open KeyedMap Finmap
open Assignment (assigned ofTable applyLists)

/-- The table by uuid, together with the keys that were given up and have not
been taken since. -/
structure KeyLedger (κ : Type) where
  wanted : Progress (Assignment κ)
  givenUp : Finset κ

section Maps

variable {κ : Type} [DecidableEq κ]

namespace KeyLedger

/-- A uuid gives up the key it holds. -/
def release (users : Assignment κ) (givenUp : Finset κ) (uuid : String) : Finset κ :=
  match users.lookup uuid with
  | some held => insert held.1 givenUp
  | none => givenUp

/-- A user gives up its old key before it takes the new one. -/
def step (key : CoreUser → Option κ) (ledger : KeyLedger κ)
    (change : UserChange) : KeyLedger κ where
  wanted := Assignment.step key ledger.wanted change
  givenUp :=
    match Assignment.assigned key ledger.wanted.1 change with
    | some given => (release ledger.wanted.1 ledger.givenUp given.2.uuid).erase given.1
    | none =>
      match change with
      | .delete uuid => release ledger.wanted.1 ledger.givenUp uuid
      | _ => ledger.givenUp

/-- A user that is deleted holds a key that was not given up. -/
def FindsKey (ledger : KeyLedger κ) (change : UserChange) : Prop :=
  ∀ uuid place user, change = .delete uuid → ledger.wanted.1.lookup uuid = some (place, user) →
      place ∉ ledger.givenUp

/-- Nobody holds a key that was given up. -/
def AllTaken (ledger : KeyLedger κ) : Prop :=
  ∀ uuid place user, ledger.wanted.1.lookup uuid = some (place, user) → place ∉ ledger.givenUp

instance (ledger : KeyLedger κ) (change : UserChange) : Decidable (ledger.FindsKey change) :=
  match change with
  | .add _ | .update _ => isTrue (by simp [FindsKey])
  | .delete uuid =>
    decidable_of_iff (∀ held ∈ ledger.wanted.1.lookup uuid, held.1 ∉ ledger.givenUp)
      ⟨fun hall _ place user heq hget => by
        cases heq
        exact hall (place, user) hget,
      fun hfinds held hheld => hfinds uuid held.1 held.2 rfl hheld⟩

instance (ledger : KeyLedger κ) : Decidable ledger.AllTaken :=
  decidable_of_iff (∀ uuid (held : κ × CoreUser), ledger.wanted.1.lookup uuid = some held →
      held.1 ∉ ledger.givenUp) ⟨fun hall uuid place user => hall uuid (place, user),
    fun htaken uuid held => htaken uuid held.1 held.2⟩

/-- Whenever a user is deleted, and at the end for every user there is, the
last thing that happened to its key is that it was taken. -/
def KeysLastTaken (key : CoreUser → Option κ) (users : Assignment κ)
    (changes : List UserChange) : Prop :=
  Run.Meets (step key) FindsKey ⟨(users, {}), ∅⟩ changes ∧
    AllTaken (Run.exec (step key) ⟨(users, {}), ∅⟩ changes)

instance (key : CoreUser → Option κ) (users : Assignment κ)
    (changes : List UserChange) : Decidable (KeysLastTaken key users changes) :=
  inferInstanceAs (Decidable (_ ∧ _))

theorem subset_release (users : Assignment κ) (givenUp : Finset κ)
    (uuid : String) : givenUp ⊆ release users givenUp uuid := by
  unfold release
  split
  · exact Finset.subset_insert _ _
  · exact Finset.Subset.refl _

end KeyLedger

/-- The map and its side table against the ledger: the side table has the
assigned keys, and a key that someone holds has an entry until it is given
up. -/
structure Tracks (map : KeyedMap κ) (users : Assignment κ) (givenUp : Finset κ) : Prop where
  own : users.Own
  side : ∀ uuid, map.uuidKeys.lookup uuid = (users.lookup uuid).map Prod.fst
  within : Within users map.users
  gone : ∀ place ∈ givenUp, map.users.lookup place = none
  stays : ∀ uuid place user, users.lookup uuid = some (place, user) →
    place ∉ givenUp → (map.users.lookup place).isSome = true

def KeyedMap.released (map : KeyedMap κ) (uuid : String) : HashMap κ CoreUser :=
  match map.uuidKeys.lookup uuid with
  | some place => map.users.erase place
  | none => map.users

namespace Tracks

variable {map : KeyedMap κ} {users : Assignment κ} {givenUp : Finset κ}

section

variable (htracks : Tracks map users givenUp)

include htracks

open KeyLedger

variable {uuid : String} {place : κ}

theorem released_of_mem (hplace : place ∈ release users givenUp uuid) :
    (map.released uuid).lookup place = none := by
  have hside := htracks.side uuid
  unfold release at hplace
  unfold released
  cases hget : users.lookup uuid with
  | none =>
    rw [hget] at hside hplace
    rw [hside]
    exact htracks.gone place hplace
  | some held =>
    rw [hget] at hside hplace
    rw [hside]
    simp only [Option.map_some, lookup_erase_ite]
    rcases Finset.mem_insert.1 hplace with rfl | hplace
    · rw [if_pos rfl]
    · rw [htracks.gone place hplace, ite_self]

theorem released_of_not_mem (hplace : place ∉ release users givenUp uuid) :
    (map.released uuid).lookup place = map.users.lookup place := by
  have hside := htracks.side uuid
  unfold release at hplace
  unfold released
  cases hget : users.lookup uuid with
  | none =>
    rw [hget] at hside
    rw [hside]
    rfl
  | some held =>
    rw [hget] at hside hplace
    rw [hside]
    have hne : place ≠ held.1 := fun heq => hplace (heq ▸ Finset.mem_insert_self _ _)
    simp only [Option.map_some, lookup_erase_ite, if_neg hne]

theorem released_leftWithout (uuid : String) : LeftWithout uuid map.users (map.released uuid) := by
  have hside := htracks.side uuid
  unfold released
  cases hget : users.lookup uuid with
  | none =>
    rw [hget] at hside
    rw [hside]
    exact htracks.within.leftWithout_self hget
  | some held =>
    rw [hget] at hside
    rw [hside]
    exact htracks.within.leftWithout_erase hget

theorem released_stays {other : String} {user : CoreUser}
    (hget : users.lookup other = some (place, user)) (hplace : place ∉ release users givenUp uuid) :
    ((map.released uuid).lookup place).isSome = true := by
  rw [htracks.released_of_not_mem hplace]
  exact htracks.stays other place user hget fun hmem => hplace (subset_release _ _ _ hmem)

theorem assign (user : CoreUser) (place : κ) :
    Tracks ⟨(map.released user.uuid).insert place user, map.uuidKeys.insert user.uuid place⟩
      (users.insert user.uuid (place, user))
      ((release users givenUp user.uuid).erase place) where
  own := htracks.own.insert user place
  side uuid := by
    rw [lookup_insert_ite, lookup_insert_ite, htracks.side]
    split <;> rfl
  within := htracks.within.assign (htracks.released_leftWithout user.uuid)
  gone other hother := by
    obtain ⟨hne, hmem⟩ := Finset.mem_erase.1 hother
    rw [lookup_insert_ite, if_neg hne]
    exact htracks.released_of_mem hmem
  stays uuid other found hget hother := by
    by_cases hplace : other = place
    · rw [hplace, lookup_insert]
      rfl
    · have hmem := fun hmem => hother (Finset.mem_erase.2 ⟨hplace, hmem⟩)
      rw [lookup_insert_ite] at hget
      rw [lookup_insert_ite, if_neg hplace]
      split at hget
      · cases hget
        exact absurd rfl hplace
      · exact htracks.released_stays hget hmem

theorem drop (uuid : String) :
    Tracks ⟨map.released uuid, map.uuidKeys.erase uuid⟩ (users.erase uuid)
      (release users givenUp uuid) where
  own := htracks.own.erase uuid
  side other := by
    rw [lookup_erase_ite, lookup_erase_ite, htracks.side]
    split <;> rfl
  within := htracks.within.drop (htracks.released_leftWithout uuid)
  gone _ hplace := htracks.released_of_mem hplace
  stays other place found hget hplace := by
    exact htracks.released_stays (of_lookup_erase hget).2 hplace

theorem of_side {uuidKeys : HashMap String κ}
    (hside : ∀ uuid, uuidKeys.lookup uuid = map.uuidKeys.lookup uuid) :
    Tracks ⟨map.users, uuidKeys⟩ users givenUp :=
  { htracks with side := fun uuid => (hside uuid).trans (htracks.side uuid) }

end

end Tracks

/-- One change of `apply_user_delta_to_keyed_map`. -/
def mapStep (key : CoreUser → Option κ) :
    Progress (KeyedMap κ) → UserChange → Progress (KeyedMap κ) :=
  changeStep (KeyedMap.onAdded key) (KeyedMap.onUpdated key) KeyedMap.onDeleted

variable {key : CoreUser → Option κ} {filed : HashMap κ CoreUser}

section Steps

variable {ledger : KeyLedger κ} {stored : Progress (KeyedMap κ)}

theorem Tracks.step (htracks : Tracks stored.1 ledger.wanted.1 ledger.givenUp)
    (change : UserChange) : Tracks (mapStep key stored change).1
      (ledger.step key change).wanted.1 (ledger.step key change).givenUp := by
  cases change with
  | add user =>
    have hside := htracks.side user.uuid
    have hassign := htracks.assign user
    simp only [mapStep, changeStep, onAdded, KeyLedger.step,
      Assignment.step, Assignment.onAdded, assigned]
    cases hempty : user.isEmpty with
    | true => simpa using htracks
    | false =>
      cases hkey : key user with
      | none => simpa using htracks
      | some place =>
        have hassign := hassign place
        unfold released at hassign
        cases hget : stored.1.uuidKeys.lookup user.uuid <;> simpa [hget] using hassign
  | update user =>
    have hside := htracks.side user.uuid
    have hassign := htracks.assign user
    simp only [mapStep, changeStep, onUpdated, KeyLedger.step,
      Assignment.step, Assignment.onUpdated, assigned]
    cases hempty : user.isEmpty with
    | true => simpa using htracks
    | false =>
      cases hkey : key user with
      | none => simpa using htracks
      | some place =>
        cases hget : ledger.wanted.1.lookup user.uuid with
        | none =>
          rw [hget, Option.map_none] at hside
          have hsame : ∀ uuid, ((stored.1.uuidKeys.insert user.uuid place).erase
                user.uuid).lookup uuid = stored.1.uuidKeys.lookup uuid := by
            intro uuid
            rw [lookup_erase_ite, lookup_insert_ite]
            by_cases huuid : uuid = user.uuid
            · rw [if_pos huuid, huuid, hside]
            · simp [huuid]
          simpa [hside] using htracks.of_side hsame
        | some held =>
          have hassign := hassign place
          unfold released at hassign
          simpa [hside, hget] using hassign
  | delete uuid =>
    have hside := htracks.side uuid
    have hdrop := htracks.drop uuid
    simp only [mapStep, changeStep, onDeleted, KeyLedger.step,
      Assignment.step, Assignment.onDeleted, assigned]
    unfold released at hdrop
    cases hget : stored.1.uuidKeys.lookup uuid with
    | some place => simpa [hget] using hdrop
    | none =>
      simp only [hget] at hdrop ⊢
      refine hdrop.of_side fun other => ?_
      rw [lookup_erase_ite]
      by_cases huuid : other = uuid
      · rw [if_pos huuid, huuid, hget]
      · rw [if_neg huuid]

/-- The code counts as the table by uuid does, but for a deleted user whose
key was given up. -/
theorem Tracks.counts (htracks : Tracks stored.1 ledger.wanted.1 ledger.givenUp)
    (change : UserChange) :
    (ledger.FindsKey change ∧ ∃ count : CoreUserDeltaResult → CoreUserDeltaResult,
      (∃ more, ∀ result, (count result).deleted = result.deleted + more) ∧
      (mapStep key stored change).2 = count stored.2 ∧
      (ledger.step key change).wanted.2 = count ledger.wanted.2) ∨ (¬ ledger.FindsKey change ∧
      (mapStep key stored change).2 = countDeleted stored.2 false ∧
      (ledger.step key change).wanted.2 = countDeleted ledger.wanted.2 true) := by
  cases change with
  | add user =>
    left
    refine ⟨by simp [KeyLedger.FindsKey], ?_⟩
    simp only [mapStep, changeStep, onAdded, KeyLedger.step, Assignment.step, Assignment.onAdded]
    cases user.isEmpty with
    | true => exact ⟨id, ⟨0, fun _ => rfl⟩, rfl, rfl⟩
    | false =>
      cases key user with
      | none => exact ⟨id, ⟨0, fun _ => rfl⟩, rfl, rfl⟩
      | some place =>
        refine ⟨fun result => countAdded result
          (ledger.wanted.1.lookup user.uuid).isSome, ⟨0, fun result => ?_⟩, ?_, rfl⟩
        · cases (ledger.wanted.1.lookup user.uuid).isSome <;> rfl
        · have hside := htracks.side user.uuid
          cases hget : ledger.wanted.1.lookup user.uuid <;> simp [hside, hget]
  | update user =>
    left
    refine ⟨by simp [KeyLedger.FindsKey], ?_⟩
    simp only [mapStep, changeStep, onUpdated, KeyLedger.step,
      Assignment.step, Assignment.onUpdated]
    cases user.isEmpty with
    | true => exact ⟨id, ⟨0, fun _ => rfl⟩, rfl, rfl⟩
    | false =>
      cases key user with
      | none => exact ⟨fun result => countUpdated result false, ⟨0, fun _ => rfl⟩, rfl, rfl⟩
      | some place =>
        refine ⟨fun result => countUpdated result
          (ledger.wanted.1.lookup user.uuid).isSome, ⟨0, fun result => ?_⟩, ?_, ?_⟩
        · cases (ledger.wanted.1.lookup user.uuid).isSome <;> rfl
        · have hside := htracks.side user.uuid
          cases hget : ledger.wanted.1.lookup user.uuid <;> simp [hside, hget]
        · cases hget : ledger.wanted.1.lookup user.uuid <;> simp
  | delete uuid =>
    have hside := htracks.side uuid
    simp only [mapStep, changeStep, onDeleted, KeyLedger.step,
      Assignment.step, Assignment.onDeleted]
    cases hget : ledger.wanted.1.lookup uuid with
    | none =>
      left
      rw [hget] at hside
      refine ⟨?_, fun result => countDeleted result false, ⟨0, fun _ => rfl⟩, ?_, rfl⟩
      · rintro _ place user heq hfound
        cases heq
        rw [hget] at hfound
        cases hfound
      · simp [hside]
    | some held =>
      rw [hget] at hside
      by_cases hgiven : held.1 ∈ ledger.givenUp
      · right
        refine ⟨fun hfinds => hfinds uuid held.1 held.2 rfl hget hgiven, ?_, rfl⟩
        simp [hside, htracks.gone held.1 hgiven]
      · left
        have hstays := htracks.stays uuid held.1 held.2 hget hgiven
        refine ⟨?_, fun result => countDeleted result true, ⟨1, fun _ => rfl⟩, ?_, rfl⟩
        · rintro _ place user heq hfound
          cases heq
          rw [hget] at hfound
          cases hfound
          exact hgiven
        · simp [hside, hstays]

end Steps

theorem tracks_ofTable (order : HashOrder κ CoreUser) (hone : OneEntryPerUuid filed) :
    Tracks ⟨filed, .collect ((order.iter filed).map fun entry => (entry.2.uuid, entry.1))⟩
      (ofTable order filed) ∅ where
  own := ofTable_own hone
  side uuid := by
    have hmap := lookup_collect_map Prod.fst
      ((order.iter filed).map fun entry => (entry.2.uuid, entry)) uuid
    rw [List.map_map] at hmap
    exact hmap
  within := (ofTable_exactly hone).within
  gone := by simp
  stays uuid place user hget _ := by
    rw [((ofTable_lookup hone uuid place user).1 hget).1]
    rfl

theorem applyUserDeltaToKeyedArcMap_eq_exec {key : CoreUser → Option κ}
    (order : HashOrder κ CoreUser)
    (filed : HashMap κ CoreUser) {delta : CoreUserDelta} (hfull : delta.full = none) :
    ∃ final, final = Run.exec (mapStep key) (⟨filed, .collect ((order.iter filed).map fun entry =>
          (entry.2.uuid, entry.1))⟩, {}) delta.changes ∧
      applyUserDeltaToKeyedArcMap order key filed delta =
        (final.1.users, { final.2 with activeUsers := final.1.users.len }) := by
  refine ⟨_, rfl, ?_⟩
  unfold applyUserDeltaToKeyedArcMap
  rw [hfull]
  simp only [runDelta_eq_exec]
  rfl

theorem KeyLedger.exec_wanted (users : Assignment κ) (changes : List UserChange) :
    (Run.exec (step key) ⟨(users, {}), ∅⟩ changes).wanted =
      Run.exec (Assignment.step key) (users, {}) changes :=
  @Run.exec_map _ _ (step key) _ (Assignment.step key) wanted
    (fun _ _ => rfl) ⟨(users, {}), ∅⟩ changes

/-- The run of the code beside the ledger: it counts as it should, or it has
missed a deleted user. -/
theorem Tracks.run {key : CoreUser → Option κ}
    {stored : Progress (KeyedMap κ)} {ledger : KeyLedger κ}
    (htracks : Tracks stored.1 ledger.wanted.1 ledger.givenUp)
    (hcounts : stored.2 = ledger.wanted.2) (changes : List UserChange) :
    ∃ final last, final = Run.exec (mapStep key) stored changes ∧
      last = Run.exec (KeyLedger.step key) ledger changes ∧
      Tracks final.1 last.wanted.1 last.givenUp ∧
      ((Run.Meets (KeyLedger.step key) KeyLedger.FindsKey ledger changes ∧
          final.2 = last.wanted.2) ∨
        (¬ Run.Meets (KeyLedger.step key) KeyLedger.FindsKey ledger changes ∧
          final.2.deleted < last.wanted.2.deleted)) := by
  refine ⟨_, _, rfl, rfl, ?_⟩
  have hrun := @Run.exec_kept_or_broken _ _ (mapStep key) _ (KeyLedger.step key) KeyLedger.FindsKey
    (fun stored ledger => Tracks stored.1 ledger.wanted.1 ledger.givenUp ∧
      stored.2 = ledger.wanted.2)
    (fun stored ledger => Tracks stored.1 ledger.wanted.1 ledger.givenUp ∧
      stored.2.deleted < ledger.wanted.2.deleted) ?_ ?_ ?_ stored ledger ⟨htracks, hcounts⟩ changes
  · rcases hrun with ⟨hmeets, hend, heq⟩ | ⟨hmeets, hend, hless⟩
    · exact ⟨hend, .inl ⟨hmeets, heq⟩⟩
    · exact ⟨hend, .inr ⟨hmeets, hless⟩⟩
  · rintro stored ledger change ⟨htracks, hcounts⟩ hfinds
    refine ⟨htracks.step change, ?_⟩
    rcases htracks.counts change with ⟨-, count, -, hstored, hwanted⟩ | hmiss
    · rw [hstored, hwanted, hcounts]
    · exact absurd hfinds hmiss.1
  · rintro stored ledger change ⟨htracks, hcounts⟩ hmissing
    refine ⟨htracks.step change, ?_⟩
    rcases htracks.counts change with hfinds | ⟨-, hstored, hwanted⟩
    · exact absurd hfinds.1 hmissing
    · rw [hstored, hwanted, hcounts]
      simp [countDeleted]
  · rintro stored ledger change ⟨htracks, hless⟩
    refine ⟨htracks.step change, ?_⟩
    rcases htracks.counts change with
      ⟨-, count, ⟨more, hmore⟩, hstored, hwanted⟩ | ⟨-, hstored, hwanted⟩
    · rw [hstored, hwanted, hmore, hmore]
      omega
    · rw [hstored, hwanted]
      simp only [countDeleted, Bool.false_eq_true, if_false, if_true]
      omega

/-- A map whose keys in use were all taken last holds what is assigned. -/
theorem Tracks.exactly {givenUp : Finset κ} {map : KeyedMap κ} {users : Assignment κ}
    (htracks : Tracks map users givenUp) (hplaces : users.DistinctPlaces)
    (htaken : ∀ uuid place user, users.lookup uuid = some (place, user) →
      place ∉ givenUp) : FiledExactly users map.users := by
  intro place user
  refine ⟨htracks.within place user, fun hget => ?_⟩
  have hstays := htracks.stays _ place user hget (htaken _ place user hget)
  obtain ⟨found, hfound⟩ := Option.isSome_iff_exists.1 hstays
  have hassigned := htracks.within place found hfound
  rw [hplaces _ _ place found user hassigned hget, hget] at hassigned
  cases hassigned
  exact hfound

/-- Whatever the delta, the map holds nothing but what is assigned. -/
theorem applyUserDeltaToKeyedArcMap_within {key : CoreUser → Option κ}
    (order : HashOrder κ CoreUser) {filed : HashMap κ CoreUser} (hone : OneEntryPerUuid filed)
    {delta : CoreUserDelta} (hfull : delta.full = none) :
    Within (applyLists key (ofTable order filed) delta).1
      (applyUserDeltaToKeyedArcMap order key filed delta).1 := by
  obtain ⟨_, _, rfl, rfl, htracks, -⟩ := @Tracks.run _ _ key (_, {}) ⟨(ofTable order filed, {}), ∅⟩
      (tracks_ofTable order hone) rfl delta.changes
  obtain ⟨_, rfl, heq⟩ := @applyUserDeltaToKeyedArcMap_eq_exec _ _ key order filed delta hfull
  rw [heq, applyLists, ← KeyLedger.exec_wanted]
  exact htracks.within

/-- The maps do what they should exactly when the last thing that happened to
a key in use is that it was taken. -/
theorem applyUserDeltaToKeyedArcMap_endsWith_iff (order : HashOrder κ CoreUser)
    (hone : OneEntryPerUuid filed) {delta : CoreUserDelta} (hfull : delta.full = none)
    (hplaces : (applyLists key (ofTable order filed)
      delta).1.DistinctPlaces) : EndsWith (applyUserDeltaToKeyedArcMap order key filed delta)
        (applyLists key (ofTable order filed) delta) ↔
      KeyLedger.KeysLastTaken key (ofTable order filed)
        delta.changes := by
  obtain ⟨final, last, hfinal, hlast, htracks, hcases⟩ :=
    @Tracks.run _ _ key (_, {}) ⟨(ofTable order filed, {}), ∅⟩
      (tracks_ofTable order hone) rfl delta.changes
  obtain ⟨_, rfl, heq⟩ := @applyUserDeltaToKeyedArcMap_eq_exec _ _ key order filed delta hfull
  have hwanted : last.wanted = applyLists key (ofTable order filed) delta := by
    rw [hlast, KeyLedger.exec_wanted, applyLists]
  rw [← hwanted] at hplaces
  rw [heq, ← hfinal, ← hwanted, KeyLedger.KeysLastTaken, ← hlast]
  constructor
  · rintro ⟨hexactly, hcounts⟩
    refine ⟨?_, fun uuid place user hget hgiven => ?_⟩
    · rcases hcases with ⟨hmeets, -⟩ | ⟨-, hless⟩
      · exact hmeets
      · have hdeleted := congrArg CoreUserDeltaResult.deleted hcounts
        simp only at hdeleted
        omega
    · have huuid := htracks.own uuid place user hget
      rw [← huuid] at hget
      have hfiled := (hexactly place user).2 hget
      rw [htracks.gone place hgiven] at hfiled
      simp at hfiled
  · rintro ⟨hmeets, htaken⟩
    have hexactly := htracks.exactly hplaces htaken
    rcases hcases with ⟨-, hcounts⟩ | ⟨hnot, -⟩
    · refine ⟨hexactly, ?_⟩
      rw [hcounts, hexactly.len_eq htracks.own]
    · exact absurd hmeets hnot

end Maps

end KeliCore
