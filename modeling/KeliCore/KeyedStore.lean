/-
`UserStore::apply_keyed_delta` against the table by uuid.  The store looks for
the old entry of a user by walking over the map, so a user whose key was taken
is lost: later changes of that user are counted as misses.
-/
import KeliCore.ByUuid

namespace KeliCore

open Assignment Finmap CoreUserDeltaResult

variable {filed : HashMap String CoreUser}

/-- The changes that found no entry. -/
def CoreUserDeltaResult.misses (result : CoreUserDeltaResult) : Nat :=
  result.added + result.missingUpdated + result.missingDeleted

section Misses

open CoreUserDeltaResult

variable (result : CoreUserDeltaResult) (existed : Bool)

@[simp] theorem misses_countAdded :
    (countAdded result existed).misses = result.misses + (!existed).toNat := by
  cases existed with
  | true => simp [countAdded, misses]
  | false =>
    simp [countAdded, misses]
    omega

@[simp] theorem misses_countUpdated :
    (countUpdated result existed).misses = result.misses + (!existed).toNat := by
  cases existed with
  | true => simp [countUpdated, misses]
  | false =>
    simp [countUpdated, misses]
    omega

@[simp] theorem misses_countDeleted :
    (countDeleted result existed).misses = result.misses + (!existed).toNat := by
  cases existed with
  | true => simp [countDeleted, misses]
  | false =>
    simp [countDeleted, misses]
    omega

end Misses

section Store

/-- The store and the table by uuid agree, in what they hold and in what they
have counted. -/
structure InStep (stored : Progress (HashMap String CoreUser))
    (wanted : Progress (Assignment String)) : Prop where
  own : wanted.1.Own
  exactly : FiledExactly wanted.1 stored.1
  counts : stored.2 = wanted.2

/-- The store has lost a user, or has already missed it. -/
structure OutOfStep (stored : Progress (HashMap String CoreUser))
    (wanted : Progress (Assignment String)) : Prop where
  within : Within wanted.1 stored.1
  misses : wanted.2.misses ≤ stored.2.misses
  astray : (∃ uuid, LostUuid wanted.1 stored.1 uuid) ∨ wanted.2.misses < stored.2.misses

/-- One change of `UserStore::apply_keyed_delta`. -/
def storeStep (order : UserOrder) (key : CoreUser → String) :
    Progress (HashMap String CoreUser) → UserChange → Progress (HashMap String CoreUser) :=
  changeStep (UserStore.onAdded order key) (UserStore.onUpdated order key)
    (UserStore.onDeleted order)

variable {users : Assignment String} {stored : Progress (HashMap String CoreUser)}
  {wanted : Progress (Assignment String)} {key : CoreUser → String} {user : CoreUser}
  {order : UserOrder} {uuid : String} {rest : HashMap String CoreUser} {delta : CoreUserDelta}

theorem Within.removeArc (hwithin : Within users filed) (order : UserOrder) (uuid : String) :
    (∃ rest, removeArcUserByUuid order filed uuid = some rest ∧
      (users.lookup uuid).isSome = true ∧ ¬ LostUuid users filed uuid ∧
      LeftWithout uuid filed rest ∧
      ∀ place user, filed.lookup place = some user → user.uuid ≠ uuid →
        rest.lookup place = some user) ∨ (removeArcUserByUuid order filed uuid = none ∧
      LeftWithout uuid filed filed) := by
  rcases removeArcUserByUuid_cases order filed uuid with
    ⟨place, user, hget, rfl, heq⟩ | ⟨heq, hmissing⟩
  · left
    have hassigned := hwithin place user hget
    refine ⟨_, heq, by rw [hassigned]; rfl, fun hlost => hlost.2 place user hget rfl,
      hwithin.leftWithout_erase hassigned, fun other found hfound hne => ?_⟩
    have hplace : other ≠ place := by
      rintro rfl
      rw [hget] at hfound
      exact hne (congrArg CoreUser.uuid (Option.some.inj hfound)).symm
    rw [lookup_erase_ite, if_neg hplace]
    exact hfound
  · exact .inr ⟨heq, fun place user hget => ⟨hget, hmissing place user hget⟩⟩

section

variable (hstep : InStep stored wanted)

include hstep

theorem InStep.removeArc (order : UserOrder) (uuid : String) :
    ∃ rest, (removeArcUserByUuid order stored.1 uuid =
        if (wanted.1.lookup uuid).isSome then some rest else none) ∧
      ((wanted.1.lookup uuid).isSome = false → rest = stored.1) ∧ LeftWithout uuid stored.1 rest ∧
      ∀ place user, stored.1.lookup place = some user → user.uuid ≠ uuid →
        rest.lookup place = some user := by
  rcases hstep.exactly.within.removeArc order uuid with
    ⟨rest, heq, hsome, -, hrest, hkept⟩ | ⟨heq, hrest⟩
  · exact ⟨rest, by rw [heq, if_pos hsome], by simp [hsome], hrest, hkept⟩
  · have hnone : (wanted.1.lookup uuid).isSome = false := by
      by_contra hsome
      exact hstep.exactly.not_lost hstep.own uuid
        ⟨Bool.eq_true_of_not_eq_false hsome, fun place user hget => (hrest place user hget).2⟩
    exact ⟨stored.1, by simp [heq, hnone], fun _ => rfl, hrest, fun _ _ hget _ => hget⟩

variable {change : UserChange}

theorem InStep.stores {place : String}
    (hassigned : assigned (fun user => some (key user)) wanted.1 change =
      some (place, user)) : ∃ rest counts, LeftWithout user.uuid stored.1 rest ∧
      (∀ other found, stored.1.lookup other = some found →
        found.uuid ≠ user.uuid → rest.lookup other = some found) ∧
      storeStep order key stored change = (rest.insert place user, counts) ∧
      step (fun user => some (key user)) wanted change =
        (wanted.1.insert user.uuid (place, user), counts) := by
  cases change with
  | add added =>
    cases hempty : added.isEmpty with
    | true => simp [assigned, hempty] at hassigned
    | false =>
      simp only [assigned, hempty, Bool.false_eq_true, if_false,
        Option.map_some, Option.some.injEq, Prod.mk.injEq] at hassigned
      obtain ⟨rfl, rfl⟩ := hassigned
      obtain ⟨rest, hremove, hsame, hrest, hkept⟩ := hstep.removeArc order added.uuid
      refine ⟨rest, countAdded wanted.2 (wanted.1.lookup added.uuid).isSome, hrest, hkept, ?_, ?_⟩
      · cases hsome : (wanted.1.lookup added.uuid).isSome <;>
          simp_all [storeStep, changeStep, UserStore.onAdded, hstep.counts]
      · simp [step, changeStep, onAdded, hempty]
  | update updated =>
    cases hempty : updated.isEmpty with
    | true => simp [assigned, hempty] at hassigned
    | false =>
      cases hsome : (wanted.1.lookup updated.uuid).isSome with
      | false => simp [assigned, Option.isSome_eq_false_iff.1 hsome] at hassigned
      | true =>
        have hnone : (wanted.1.lookup updated.uuid).isNone = false := by simpa using hsome
        simp only [assigned, hempty, hnone, Bool.or_self,
          Bool.false_eq_true, if_false, Option.map_some,
          Option.some.injEq, Prod.mk.injEq] at hassigned
        obtain ⟨rfl, rfl⟩ := hassigned
        obtain ⟨rest, hremove, -, hrest, hkept⟩ := hstep.removeArc order updated.uuid
        rw [if_pos hsome] at hremove
        refine ⟨rest, countUpdated wanted.2 true, hrest, hkept, ?_, ?_⟩
        · simp [storeStep, changeStep, UserStore.onUpdated, hempty, hremove, hstep.counts]
        · simp [step, changeStep, onUpdated, hempty, hsome]
  | delete uuid => simp [assigned] at hassigned

theorem InStep.keeps (hassigned : assigned (fun user => some (key user)) wanted.1 change = none) :
    InStep (storeStep order key stored change)
      (step (fun user => some (key user)) wanted change) := by
  cases change with
  | add added =>
    have hempty : added.isEmpty = true := by
      by_contra hempty
      simp [assigned, hempty] at hassigned
    simpa [storeStep, changeStep, UserStore.onAdded, step, onAdded, hempty] using hstep
  | update updated =>
    cases hempty : updated.isEmpty with
    | true =>
      simpa [storeStep, changeStep, UserStore.onUpdated, step, onUpdated, hempty] using hstep
    | false =>
      have hsome : (wanted.1.lookup updated.uuid).isSome = false := by
        by_contra hsome
        simp_all [assigned]
      obtain ⟨rest, hremove, -⟩ := hstep.removeArc order updated.uuid
      rw [hsome, if_neg Bool.false_ne_true] at hremove
      have hstored : storeStep order key stored (.update updated) =
          (stored.1, countUpdated stored.2 false) := by
        simp [storeStep, changeStep, UserStore.onUpdated, hempty, hremove]
      have hwanted : step (fun user => some (key user)) wanted
          (.update updated) = (wanted.1, countUpdated wanted.2 false) := by
        simp [step, changeStep, onUpdated, hempty, hsome]
      rw [hstored, hwanted]
      exact ⟨hstep.own, hstep.exactly, by rw [hstep.counts]⟩
  | delete uuid =>
    obtain ⟨rest, hremove, hsame, hrest, hkept⟩ := hstep.removeArc order uuid
    have hstored : storeStep order key stored (.delete uuid) = (rest, countDeleted stored.2
          (wanted.1.lookup uuid).isSome) := by
      cases hsome : (wanted.1.lookup uuid).isSome <;>
        simp_all [storeStep, changeStep, UserStore.onDeleted]
    rw [hstored]
    exact ⟨hstep.own.erase uuid, hstep.exactly.drop hrest hkept, by rw [hstep.counts]; rfl⟩

theorem InStep.step_free (hfree : TakesFreeKey (fun user => some (key user)) wanted.1
      change) : InStep (storeStep order key stored change)
      (step (fun user => some (key user)) wanted change) := by
  cases hassigned : assigned (fun user => some (key user)) wanted.1 change with
  | none => exact hstep.keeps hassigned
  | some given =>
    obtain ⟨rest, counts, hrest, hkept, hstored, hwanted⟩ := hstep.stores hassigned
    rw [hstored, hwanted]
    exact ⟨hstep.own.insert given.2 given.1,
      hstep.exactly.assign (hfree given.1 given.2 hassigned) hrest hkept,
      rfl⟩

theorem InStep.step_taken (htaken : ¬ TakesFreeKey (fun user => some (key user)) wanted.1
      change) : OutOfStep (storeStep order key stored change)
      (step (fun user => some (key user)) wanted change) := by
  simp only [TakesFreeKey, not_forall] at htaken
  obtain ⟨place, user, hassigned, uuid, holder, hholder, hne⟩ := htaken
  obtain ⟨rest, counts, hrest, -, hstored, hwanted⟩ := hstep.stores hassigned
  have hwithin : Within (wanted.1.insert user.uuid (place, user))
      (rest.insert place user) := hstep.exactly.within.assign hrest
  rw [hstored, hwanted]
  refine ⟨hwithin, le_rfl, .inl ⟨uuid, ?_, fun other found hfound huuid => ?_⟩⟩
  · rw [lookup_insert_of_ne _ hne, hholder]
    rfl
  · -- an entry of the holder would stand where the new user stands
    have hfiled := hwithin other found hfound
    rw [huuid, lookup_insert_of_ne _ hne, hholder] at hfiled
    cases hfiled
    rw [lookup_insert] at hfound
    cases hfound
    exact hne huuid.symm

end

theorem LostUuid.assign (hlost : LostUuid users filed uuid)
    (hne : uuid ≠ user.uuid) (hrest : LeftWithout user.uuid filed rest) (place : String) :
    LostUuid (users.insert user.uuid (place, user)) (rest.insert place user)
      uuid := by
  refine ⟨by rw [lookup_insert_of_ne _ hne]; exact hlost.1, ?_⟩
  intro other found hfound huuid
  rw [lookup_insert_ite] at hfound
  split at hfound
  · cases hfound
    exact hne huuid.symm
  · exact hlost.2 other found (hrest other found hfound).1 huuid

theorem LostUuid.drop {gone : String}
    (hlost : LostUuid users filed uuid) (hne : uuid ≠ gone) (hrest : LeftWithout gone filed rest) :
    LostUuid (users.erase gone) rest uuid := by
  refine ⟨by rw [lookup_erase_ite, if_neg hne]; exact hlost.1, ?_⟩
  exact fun other found hfound => hlost.2 other found (hrest other found hfound).1

section

variable (hout : OutOfStep stored wanted)

include hout

/-- A change that names a uuid: either another user is lost, or one has been
missed before, or this one is missed now. -/
theorem OutOfStep.astray_cases (uuid : String) :
    (∃ lost, lost ≠ uuid ∧ LostUuid wanted.1 stored.1 lost) ∨ wanted.2.misses < stored.2.misses ∨
      LostUuid wanted.1 stored.1 uuid := by
  rcases hout.astray with ⟨lost, hlost⟩ | hmisses
  · by_cases huuid : lost = uuid
    · exact .inr (.inr (huuid ▸ hlost))
    · exact .inl ⟨lost, huuid, hlost⟩
  · exact .inr (.inl hmisses)

theorem OutOfStep.added (user : CoreUser) : OutOfStep (UserStore.onAdded order key stored user)
      (onAdded (fun user => some (key user)) wanted user) := by
  unfold UserStore.onAdded onAdded
  cases hempty : user.isEmpty with
  | true => simpa using hout
  | false =>
    simp only [Bool.false_eq_true, if_false]
    have hmisses := hout.misses
    rcases hout.within.removeArc order user.uuid with
      ⟨rest, heq, hsome, hthere, hrest, -⟩ | ⟨heq, hrest⟩
    · rw [heq, hsome]
      refine ⟨hout.within.assign hrest, by simpa using hmisses, ?_⟩
      rcases hout.astray_cases user.uuid with ⟨lost, hne, hlost⟩ | hmore | hlost
      · exact .inl ⟨lost, hlost.assign hne hrest _⟩
      · exact .inr (by simpa using hmore)
      · exact absurd hlost hthere
    · rw [heq]
      have hcount : (wanted.1.lookup user.uuid).isNone.toNat ≤ 1 := Bool.toNat_le _
      refine ⟨hout.within.assign hrest, by simp; omega, ?_⟩
      rcases hout.astray_cases user.uuid with ⟨lost, hne, hlost⟩ | hmore | hlost
      · exact .inl ⟨lost, hlost.assign hne hrest _⟩
      · exact .inr (by simp; omega)
      · exact .inr (by simp [hlost.1]; omega)

theorem OutOfStep.updated (user : CoreUser) : OutOfStep (UserStore.onUpdated order key stored user)
      (onUpdated (fun user => some (key user)) wanted user) := by
  unfold UserStore.onUpdated onUpdated
  cases hempty : user.isEmpty with
  | true => simpa using hout
  | false =>
    simp only [Bool.false_eq_true, if_false]
    have hmisses := hout.misses
    rcases hout.within.removeArc order user.uuid with
      ⟨rest, heq, hsome, hthere, hrest, -⟩ | ⟨heq, hrest⟩
    · rw [heq, if_pos hsome]
      refine ⟨hout.within.assign hrest, by simpa using hmisses, ?_⟩
      rcases hout.astray_cases user.uuid with ⟨lost, hne, hlost⟩ | hmore | hlost
      · exact .inl ⟨lost, hlost.assign hne hrest _⟩
      · exact .inr (by simpa using hmore)
      · exact absurd hlost hthere
    · rw [heq]
      cases hsome : (wanted.1.lookup user.uuid).isSome with
      | true =>
        -- assigned, but nowhere to be found
        rw [if_pos rfl]
        refine ⟨fun place held hget => ?_, by simp; omega, .inr (by simp; omega)⟩
        rw [lookup_insert_of_ne _ (hrest place held hget).2]
        exact hout.within place held hget
      | false =>
        rw [if_neg Bool.false_ne_true]
        refine ⟨hout.within, by simpa using hmisses, ?_⟩
        rcases hout.astray with hlost | hmore
        · exact .inl hlost
        · exact .inr (by simpa using hmore)

theorem OutOfStep.deleted (uuid : String) :
    OutOfStep (UserStore.onDeleted order stored uuid) (onDeleted wanted uuid) := by
  unfold UserStore.onDeleted onDeleted
  have hmisses := hout.misses
  rcases hout.within.removeArc order uuid with ⟨rest, heq, hsome, hthere, hrest, -⟩ | ⟨heq, hrest⟩
  · rw [heq, hsome]
    refine ⟨hout.within.drop hrest, by simpa using hmisses, ?_⟩
    rcases hout.astray_cases uuid with ⟨lost, hne, hlost⟩ | hmore | hlost
    · exact .inl ⟨lost, hlost.drop hne hrest⟩
    · exact .inr (by simpa using hmore)
    · exact absurd hlost hthere
  · rw [heq]
    have hcount : (wanted.1.lookup uuid).isNone.toNat ≤ 1 := Bool.toNat_le _
    refine ⟨hout.within.drop hrest, by simp; omega, ?_⟩
    rcases hout.astray_cases uuid with ⟨lost, hne, hlost⟩ | hmore | hlost
    · exact .inl ⟨lost, hlost.drop hne hrest⟩
    · exact .inr (by simp; omega)
    · exact .inr (by simp [hlost.1]; omega)

theorem OutOfStep.step (change : UserChange) : OutOfStep (storeStep order key stored change)
      (step (fun user => some (key user)) wanted change) := by
  cases change with
  | add user =>
    simp only [storeStep, changeStep, Assignment.step]
    exact hout.added user
  | update user =>
    simp only [storeStep, changeStep, Assignment.step]
    exact hout.updated user
  | delete uuid =>
    simp only [storeStep, changeStep]
    exact hout.deleted uuid

end

theorem applyKeyedDelta_eq_exec (order : UserOrder) (key : CoreUser → String)
    (filed : HashMap String CoreUser) (hfull : delta.full = none) :
    applyKeyedDelta order key filed delta =
      ((Run.exec (storeStep order key) (filed, {}) delta.changes).1,
        { (Run.exec (storeStep order key) (filed, {}) delta.changes).2 with
          activeUsers := (Run.exec (storeStep order key) (filed, {}) delta.changes).1.len }) := by
  unfold applyKeyedDelta
  rw [hfull]
  simp only [runDelta_eq_exec]
  rfl

theorem storeRun_cases (order : UserOrder) (key : CoreUser → String)
    (hone : OneEntryPerUuid filed) (delta : CoreUserDelta) :
    (KeysTakenFree (fun user => some (key user)) (ofTable order filed) delta.changes ∧
      InStep (Run.exec (storeStep order key) (filed, {}) delta.changes)
        (applyLists (fun user => some (key user)) (ofTable order filed) delta)) ∨
    (¬ KeysTakenFree (fun user => some (key user)) (ofTable order filed) delta.changes ∧
      OutOfStep (Run.exec (storeStep order key) (filed, {}) delta.changes)
        (applyLists (fun user => some (key user)) (ofTable order filed) delta)) := by
  have hstart : InStep ((filed, {}) : Progress (HashMap String CoreUser))
      (ofTable order filed, {}) :=
    ⟨ofTable_own hone, ofTable_exactly hone, rfl⟩
  exact @Run.exec_kept_or_broken _ _ (storeStep order key) _ (step fun user => some (key user))
    (fun wanted => TakesFreeKey (fun user => some (key user)) wanted.1) InStep OutOfStep
    (fun _ _ _ hin hfree => hin.step_free hfree) (fun _ _ _ hin htaken => hin.step_taken htaken)
    (fun _ _ change hout => hout.step change) _ _ hstart delta.changes

/-- Whatever the delta, the store holds nothing but what is assigned. -/
theorem applyKeyedDelta_within (order : UserOrder) (key : CoreUser → String)
    (hone : OneEntryPerUuid filed) (hfull : delta.full = none) :
    Within (applyLists (fun user => some (key user))
      (ofTable order filed) delta).1 (applyKeyedDelta order key filed delta).1 := by
  rw [applyKeyedDelta_eq_exec order key filed hfull]
  rcases storeRun_cases order key hone delta with ⟨-, hin⟩ | ⟨-, hout⟩
  · exact hin.exactly.within
  · exact hout.within

/-- The store does what it should exactly when no change takes a key from
another user. -/
theorem applyKeyedDelta_endsWith_iff (order : UserOrder) (key : CoreUser → String)
    (hone : OneEntryPerUuid filed) (hfull : delta.full = none) :
    EndsWith (applyKeyedDelta order key filed delta) (applyLists (fun user => some (key user))
          (ofTable order filed) delta) ↔
      KeysTakenFree (fun user => some (key user)) (ofTable order filed) delta.changes := by
  have hrun := storeRun_cases order key hone delta
  have hown := own_exec (fun user => some (key user))
    (@ofTable_own _ _ filed order hone) delta.changes
  rw [applyKeyedDelta_eq_exec order key filed hfull]
  rcases hrun with ⟨hmeets, hin⟩ | ⟨hmeets, hout⟩
  · refine iff_of_true ⟨hin.exactly, ?_⟩ hmeets
    rw [hin.counts, hin.exactly.len_eq hin.own]
  · refine iff_of_false (fun hends => ?_) hmeets
    have hmisses := congrArg misses hends.counts
    simp only [misses] at hmisses
    rcases hout.astray with ⟨uuid, hlost⟩ | hmore
    · exact hends.exactly.not_lost hown uuid hlost
    · simp only [misses] at hmore
      omega

end Store

end KeliCore
