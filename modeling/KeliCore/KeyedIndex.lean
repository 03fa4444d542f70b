/-
A map filed under a second key.  The values have an identity, by which an
abstract map holds them, and a key, under which the concrete map files them.
As long as values with different identities have different keys, inserting and
removing by identity can be done on the filed map.
-/
import KeliCore.HashMap

universe u v w

namespace KeyedIndex

open Option Finmap

variable {ι : Type u} {κ : Type v} {ν : Type w} [DecidableEq ι] [DecidableEq κ]
variable {ident : ν → ι} {key : ν → Option κ}

/-- The filed map holds the values of the abstract one, each under its key. -/
structure Represents (ident : ν → ι) (key : ν → Option κ)
    (byIdent : HashMap ι ν) (filed : HashMap κ ν) : Prop where
  own : ∀ index value, byIdent.lookup index = some value → ident value = index
  keyed : ∀ index value, byIdent.lookup index = some value → (key value).isSome = true
  places : ∀ place value, filed.lookup place = some value ↔
    byIdent.lookup (ident value) = some value ∧ key value = some place

def Without (ident : ν → ι) (index : ι) (filed rest : HashMap κ ν) : Prop :=
  ∀ place value, rest.lookup place = some value ↔
    filed.lookup place = some value ∧ ident value ≠ index

namespace Represents

variable {byIdent : HashMap ι ν} {filed rest : HashMap κ ν}

theorem empty : Represents ident key (∅ : HashMap ι ν) (∅ : HashMap κ ν) where
  own := by simp
  keyed := by simp
  places := by simp

section

variable (hfiled : Represents ident key byIdent filed)

include hfiled

variable {index : ι} {value : ν} {place : κ}

theorem exists_place (hget : byIdent.lookup index = some value) :
    ∃ place, key value = some place ∧ filed.lookup place = some value := by
  obtain ⟨place, hplace⟩ := isSome_iff_exists.1 (hfiled.keyed index value hget)
  have hown := hfiled.own index value hget
  rw [← hown] at hget
  exact ⟨place, hplace, (hfiled.places place value).2 ⟨hget, hplace⟩⟩

theorem unique {other : HashMap κ ν}
    (hother : Represents ident key byIdent other) : filed = other := by
  apply ext_lookup
  intro place
  ext value
  rw [hfiled.places, hother.places]

theorem without_self (hnone : byIdent.lookup index = none) : Without ident index filed filed := by
  intro place value
  refine ⟨fun hget => ⟨hget, ?_⟩, fun h => h.1⟩
  rintro rfl
  rw [((hfiled.places place value).1 hget).1] at hnone
  contradiction

/-- Taking out the place of a value takes out its identity. -/
theorem without_erase (hget : filed.lookup place = some value) :
    Without ident (ident value) filed (filed.erase place) := by
  intro other found
  have hvalue := (hfiled.places place value).1 hget
  rw [lookup_erase_ite]
  constructor
  · intro hfound
    split at hfound
    · contradiction
    next hne =>
      refine ⟨hfound, fun hsame => hne ?_⟩
      obtain ⟨hby, hkey⟩ := (hfiled.places other found).1 hfound
      rw [hsame, hvalue.1] at hby
      cases hby
      exact some.inj (hkey.symm.trans hvalue.2)
  · rintro ⟨hfound, hne⟩
    rw [if_neg]
    · exact hfound
    · rintro rfl
      rw [hget] at hfound
      exact hne (congrArg ident (some.inj hfound).symm)

theorem insert (hkey : key value = some place)
    (hclash : ∀ index other, byIdent.lookup index = some other →
      key other = some place → ident other = ident value)
    (hrest : Without ident (ident value) filed rest) :
    Represents ident key (byIdent.insert (ident value) value) (rest.insert place value) where
  own index found hget := by
    rw [lookup_insert_ite] at hget
    split at hget
    next heq => rw [← some.inj hget, heq]
    · exact hfiled.own index found hget
  keyed index found hget := by
    rw [lookup_insert_ite] at hget
    split at hget
    · rw [← some.inj hget, hkey]
      rfl
    · exact hfiled.keyed index found hget
  places other found := by
    rw [lookup_insert_ite, lookup_insert_ite]
    by_cases hplace : other = place
    · subst hplace
      rw [if_pos rfl]
      constructor
      · intro heq
        cases heq
        exact ⟨if_pos rfl, hkey⟩
      · rintro ⟨hget, hfound⟩
        by_cases hident : ident found = ident value
        · rwa [if_pos hident] at hget
        · rw [if_neg hident] at hget
          exact absurd (hclash _ found hget hfound) hident
    · rw [if_neg hplace, hrest other found, hfiled.places other found]
      by_cases hident : ident found = ident value
      · rw [if_pos hident]
        refine ⟨fun h => absurd hident h.2, ?_⟩
        rintro ⟨heq, hfound⟩
        rw [← some.inj heq, hkey] at hfound
        exact absurd (some.inj hfound).symm hplace
      · rw [if_neg hident]
        exact and_iff_left hident

theorem insert_same (hkey : key value = some place)
    (hsame : ∀ index other, byIdent.lookup index = some other →
      (ident other = ident value ↔ key other = some place)) :
    Represents ident key (byIdent.insert (ident value) value) (filed.insert place value) := by
  have hclash : ∀ index other, byIdent.lookup index = some other →
      key other = some place → ident other = ident value :=
    fun index other hget => (hsame index other hget).mpr
  cases hget : byIdent.lookup (ident value) with
  | none => exact hfiled.insert hkey hclash (hfiled.without_self hget)
  | some old =>
    have hown := hfiled.own _ old hget
    have hplace := (hsame _ old hget).1 hown
    have hold := (hfiled.places place old).2 ⟨hown.symm ▸ hget, hplace⟩
    have hwithout := hfiled.without_erase hold
    rw [hown] at hwithout
    have hinsert := hfiled.insert hkey hclash hwithout
    have heq : (filed.erase place).insert place value = filed.insert place value := by
      apply ext_lookup
      intro other
      rw [lookup_insert_ite, lookup_insert_ite, lookup_erase_ite]
      split <;> rfl
    rwa [heq] at hinsert

theorem erase (hrest : Without ident index filed rest) :
    Represents ident key (byIdent.erase index) rest where
  own other found hget := by exact hfiled.own other found (of_lookup_erase hget).2
  keyed other found hget := by exact hfiled.keyed other found (of_lookup_erase hget).2
  places place found := by
    rw [hrest place found, hfiled.places place found, lookup_erase_ite]
    by_cases hident : ident found = index <;> simp [hident]

end

end Represents

end KeyedIndex
