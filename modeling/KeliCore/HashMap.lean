/-
Hash maps as extensional finite maps.  `Finmap` already forgets the order of
its entries, which is what an unordered map promises; this module adds the bulk
operations of a standard-library map: collecting, retaining, mapping values and
listing keys in order.
-/
import Mathlib.Data.Finmap
import Mathlib.Data.Finset.Sort

universe u v w

/-- An unordered map from `κ` to `ν` with at most one entry per key. -/
abbrev HashMap (κ : Type u) (ν : Type v) := Finmap fun _ : κ => ν

/-- The order in which a map is walked.  Nothing is promised about it but that
every entry comes up. -/
structure HashOrder (κ : Type u) (ν : Type v) [DecidableEq κ] where
  iter : HashMap κ ν → List (κ × ν)
  mem_iter : ∀ m key value, (key, value) ∈ iter m ↔ m.lookup key = some value

namespace Finmap

open List

variable {κ : Type u} {ν : Type v} {ω : Type w}

/-- Keep the entries the predicate accepts. -/
def retain (keep : κ → ν → Bool) (m : HashMap κ ν) : HashMap κ ν where
  entries := m.entries.filter fun entry => keep entry.1 entry.2
  nodupKeys := by
    rw [← Multiset.nodup_keys]
    exact Multiset.nodup_of_le (Multiset.map_le_map (Multiset.filter_le _ _))
      (Multiset.nodup_keys.mpr m.nodupKeys)

/-- Apply a function to every value in place. -/
def mapValues (f : κ → ν → ω) (m : HashMap κ ν) : HashMap κ ω where
  entries := m.entries.map fun entry => ⟨entry.1, f entry.1 entry.2⟩
  nodupKeys := by
    rw [← Multiset.nodup_keys, Multiset.keys, Multiset.map_map]
    exact Multiset.nodup_keys.mpr m.nodupKeys

/-- The number of entries. -/
def len (m : HashMap κ ν) : Nat := m.keys.card

variable {m : HashMap κ ν}

theorem not_mem_of_len_eq_zero (hlen : m.len = 0) (key : κ) : key ∉ m := by
  rw [← Finmap.mem_keys, Finset.card_eq_zero.1 hlen]
  exact Finset.notMem_empty key

variable [DecidableEq κ]

theorem len_pos_iff : 0 < m.len ↔ ∃ key value, m.lookup key = some value := by
  rw [len, Finset.card_pos]
  constructor
  · rintro ⟨key, hkey⟩
    obtain ⟨value, hvalue⟩ := Finmap.mem_iff.1 (mem_keys.1 hkey)
    exact ⟨key, value, hvalue⟩
  · rintro ⟨key, value, hvalue⟩
    exact ⟨key, mem_keys.2 (mem_of_lookup_eq_some hvalue)⟩

/-- Whether every entry has a property can be checked. -/
instance decidableForallEntry {property : κ → ν → Prop}
    [∀ key value, Decidable (property key value)] (m : HashMap κ ν) :
    Decidable (∀ key value, m.lookup key = some value → property key value) :=
  decidable_of_iff (∀ key ∈ m.keys, ∀ value ∈ m.lookup key, property key value)
    ⟨fun hall key value hget =>
      hall key (mem_keys.2 (mem_of_lookup_eq_some hget)) value hget,
    fun hall key _ value hget => hall key value hget⟩

/-- Insert a list of entries from left to right: a later entry replaces an
earlier one under the same key. -/
def extend (m : HashMap κ ν) (entries : List (κ × ν)) : HashMap κ ν :=
  entries.foldl (fun m entry => m.insert entry.1 entry.2) m

def collect (entries : List (κ × ν)) : HashMap κ ν :=
  extend ∅ entries

def eraseAll (m : HashMap κ ν) (keys : List κ) : HashMap κ ν :=
  keys.foldl (fun m key => m.erase key) m

theorem lookup_insert_ite (m : HashMap κ ν) (key other : κ) (value : ν) :
    (m.insert key value).lookup other = if other = key then some value else m.lookup other := by
  by_cases heq : other = key
  · subst heq
    simp
  · simp [heq]

theorem lookup_erase_ite (m : HashMap κ ν) (key other : κ) :
    (m.erase key).lookup other = if other = key then none else m.lookup other := by
  by_cases heq : other = key
  · subst heq
    simp
  · simp [heq]

variable {key : κ} {value : ν} {keep : κ → ν → Bool}

theorem of_lookup_erase {other : κ} (hget : (m.erase key).lookup other = some value) :
    other ≠ key ∧ m.lookup other = some value := by
  rw [lookup_erase_ite] at hget
  exact Option.ite_none_left_eq_some.1 hget

theorem lookup_change {changed : HashMap κ ν} {change : ν → ν}
    (hsome : ∀ value, m.lookup key = some value → changed = m.insert key (change value))
    (hnone : m.lookup key = none → changed = m) (other : κ) :
    changed.lookup other = if other = key then (m.lookup other).map change else m.lookup other := by
  cases hfound : m.lookup key with
  | some value =>
    rw [hsome value hfound, lookup_insert_ite]
    by_cases heq : other = key
    · rw [if_pos heq, if_pos heq, heq, hfound, Option.map_some]
    · rw [if_neg heq, if_neg heq]
  | none =>
    rw [hnone hfound]
    by_cases heq : other = key
    · rw [if_pos heq, heq, hfound, Option.map_none]
    · rw [if_neg heq]

@[simp] theorem lookup_retain (keep : κ → ν → Bool) (m : HashMap κ ν) (key : κ) :
    (m.retain keep).lookup key = (m.lookup key).filter (keep key) := by
  ext value
  rw [Option.filter_eq_some_iff, Finmap.lookup_eq_some_iff, Finmap.lookup_eq_some_iff]
  simp [retain, Multiset.mem_filter]

theorem of_lookup_retain (hget : (m.retain keep).lookup key = some value) :
    m.lookup key = some value := by
  rw [lookup_retain] at hget
  exact (Option.filter_eq_some_iff.1 hget).1

theorem lookup_retain_of_keep
    (hkeep : ∀ value, keep key value = true) : (m.retain keep).lookup key = m.lookup key := by
  rw [lookup_retain]
  cases m.lookup key <;> simp [hkeep]

@[simp] theorem lookup_mapValues (f : κ → ν → ω) (m : HashMap κ ν) (key : κ) :
    (m.mapValues f).lookup key = (m.lookup key).map (f key) := by
  ext value
  rw [Option.map_eq_some_iff, Finmap.lookup_eq_some_iff]
  simp only [mapValues, Multiset.mem_map, Sigma.mk.injEq]
  constructor
  · rintro ⟨⟨found, old⟩, hmem, rfl, hvalue⟩
    exact ⟨old, Finmap.lookup_eq_some_iff.2 hmem, eq_of_heq hvalue⟩
  · rintro ⟨old, hold, rfl⟩
    exact ⟨⟨key, old⟩, Finmap.lookup_eq_some_iff.1 hold, rfl, HEq.rfl⟩

theorem extend_append (m : HashMap κ ν) (first second : List (κ × ν)) :
    m.extend (first ++ second) = (m.extend first).extend second := by simp [extend, foldl_append]

@[simp] theorem extend_nil (m : HashMap κ ν) : m.extend [] = m := rfl

@[simp] theorem extend_cons (m : HashMap κ ν) (entry : κ × ν) (entries : List (κ × ν)) :
    m.extend (entry :: entries) = (m.insert entry.1 entry.2).extend entries := rfl

/-- The last entry under a key decides what the extended map holds there. -/
theorem lookup_extend (m : HashMap κ ν) (entries : List (κ × ν)) (key : κ) :
    (m.extend entries).lookup key =
      ((entries.reverse.find? fun entry => entry.1 = key).map Prod.snd).or (m.lookup key) := by
  induction entries using reverseRecOn with
  | nil => simp
  | append_singleton entries entry ih =>
    rw [extend_append, extend_cons, extend_nil, lookup_insert_ite, ih]
    by_cases heq : key = entry.1
    · simp [heq]
    · have hne : ¬ entry.1 = key := fun h => heq h.symm
      simp [heq, hne]

variable {entries : List (κ × ν)}

theorem lookup_extend_of_not_mem (m : HashMap κ ν) (hkey : ∀ entry ∈ entries, entry.1 ≠ key) :
    (m.extend entries).lookup key = m.lookup key := by
  rw [lookup_extend, find?_eq_none.mpr]
  · simp
  · intro entry hentry
    simpa using hkey entry (mem_reverse.1 hentry)

theorem lookup_extend_cases (hget : (m.extend entries).lookup key = some value) :
    (key, value) ∈ entries ∨ m.lookup key = some value := by
  rw [lookup_extend] at hget
  cases hfind : entries.reverse.find? fun entry => entry.1 = key with
  | none =>
    rw [hfind] at hget
    exact .inr (by simpa using hget)
  | some entry =>
    rw [hfind] at hget
    have hmem := mem_of_find?_eq_some hfind
    have hkey : entry.1 = key := by simpa using find?_some hfind
    have hvalue : entry.2 = value := by simpa using hget
    left
    rw [← hkey, ← hvalue]
    exact mem_reverse.1 hmem

theorem mem_extend (m : HashMap κ ν) (entries : List (κ × ν)) (key : κ) :
    key ∈ m.extend entries ↔ (∃ entry ∈ entries, entry.1 = key) ∨ key ∈ m := by
  induction entries generalizing m with
  | nil => simp
  | cons entry entries ih =>
    rw [extend_cons, ih, Finmap.mem_insert]
    simp only [mem_cons, exists_eq_or_imp]
    constructor
    · rintro (h | rfl | h)
      · exact .inl (.inr h)
      · exact .inl (.inl rfl)
      · exact .inr h
    · rintro ((h | h) | h)
      · exact .inr (.inl h.symm)
      · exact .inl h
      · exact .inr (.inr h)

theorem lookup_collect_of_mem
    (hnodup : (entries.map Prod.fst).Nodup) (hmem : (key, value) ∈ entries) :
    (collect entries).lookup key = some value := by
  cases hget : (collect entries).lookup key with
  | none =>
    rw [Finmap.lookup_eq_none] at hget
    exact absurd ((mem_extend ∅ entries key).2 (.inl ⟨_, hmem, rfl⟩)) hget
  | some other =>
    rcases lookup_extend_cases hget with hother | hempty
    · exact congrArg some (congrArg Prod.snd (inj_on_of_nodup_map hnodup hother hmem rfl))
    · simp at hempty

/-- Collecting commutes with a function on the values. -/
theorem lookup_collect_map (f : ν → ω) (entries : List (κ × ν)) (key : κ) :
    (collect (entries.map fun entry => (entry.1, f entry.2))).lookup key =
      ((collect entries).lookup key).map f := by
  unfold collect
  induction entries using reverseRecOn with
  | nil => simp
  | append_singleton entries entry ih =>
    rw [map_append, extend_append, extend_append, map_cons,
      map_nil, extend_cons, extend_nil, extend_cons, extend_nil,
      lookup_insert_ite, lookup_insert_ite, ih]
    split <;> rfl

@[simp] theorem eraseAll_nil (m : HashMap κ ν) : m.eraseAll [] = m := rfl

@[simp] theorem eraseAll_cons (m : HashMap κ ν) (key : κ) (keys : List κ) :
    m.eraseAll (key :: keys) = (m.erase key).eraseAll keys := rfl

theorem lookup_eraseAll (m : HashMap κ ν) (keys : List κ) (key : κ) :
    (m.eraseAll keys).lookup key = if key ∈ keys then none else m.lookup key := by
  induction keys generalizing m with
  | nil => simp
  | cons head keys ih =>
    rw [eraseAll_cons, ih, lookup_erase_ite]
    by_cases hmem : key ∈ keys <;> simp [hmem]

def sortedKeys [LinearOrder κ] (m : HashMap κ ν) : List κ :=
  Quot.liftOn m.keys.val (List.insertionSort (· ≤ ·)) fun _ _ hperm =>
    ((List.perm_insertionSort _ _).trans
      (hperm.trans (List.perm_insertionSort _ _).symm)).eq_of_pairwise'
      (List.pairwise_insertionSort _ _) (List.pairwise_insertionSort _ _)

omit [DecidableEq κ]

theorem coe_sortedKeys [LinearOrder κ] (m : HashMap κ ν) :
    (m.sortedKeys : Multiset κ) = m.keys.val := by
  unfold sortedKeys
  generalize m.keys.val = keys
  induction keys using Quot.inductionOn with
  | h keys => exact Quot.sound (perm_insertionSort _ _)

@[simp] theorem mem_sortedKeys [LinearOrder κ] (m : HashMap κ ν) (key : κ) :
    key ∈ m.sortedKeys ↔ key ∈ m := by
  rw [← Multiset.mem_coe, coe_sortedKeys, Finset.mem_val, Finmap.mem_keys]

theorem nodup_sortedKeys [LinearOrder κ] (m : HashMap κ ν) : m.sortedKeys.Nodup := by
  rw [← Multiset.coe_nodup, coe_sortedKeys]
  exact m.keys.nodup

/-- Walking a map in key order is one of the orders it may be walked in. -/
def sortedOrder [LinearOrder κ] : HashOrder κ ν where
  iter m := m.sortedKeys.filterMap fun key => (m.lookup key).map fun value => (key, value)
  mem_iter m key value := by
    simp only [List.mem_filterMap, mem_sortedKeys, Option.map_eq_some_iff, Prod.mk.injEq]
    constructor
    · rintro ⟨found, _, old, hold, rfl, rfl⟩
      exact hold
    · intro hget
      exact ⟨key, Finmap.mem_of_lookup_eq_some hget, value, hget, rfl, rfl⟩

end Finmap
