/-
A map that counts the members of a list: no entry for what does not occur, and
the number of occurrences for what does.
-/
import KeliCore.HashMap

universe u

namespace Tally

open List

variable {κ : Type u} [DecidableEq κ] {counts : HashMap κ Nat}

def Counts (counts : HashMap κ Nat) (members : List κ) : Prop :=
  ∀ key, counts.lookup key = if members.count key = 0 then none else some (members.count key)

theorem Counts.empty : Counts (∅ : HashMap κ Nat) [] := by
  intro key
  simp

variable {members : List κ} {key : κ}

theorem Counts.perm {other : List κ} (hcounts : Counts counts members)
    (hperm : members.Perm other) : Counts counts other := by
  intro key
  rw [hcounts key, hperm.count_eq]

theorem Counts.lookup_eq_none (hcounts : Counts counts members) :
    counts.lookup key = none ↔ key ∉ members := by
  rw [hcounts key]
  by_cases hzero : members.count key = 0
  · simpa [hzero] using count_eq_zero.1 hzero
  · simpa [hzero] using fun hmem => hzero (count_eq_zero.2 hmem)

theorem Counts.count_of_lookup (hcounts : Counts counts members)
    {count : Nat} (hget : counts.lookup key = some count) :
    members.count key = count ∧ 0 < count := by
  rw [hcounts key] at hget
  split at hget
  · simp at hget
  · cases hget
    exact ⟨rfl, by omega⟩

theorem Counts.insert (hcounts : Counts counts members) (key : κ) :
    Counts (counts.insert key (members.count key + 1)) (key :: members) := by
  intro other
  rw [Finmap.lookup_insert_ite, count_cons]
  by_cases heq : other = key
  · simp [heq]
  · have hne : ¬ key = other := fun h => heq h.symm
    rw [if_neg heq, hcounts other]
    simp [hne]

theorem Counts.decrease (hcounts : Counts counts (key :: members))
    (hmem : key ∈ members) : Counts (counts.insert key (members.count key)) members := by
  have hpos := count_pos_iff.2 hmem
  intro other
  rw [Finmap.lookup_insert_ite]
  by_cases heq : other = key
  · rw [if_pos heq, heq, if_neg (by omega)]
  · have hne : ¬ key = other := fun h => heq h.symm
    rw [if_neg heq, hcounts other, count_cons]
    simp [hne]

theorem Counts.erase (hcounts : Counts counts (key :: members))
    (hmem : key ∉ members) : Counts (counts.erase key) members := by
  intro other
  rw [Finmap.lookup_erase_ite]
  by_cases heq : other = key
  · rw [if_pos heq, heq, if_pos (count_eq_zero.2 hmem)]
  · have hne : ¬ key = other := fun h => heq h.symm
    rw [if_neg heq, hcounts other, count_cons]
    simp [hne]

theorem Counts.len_eq (hcounts : Counts counts members) : counts.len = members.toFinset.card := by
  unfold Finmap.len
  congr 1
  ext key
  rw [Finmap.mem_keys, mem_toFinset, ← not_iff_not, ← Finmap.lookup_eq_none]
  exact hcounts.lookup_eq_none

end Tally
