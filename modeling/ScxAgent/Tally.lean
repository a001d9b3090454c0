import Mathlib

/-!
# Tallies

A family of counters tallies a filing of items under keys when each counter holds the number of
items filed under its key. Filing one more item, or taking one out, moves one counter by one.
-/

/-- Every counter holds the number of items filed under its key. -/
structure Tallies {ι κ : Type*} (file : ι → Option κ) (count : κ → ℕ) : Prop where
  finite : ∀ key, {i | file i = some key}.Finite
  count_eq : ∀ key, count key = {i | file i = some key}.ncard

namespace Tallies

open Function

variable {ι κ : Type*} {file : ι → Option κ} {count : κ → ℕ} {i : ι} {key : κ}

theorem empty : Tallies (fun _ : ι => (none : Option κ)) (fun _ => 0) :=
  ⟨fun key => by simp, fun key => by simp⟩

theorem congr {file' : ι → Option κ} {count' : κ → ℕ} (h : Tallies file count)
    (hfile : ∀ i, file' i = file i) (hcount : ∀ key, count' key = count key) :
    Tallies file' count' := by
  have hf : file' = file := funext hfile
  have hc : count' = count := funext hcount
  rw [hf, hc]
  exact h

/-- A counter under which something is filed is not zero. -/
theorem pos (h : Tallies file count) (hfiled : file i = some key) : 0 < count key := by
  rw [h.count_eq key]
  exact (Set.ncard_pos (h.finite key)).mpr ⟨i, hfiled⟩

theorem update_other [DecidableEq ι] {item : Option κ} {other : κ} (hold : file i ≠ some other)
    (hnew : item ≠ some other) :
    {j | update file i item j = some other} = {j | file j = some other} := by
  ext j
  by_cases hj : j = i
  · subst hj
    simp [hold, hnew]
  · simp [hj]

section Update

variable [DecidableEq ι] [DecidableEq κ]

theorem insert (h : Tallies file count) (hfree : file i = none) :
    Tallies (update file i (some key)) (update count key (count key + 1)) := by
  have hset : {j | update file i (some key) j = some key} =
      Insert.insert i {j | file j = some key} := by
    ext j
    by_cases hj : j = i
    · subst hj
      simp
    · simp [hj]
  have hnew : i ∉ {j | file j = some key} := by simp [hfree]
  constructor
  · intro other
    by_cases hkey : other = key
    · subst hkey
      rw [hset]
      exact (h.finite other).insert i
    · rw [update_other (by simp [hfree]) (by simpa using Ne.symm hkey)]
      exact h.finite other
  · intro other
    by_cases hkey : other = key
    · subst hkey
      rw [hset, update_self, Set.ncard_insert_of_notMem hnew (h.finite other),
        h.count_eq other]
    · rw [update_other (by simp [hfree]) (by simpa using Ne.symm hkey),
        update_of_ne hkey, h.count_eq other]

theorem remove (h : Tallies file count) (hfiled : file i = some key) :
    Tallies (update file i none) (update count key (count key - 1)) := by
  have hset : {j | update file i none j = some key} = {j | file j = some key} \ {i} := by
    ext j
    by_cases hj : j = i
    · subst hj
      simp
    · simp [hj]
  have hother {other : κ} (hkey : other ≠ key) :
      {j | update file i none j = some other} = {j | file j = some other} :=
    update_other (by simpa [hfiled] using Ne.symm hkey) (by simp)
  constructor
  · intro other
    by_cases hkey : other = key
    · subst hkey
      rw [hset]
      exact (h.finite other).sdiff
    · rw [hother hkey]
      exact h.finite other
  · intro other
    by_cases hkey : other = key
    · subst hkey
      rw [hset, update_self, Set.ncard_sdiff_singleton_of_mem (by exact hfiled),
        h.count_eq other]
    · rw [hother hkey, update_of_ne hkey, h.count_eq other]

/-- The total over a set of keys moves with each of its counters. -/
theorem sum_update_succ {keys : Finset κ} (hkey : key ∈ keys) :
    ∑ k ∈ keys, update count key (count key + 1) k = ∑ k ∈ keys, count k + 1 := by
  rw [Finset.sum_update_of_mem hkey, Finset.sum_eq_add_sum_sdiff_singleton_of_mem hkey count]
  omega

theorem sum_update_pred {keys : Finset κ} (hkey : key ∈ keys) (hpos : 0 < count key) :
    ∑ k ∈ keys, update count key (count key - 1) k = ∑ k ∈ keys, count k - 1 := by
  rw [Finset.sum_update_of_mem hkey, Finset.sum_eq_add_sum_sdiff_singleton_of_mem hkey count]
  omega

end Update

end Tallies
