import Mathlib.Algebra.Order.Field.Basic
import Mathlib.Data.Finset.Dedup
import Mathlib.Data.Finset.Max
import Mathlib.Data.List.GetD
import Mathlib.Data.List.Sort
import Mathlib.Tactic.Linarith

/-!
# The median of a list

The median of numbers of an ordered field, read off the sorted list. It does not depend on the order
of the numbers, and half of them are on either side of it.
-/

namespace Median

open List

section Sorted

variable {α : Type} [LinearOrder α] {l : List α} {i : ℕ} {m : α}

def sorted (l : List α) : List α := l.mergeSort fun a b => a ≤ b

theorem sorted_perm (l : List α) : (sorted l).Perm l := mergeSort_perm l _

theorem pairwise_sorted (l : List α) : (sorted l).Pairwise (· ≤ ·) := by
  refine (pairwise_mergeSort (fun a b c hab hbc => ?_) (fun a b => ?_) l).imp fun h => ?_
  · simp only [decide_eq_true_eq] at hab hbc ⊢
    exact hab.trans hbc
  · simpa using le_total a b
  · simpa using h

theorem sorted_congr {l' : List α} (h : l.Perm l') : sorted l = sorted l' := by
  have hperm : (sorted l).Perm (sorted l') := (sorted_perm l).trans (h.trans (sorted_perm l').symm)
  exact hperm.eq_of_pairwise' (pairwise_sorted l) (pairwise_sorted l')

/-- An element of a sorted list and everything before it is below every upper bound of it. -/
theorem succ_le_countP_le (h : l.Pairwise (· ≤ ·)) (hi : i < l.length) (hm : l[i] ≤ m) :
    i + 1 ≤ l.countP (· ≤ m) := by
  have hbefore : ∀ x ∈ l.take (i + 1), x ≤ m := by
    intro x hx
    obtain ⟨j, hj, rfl⟩ := mem_take_iff_getElem.mp hx
    have hji : j ≤ i := by omega
    rcases hji.lt_or_eq with hlt | rfl
    · exact (pairwise_iff_getElem.mp h j i (by omega) hi hlt).trans hm
    · exact hm
  have hcount : (l.take (i + 1)).countP (· ≤ m) = (l.take (i + 1)).length :=
    countP_eq_length.mpr fun x hx => decide_eq_true (hbefore x hx)
  calc i + 1 = (l.take (i + 1)).length := by rw [length_take]; omega
    _ = (l.take (i + 1)).countP (· ≤ m) := hcount.symm
    _ ≤ l.countP (· ≤ m) := (take_sublist _ _).countP_le

/-- An element of a sorted list and everything after it is above every lower bound of it. -/
theorem sub_le_countP_ge (h : l.Pairwise (· ≤ ·)) (hi : i < l.length) (hm : m ≤ l[i]) :
    l.length - i ≤ l.countP (m ≤ ·) := by
  have hafter : ∀ x ∈ l.drop i, m ≤ x := by
    intro x hx
    obtain ⟨j, hj, rfl⟩ := mem_drop_iff_getElem.mp hx
    rcases Nat.eq_zero_or_pos j with rfl | hpos
    · simpa using hm
    · exact hm.trans (pairwise_iff_getElem.mp h i (i + j) hi (by omega) (by omega))
  have hcount : (l.drop i).countP (m ≤ ·) = (l.drop i).length :=
    countP_eq_length.mpr fun x hx => decide_eq_true (hafter x hx)
  calc l.length - i = (l.drop i).length := length_drop.symm
    _ = (l.drop i).countP (m ≤ ·) := hcount.symm
    _ ≤ l.countP (m ≤ ·) := (drop_sublist _ _).countP_le

end Sorted

variable {F : Type} [Field F] [LinearOrder F] [IsStrictOrderedRing F] {l : List F}

def median (numbers : List F) : F :=
  let middle := (sorted numbers).length / 2
  if (sorted numbers).length % 2 = 0 then
    ((sorted numbers).getD (middle - 1) 0 + (sorted numbers).getD middle 0) / 2
  else (sorted numbers).getD middle 0

omit [IsStrictOrderedRing F] in
theorem median_congr {l' : List F} (h : l.Perm l') : median l = median l' := by
  unfold median
  rw [sorted_congr h]

/-- The median lies between two elements of the sorted list, of which the one below has half of the
list up to it and the one above has half from it on. -/
theorem exists_around (h : l ≠ []) :
    ∃ i j, ∃ (hi : i < (sorted l).length) (hj : j < (sorted l).length),
      l.length ≤ 2 * (i + 1) ∧ l.length ≤ 2 * (l.length - j) ∧
      (sorted l)[i] ≤ median l ∧ median l ≤ (sorted l)[j] := by
  have hlength : (sorted l).length = l.length := (sorted_perm l).length_eq
  have hpos : 0 < l.length := length_pos_iff.mpr h
  by_cases heven : (sorted l).length % 2 = 0
  · have hi : (sorted l).length / 2 - 1 < (sorted l).length := by omega
    have hj : (sorted l).length / 2 < (sorted l).length := by omega
    have hle : (sorted l)[(sorted l).length / 2 - 1] ≤ (sorted l)[(sorted l).length / 2] :=
      pairwise_iff_getElem.mp (pairwise_sorted l) _ _ hi hj (by omega)
    refine ⟨_, _, hi, hj, by omega, by omega, ?_⟩
    unfold median
    rw [if_pos heven, getD_eq_getElem _ _ hi, getD_eq_getElem _ _ hj]
    constructor
    · linarith
    · linarith
  · have hi : (sorted l).length / 2 < (sorted l).length := by omega
    refine ⟨_, _, hi, hi, by omega, by omega, ?_⟩
    unfold median
    rw [if_neg heven, getD_eq_getElem _ _ hi]
    exact ⟨le_rfl, le_rfl⟩

/-- Half of the numbers are at or below the median and half are at or above it. -/
theorem half_around (h : l ≠ []) :
    l.length ≤ 2 * l.countP (· ≤ median l) ∧ l.length ≤ 2 * l.countP (median l ≤ ·) := by
  obtain ⟨i, j, hi, hj, hbelow, habove, hle, hge⟩ := exists_around h
  have hlength : (sorted l).length = l.length := (sorted_perm l).length_eq
  have hi' := succ_le_countP_le (pairwise_sorted l) hi hle
  have hj' := sub_le_countP_ge (pairwise_sorted l) hj hge
  rw [(sorted_perm l).countP_eq] at hi' hj'
  constructor
  · omega
  · omega

/-- The median lies between the smallest and the largest number. -/
theorem between_extremes (h : l ≠ []) :
    ∃ low ∈ l, ∃ high ∈ l, (∀ x ∈ l, low ≤ x ∧ x ≤ high) ∧ low ≤ median l ∧ median l ≤ high := by
  obtain ⟨i, j, hi, hj, -, -, hle, hge⟩ := exists_around h
  have hnonempty : l.toFinset.Nonempty := by simpa using h
  obtain ⟨low, hlow, hleast⟩ := l.toFinset.exists_min_image id hnonempty
  obtain ⟨high, hhigh, hgreatest⟩ := l.toFinset.exists_max_image id hnonempty
  simp only [mem_toFinset, id] at hlow hleast hhigh hgreatest
  refine ⟨low, hlow, high, hhigh, fun x hx => ⟨hleast x hx, hgreatest x hx⟩, ?_, ?_⟩
  · exact (hleast _ ((sorted_perm l).mem_iff.mp (getElem_mem hi))).trans hle
  · exact hge.trans (hgreatest _ ((sorted_perm l).mem_iff.mp (getElem_mem hj)))

end Median
