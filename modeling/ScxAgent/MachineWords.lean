import Mathlib

/-!
# Machine words read as integers

A difference of two unsigned 64-bit words, read as a signed word, is the integer difference as
long as that difference is representable. The lemmas here move comparisons and sums of words to
the natural numbers and the integers, where `omega` decides them.
-/

namespace MachineWords

theorem toInt_toInt64 (a : UInt64) : a.toInt64.toInt = (a.toNat : ℤ).bmod (2 ^ 64) := by
  rw [← Int64.toInt_toBitVec, UInt64.toBitVec_toInt64, BitVec.toInt_eq_toNat_bmod]
  rfl

theorem toNat_toUInt64 (x : Int64) : (x.toUInt64.toNat : ℤ) = x.toInt % 2 ^ 64 := by
  have h : x.toUInt64.toNat = x.toBitVec.toNat := rfl
  have hlt := x.toBitVec.isLt
  rw [h, ← Int64.toInt_toBitVec, BitVec.toInt_eq_toNat_bmod, Int.bmod_def]
  split_ifs <;> omega

/-- A signed difference that fits into a signed word is computed exactly. -/
theorem toInt_sub_of_fits (a b : UInt64) (hlow : -2 ^ 63 ≤ (a.toNat : ℤ) - b.toNat)
    (hhigh : (a.toNat : ℤ) - b.toNat < 2 ^ 63) :
    (a - b).toInt64.toInt = (a.toNat : ℤ) - b.toNat := by
  have ha := UInt64.toNat_lt a
  have hb := UInt64.toNat_lt b
  rw [toInt_toInt64, UInt64.toNat_sub, Int.bmod_def]
  split_ifs <;> omega

theorem toInt_of_small (a : UInt64) (h : a.toNat < 2 ^ 63) : a.toInt64.toInt = a.toNat := by
  rw [toInt_toInt64, Int.bmod_def]
  split_ifs <;> omega

theorem toNat_toUInt64_sub (x y : Int64) :
    ((x - y).toUInt64.toNat : ℤ) = (x.toInt - y.toInt) % 2 ^ 64 := by
  rw [toNat_toUInt64, Int64.toInt_sub]
  exact Int.bmod_emod

theorem toNat_toUInt64_add (x y : Int64) :
    ((x + y).toUInt64.toNat : ℤ) = (x.toInt + y.toInt) % 2 ^ 64 := by
  rw [toNat_toUInt64, Int64.toInt_add]
  exact Int.bmod_emod

theorem toNat_add_of_fits (a b : UInt64) (h : a.toNat + b.toNat < 2 ^ 64) :
    (a + b).toNat = a.toNat + b.toNat := by
  rw [UInt64.toNat_add, Nat.mod_eq_of_lt h]

theorem toNat_mul_of_fits (a b : UInt64) (h : a.toNat * b.toNat < 2 ^ 64) :
    (a * b).toNat = a.toNat * b.toNat := by
  rw [UInt64.toNat_mul, Nat.mod_eq_of_lt h]

end MachineWords
