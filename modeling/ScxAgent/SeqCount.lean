import Mathlib

/-!
# Sequence counters

A writer brackets every change of a shared value with two increments of a counter of 64 bits: the
counter is odd while the value changes and even while a published value stands. A reader takes the
counter before and after it reads. If it finds one even number both times, and fewer than `2 ^ 63`
values were published in between, then it has read the value that was published under that number.
-/

namespace SeqCount

open UInt64

variable {α : Type} {n : ℕ} {P : α → Prop}

/-- The counter once `n` values have been published. -/
def number (n : ℕ) : UInt64 := UInt64.ofNat (2 * n)

theorem toNat_number (n : ℕ) : (number n).toNat = 2 * n % 2 ^ 64 :=
  toNat_ofNat'

theorem number_succ (n : ℕ) : number n + 2 = number (n + 1) := by
  apply UInt64.toNat_inj.mp
  rw [UInt64.toNat_add, toNat_number, toNat_number]
  change (2 * n % 2 ^ 64 + 2) % 2 ^ 64 = _
  omega

theorem even_number (n : ℕ) : number n % 2 = 0 := by
  apply UInt64.toNat_inj.mp
  rw [UInt64.toNat_mod, toNat_number]
  change 2 * n % 2 ^ 64 % 2 = 0
  omega

theorem odd_number_add_one (n : ℕ) : (number n + 1) % 2 = 1 := by
  apply UInt64.toNat_inj.mp
  rw [UInt64.toNat_mod, UInt64.toNat_add, toNat_number]
  change (2 * n % 2 ^ 64 + 1) % 2 ^ 64 % 2 = 1
  omega

/-- Clearing the lowest bit leaves the number of a published value as it is. -/
theorem number_and_not_one (n : ℕ) : number n &&& ~~~1 = number n := by
  have hbit : (number n).toBitVec.getLsbD 0 = false := by
    have heven := congrArg toNat (even_number n)
    rw [UInt64.toNat_mod] at heven
    change (number n).toNat % 2 = 0 at heven
    rw [BitVec.getLsbD, Nat.testBit_zero, UInt64.toNat_toBitVec, heven]
    rfl
  apply UInt64.toBitVec_inj.mp
  rw [UInt64.toBitVec_and, UInt64.toBitVec_not]
  apply BitVec.eq_of_getLsbD_eq
  intro i hi
  rw [BitVec.getLsbD_and, BitVec.getLsbD_not]
  rcases eq_or_ne i 0 with rfl | hpos
  · rw [hbit, Bool.false_and]
  · have hone : (toBitVec 1).getLsbD i = false := by
      change (1#64).getLsbD i = false
      rw [BitVec.getLsbD_one, decide_eq_false hpos, Bool.and_false]
    rw [hone]
    simp [hi]

/-- Numbers come back after `2 ^ 63` publications and not before. -/
theorem number_inj {m : ℕ} (h : number m = number n) (hle : m ≤ n) (hlt : n < m + 2 ^ 63) :
    m = n := by
  have hnat := congrArg toNat h
  rw [toNat_number, toNat_number] at hnat
  omega

theorem number_wraps (n : ℕ) : number (n + 2 ^ 63) = number n := by
  apply UInt64.toNat_inj.mp
  rw [toNat_number, toNat_number]
  omega

inductive Phase where
  | stable
  | updating
  deriving DecidableEq

/-- The counter, the value it protects and what was published, the latest first. -/
structure Cell (α : Type) where
  seq : UInt64
  value : α
  published : List (UInt64 × α)

/-- Each publication is filed under its own number. -/
def Numbered : List (UInt64 × α) → Prop
  | [] => True
  | publication :: rest => publication.1 = number (rest.length + 1) ∧ Numbered rest

namespace Cell

def Sound (c : Cell α) : Phase → Prop
  | .stable => c.published.head? = some (c.seq, c.value) ∧ Numbered c.published
  | .updating => c.seq = number c.published.length + 1 ∧ Numbered c.published

namespace Sound

variable {c : Cell α} {phase : Phase}

theorem seq_stable (h : c.Sound .stable) : c.seq = number c.published.length := by
  obtain ⟨hhead, hnumbered⟩ := h
  match hpublished : c.published with
  | [] =>
    rw [hpublished] at hhead
    cases hhead
  | publication :: rest =>
    rw [hpublished] at hhead hnumbered
    cases hhead
    exact hnumbered.1

/-- The writer announces a change. -/
theorem announce (h : c.Sound .stable) :
    Sound { c with seq := number c.published.length + 1 } .updating :=
  ⟨rfl, h.2⟩

theorem change (h : c.Sound .updating) (value : α) : Sound { c with value } .updating := h

/-- The writer publishes what the value has become. -/
theorem publish (h : c.Sound .updating) :
    Sound { c with
      seq := number (c.published.length + 1)
      published := (number (c.published.length + 1), c.value) :: c.published } .stable :=
  ⟨rfl, rfl, h.2⟩

/-- An even counter is the number of the latest publication. -/
theorem seq_of_even (h : c.Sound phase) (heven : c.seq % 2 = 0) :
    phase = .stable ∧ c.seq = number c.published.length := by
  cases phase with
  | stable => exact ⟨rfl, h.seq_stable⟩
  | updating =>
    rw [h.1, odd_number_add_one] at heven
    cases heven

/-- A reader that finds the counter where it was after `n` publications has missed none. -/
theorem confirmed (h : c.Sound phase) (hseq : c.seq = number n) (hle : n ≤ c.published.length)
    (hlt : c.published.length < n + 2 ^ 63) : phase = .stable ∧ c.published.length = n := by
  have heven : c.seq % 2 = 0 := by
    rw [hseq]
    exact even_number n
  obtain ⟨hphase, hlatest⟩ := h.seq_of_even heven
  exact ⟨hphase, (number_inj (hseq.symm.trans hlatest) hle hlt).symm⟩

theorem lookup_seq (h : c.Sound .stable) : c.published.lookup c.seq = some c.value := by
  obtain ⟨hhead, -⟩ := h
  match hpublished : c.published with
  | [] =>
    rw [hpublished] at hhead
    cases hhead
  | publication :: rest =>
    rw [hpublished] at hhead
    cases hhead
    exact List.lookup_cons_self

end Sound

/-- What a reader that started after `n` publications knows of its read as long as none is under
way and none was missed. -/
def Fresh (c : Cell α) (phase : Phase) (n : ℕ) (P : α → Prop) : Prop :=
  phase = .stable → c.published.length = n → P c.value

theorem Fresh.of_published {c : Cell α} {phase : Phase} {P : α → Prop} (h : n < c.published.length) :
    c.Fresh phase n P :=
  fun _ hlength => absurd hlength (Nat.ne_of_gt h)

end Cell

/-- The latest value published under a number. -/
def Vouched (published : List (UInt64 × α)) (seq : UInt64) (P : α → Prop) : Prop :=
  ∃ value, published.lookup seq = some value ∧ P value

theorem Cell.Sound.vouched {c : Cell α} {phase : Phase} (h : c.Sound phase)
    (hseq : c.seq = number n) (hfresh : c.Fresh phase n P) (hle : n ≤ c.published.length)
    (hlt : c.published.length < n + 2 ^ 63) : Vouched c.published (number n) P := by
  obtain ⟨rfl, hlength⟩ := h.confirmed hseq hle hlt
  exact ⟨c.value, hseq ▸ h.lookup_seq, hfresh rfl hlength⟩

/-- Later publications leave the value of a number alone until the number comes back. -/
theorem Vouched.publish {published : List (UInt64 × α)} {value : α}
    (h : Vouched published (number n) P) (hle : n ≤ published.length)
    (hlt : published.length + 1 < n + 2 ^ 63) :
    Vouched ((number (published.length + 1), value) :: published) (number n) P := by
  obtain ⟨old, hlookup, hold⟩ := h
  have hne : number n ≠ number (published.length + 1) := fun heq => by
    have := number_inj heq (by omega) hlt
    omega
  refine ⟨old, ?_, hold⟩
  rw [List.lookup_cons, beq_eq_false_iff_ne.mpr hne]
  exact hlookup

end SeqCount
