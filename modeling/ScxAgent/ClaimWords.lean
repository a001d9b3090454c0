import Mathlib.Logic.Function.Basic
import Mathlib.Data.Option.Basic

/-!
# Claim words

Parties claim places by compare-and-swap: a claim is put into the word of a place that reads zero,
and the party that put it there takes it out again. Whatever the order of the steps, at most one
party holds the claim of a place.
-/

namespace ScxAgent.ClaimWords

open Function

variable {P I V : Type*} [DecidableEq P] [DecidableEq I] [Zero V] {word word' : I → V}
  {held : P → Option (I × V)} {i : I} {p : P}

/-- The words and the claims that the parties hold agree. -/
structure Exclusive (word : I → V) (held : P → Option (I × V)) : Prop where
  word_eq : ∀ p i v, held p = some (i, v) → word i = v
  unique : ∀ p q i v v', held p = some (i, v) → held q = some (i, v') → p = q
  owned : ∀ i, word i ≠ 0 → ∃ p, held p = some (i, word i)

/-- What one step of a party does to the words and to the claim that it holds. -/
inductive Effect (word word' : I → V) : Option (I × V) → Option (I × V) → Prop
  | keep (claim : Option (I × V)) (hword : word' = word) : Effect word word' claim claim
  | acquire (i : I) (v : V) (hfree : word i = 0) (hword : word' = Function.update word i v) :
      Effect word word' none (some (i, v))
  | release (i : I) (v : V) (hword : word i = v → word' = Function.update word i 0) :
      Effect word word' (some (i, v)) none

omit [DecidableEq P] [DecidableEq I] in
theorem Exclusive.initial (hword : ∀ i, word i = 0) (hheld : ∀ p, held p = none) :
    Exclusive word held where
  word_eq p i v h := by
    rw [hheld p] at h
    cases h
  unique p q i v v' h := by
    rw [hheld p] at h
    cases h
  owned i h := absurd (hword i) h

omit [DecidableEq P] [DecidableEq I] in
/-- Nobody holds a place whose word is zero, as long as claims are not zero. -/
theorem Exclusive.free (h : Exclusive word held) (hclaims : ∀ p i v, held p = some (i, v) → v ≠ 0)
    (hfree : word i = 0) (p : P) (v : V) : held p ≠ some (i, v) := by
  intro hheld
  exact hclaims p i v hheld ((h.word_eq p i v hheld).symm.trans hfree)

theorem Exclusive.acquired (h : Exclusive word held)
    (hclaims : ∀ p i v, held p = some (i, v) → v ≠ 0) {v : V} (hnone : held p = none)
    (hfree : word i = 0) (hword : word' = update word i v) :
    Exclusive word' (update held p (some (i, v))) := by
  have hother {q : P} {j : I} {v' : V} (hq : held q = some (j, v')) : q ≠ p ∧ j ≠ i := by
    constructor
    · rintro rfl
      rw [hnone] at hq
      cases hq
    · rintro rfl
      exact h.free hclaims hfree q v' hq
  subst hword
  constructor
  · intro q j v' hq
    by_cases hqp : q = p
    · rw [hqp, update_self, Option.some.injEq, Prod.mk.injEq] at hq
      obtain ⟨rfl, rfl⟩ := hq
      exact update_self i v word
    · rw [update_of_ne hqp] at hq
      rw [update_of_ne (hother hq).2]
      exact h.word_eq q j v' hq
  · intro q r j v' v'' hq hr
    by_cases hqp : q = p
    · by_cases hrp : r = p
      · rw [hqp, hrp]
      · rw [hqp, update_self, Option.some.injEq, Prod.mk.injEq] at hq
        rw [update_of_ne hrp] at hr
        exact absurd hq.1.symm (hother hr).2
    · rw [update_of_ne hqp] at hq
      by_cases hrp : r = p
      · rw [hrp, update_self, Option.some.injEq, Prod.mk.injEq] at hr
        exact absurd hr.1.symm (hother hq).2
      · rw [update_of_ne hrp] at hr
        exact h.unique q r j v' v'' hq hr
  · intro j hj
    by_cases hji : j = i
    · exact ⟨p, by rw [update_self, hji, update_self]⟩
    · rw [update_of_ne hji] at hj ⊢
      obtain ⟨q, hq⟩ := h.owned j hj
      exact ⟨q, by rw [update_of_ne (hother hq).1, hq]⟩

theorem Exclusive.released (h : Exclusive word held) {v : V} (hheld : held p = some (i, v))
    (hword : word' = update word i 0) : Exclusive word' (update held p none) := by
  have hother {q : P} {j : I} {v' : V} (hq : update held p none q = some (j, v')) :
      held q = some (j, v') ∧ j ≠ i := by
    have hqp : q ≠ p := by
      rintro rfl
      rw [update_self] at hq
      cases hq
    rw [update_of_ne hqp] at hq
    refine ⟨hq, ?_⟩
    rintro rfl
    exact hqp (h.unique q p j v' v hq hheld)
  subst hword
  constructor
  · intro q j v' hq
    rw [update_of_ne (hother hq).2]
    exact h.word_eq q j v' (hother hq).1
  · intro q r j v' v'' hq hr
    exact h.unique q r j v' v'' (hother hq).1 (hother hr).1
  · intro j hj
    by_cases hji : j = i
    · rw [hji, update_self] at hj
      exact absurd rfl hj
    · rw [update_of_ne hji] at hj ⊢
      obtain ⟨q, hq⟩ := h.owned j hj
      have hqp : q ≠ p := by
        rintro rfl
        rw [hheld, Option.some.injEq, Prod.mk.injEq] at hq
        exact hji hq.1.symm
      exact ⟨q, by rw [update_of_ne hqp, hq]⟩

theorem Exclusive.step (h : Exclusive word held) (hclaims : ∀ p i v, held p = some (i, v) → v ≠ 0)
    {claim : Option (I × V)} (heffect : Effect word word' (held p) claim) :
    Exclusive word' (update held p claim) := by
  generalize hheld : held p = before at heffect
  cases heffect with
  | keep _ hword =>
    rw [hword, ← hheld, update_eq_self]
    exact h
  | acquire i v hfree hword =>
    exact h.acquired hclaims hheld hfree hword
  | release i v hword =>
    exact h.released hheld (hword (h.word_eq p i v hheld))

end ScxAgent.ClaimWords
