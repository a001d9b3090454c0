import Mathlib.Data.Nat.Find
import Mathlib.Order.WellFounded
import Mathlib.Tactic.Common

/-!
# Endless runs

A run of a system whose steps are named by events goes on forever; at a time at which nothing happens
the state stays as it is. Threads own some of the events. A run is fair if a thread that could take a
step again and again takes steps again and again.
-/

namespace FairRuns

variable {σ ε ι : Type} {P : ℕ → Prop}

structure Execution (step : σ → ε → Option σ) where
  state : ℕ → σ
  event : ℕ → Option ε
  moves : ∀ n, match event n with
    | none => state (n + 1) = state n
    | some e => step (state n) e = some (state (n + 1))

namespace Execution

variable {step : σ → ε → Option σ} (x : Execution step) {n : ℕ}

theorem of_event {e : ε} (h : x.event n = some e) :
    step (x.state n) e = some (x.state (n + 1)) := by
  have := x.moves n
  rwa [h] at this

theorem of_idle (h : x.event n = none) : x.state (n + 1) = x.state n := by
  have := x.moves n
  rwa [h] at this

/-- What holds from some time on if every step keeps it. -/
theorem always_from {P : ℕ → σ → Prop} (hstart : P n (x.state n))
    (hidle : ∀ k, n ≤ k → P k (x.state k) → x.event k = none → P (k + 1) (x.state k))
    (hstep : ∀ k e s', n ≤ k → P k (x.state k) → x.event k = some e →
      step (x.state k) e = some s' → P (k + 1) s') : ∀ m, n ≤ m → P m (x.state m) := by
  intro m hm
  induction m, hm using Nat.le_induction with
  | base => exact hstart
  | succ k hk ih =>
    cases hevent : x.event k with
    | none =>
      rw [x.of_idle hevent]
      exact hidle k hk ih hevent
    | some e => exact hstep k e _ hk ih hevent (x.of_event hevent)

/-! ## Fairness -/

variable (own : ι → ε → Prop)

/-- The thread takes a step. -/
def Acts (i : ι) (n : ℕ) : Prop := ∃ e, x.event n = some e ∧ own i e

/-- The thread could take a step. -/
def Ready (step : σ → ε → Option σ) (own : ι → ε → Prop) (i : ι) (s : σ) : Prop :=
  ∃ e, own i e ∧ (step s e).isSome

def Fair : Prop :=
  ∀ i, (∀ n, ∃ m, n ≤ m ∧ Ready step own i (x.state m)) → ∀ n, ∃ m, n ≤ m ∧ x.Acts own i m

variable {own} {x}

/-- As long as a thread does not act, it is not ready forever. -/
theorem Fair.acts (h : x.Fair own) {i : ι}
    (hready : (∀ k, n ≤ k → ¬ x.Acts own i k) →
      ∀ k, n ≤ k → ∃ m, k ≤ m ∧ Ready step own i (x.state m)) : ∃ m, n ≤ m ∧ x.Acts own i m := by
  by_contra hnever
  have hidle : ∀ k, n ≤ k → ¬ x.Acts own i k := fun k hk hacts => hnever ⟨k, hk, hacts⟩
  have hagain : ∀ k, ∃ m, k ≤ m ∧ Ready step own i (x.state m) := by
    intro k
    obtain ⟨m, hm, hr⟩ := hready hidle (max n k) (le_max_left n k)
    exact ⟨m, (le_max_right n k).trans hm, hr⟩
  obtain ⟨m, hm, hacts⟩ := h i hagain n
  exact hidle m hm hacts

/-! ## Runs that end -/

/-- The events of a list, one after the other, then nothing more. -/
def ofList (step : σ → ε → Option σ) (start : σ) (events : List ε)
    (h : (events.foldlM step start).isSome) : Execution step where
  state n := ((events.take n).foldlM step start).getD start
  event n := events[n]?
  moves n := by
    rcases Nat.lt_or_ge n events.length with hlt | hge
    · have hparts : events.take (n + 1) ++ events.drop (n + 1) = events := List.take_append_drop _ _
      rw [List.getElem?_eq_getElem hlt, List.take_succ_eq_append_getElem hlt]
      rw [← hparts, List.take_succ_eq_append_getElem hlt, List.foldlM_append,
        List.foldlM_append] at h
      cases hbefore : (events.take n).foldlM step start with
      | none => simp [hbefore] at h
      | some before =>
        cases hafter : step before events[n] with
        | none => simp [hbefore, hafter] at h
        | some after =>
          have hnext : (events.take n ++ [events[n]]).foldlM step start = some after := by
            rw [List.foldlM_append, hbefore]
            simp [hafter]
          simp only [hnext, Option.getD_some, hafter]
    · rw [List.getElem?_eq_none hge, List.take_of_length_le hge,
        List.take_of_length_le (by omega)]

/-- If no thread can go on in the end, the run is fair. -/
theorem ofList_fair {start last : σ} {events : List ε} (h : (events.foldlM step start).isSome)
    (hlast : events.foldlM step start = some last) (hdone : ∀ i, ¬ Ready step own i last) :
    (ofList step start events h).Fair own := by
  intro i hready
  obtain ⟨m, hm, hr⟩ := hready events.length
  have hstate : (ofList step start events h).state m = last := by
    simp only [ofList, List.take_of_length_le hm, hlast, Option.getD_some]
  rw [hstate] at hr
  exact absurd hr (hdone i)

end Execution

/-- A time by which all of finitely many lasting facts hold. -/
theorem exists_common {P : ℕ → ℕ → Prop} (hlasts : ∀ i m k, m ≤ k → P i m → P i k) {count : ℕ}
    (h : ∀ i < count, ∃ m, P i m) : ∃ m, ∀ i < count, P i m := by
  induction count with
  | zero => exact ⟨0, fun i hi => absurd hi (Nat.not_lt_zero i)⟩
  | succ count ih =>
    obtain ⟨m, hm⟩ := ih fun i hi => h i (by omega)
    obtain ⟨k, hk⟩ := h count (by omega)
    refine ⟨max m k, fun i hi => ?_⟩
    rcases Nat.lt_succ_iff_lt_or_eq.mp hi with hlt | rfl
    · exact hlasts i m _ (le_max_left m k) (hm i hlt)
    · exact hlasts i k _ (le_max_right m k) hk

/-- The first time from `n` on. -/
theorem exists_first {n : ℕ} (h : ∃ m, n ≤ m ∧ P m) :
    ∃ m, n ≤ m ∧ P m ∧ ∀ k, n ≤ k → k < m → ¬ P k := by
  classical
  obtain ⟨hle, hP⟩ := Nat.find_spec h
  exact ⟨Nat.find h, hle, hP, fun k hk hlt hPk => Nat.find_min h hlt ⟨hk, hPk⟩⟩

/-- What has not happened yet comes closer again and again. -/
theorem eventually_of_rank {α : Type} [Preorder α] [WellFoundedLT α] (rank : ℕ → α)
    (h : ∀ n, ¬ P n → ∃ m, n ≤ m ∧ (P m ∨ rank m < rank n)) (n : ℕ) : ∃ m, n ≤ m ∧ P m := by
  induction hr : rank n using WellFoundedLT.induction generalizing n with
  | ind r ih =>
    by_cases hP : P n
    · exact ⟨n, le_rfl, hP⟩
    · obtain ⟨m, hm, hP' | hlt⟩ := h n hP
      · exact ⟨m, hm, hP'⟩
      · obtain ⟨k, hk, hPk⟩ := ih (rank m) (hr ▸ hlt) m rfl
        exact ⟨k, hm.trans hk, hPk⟩

end FairRuns
