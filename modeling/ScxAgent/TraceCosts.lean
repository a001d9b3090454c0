import Mathlib.Algebra.BigOperators.Group.List.Basic
import Mathlib.Algebra.Order.Monoid.Canonical.Defs
import Mathlib.Algebra.Order.Monoid.Prod
import ScxAgent.TraceLogic

/-!
# What programs spend

Every event of a trace has a cost in an ordered monoid. `Spends` says that a traced program spends a
fixed amount when it returns and at most that amount when it stops early.
-/

namespace TraceLogic

open StepLogic

variable {σ κ ε ε' α β M : Type} [AddCommMonoid M]

def spent (cost : κ → M) (l : List κ) : M := (l.map cost).sum

@[simp] theorem spent_nil (cost : κ → M) : spent cost [] = 0 := rfl

@[simp] theorem spent_cons (cost : κ → M) (event : κ) (l : List κ) :
    spent cost (event :: l) = cost event + spent cost l := by
  rw [spent, List.map_cons, List.sum_cons, spent]

@[simp] theorem spent_append (cost : κ → M) (l l' : List κ) :
    spent cost (l ++ l') = spent cost l + spent cost l' := by
  rw [spent, List.map_append, List.sum_append, spent, spent]

variable [PartialOrder M]

def Spends (cost : κ → M) (p : Proc (Traced σ κ) ε α) (n : M) : Prop :=
  Emits p (fun _ l => spent cost l = n) fun _ l => spent cost l ≤ n

namespace Spends

variable {cost : κ → M} {n m : M}

theorem pure (a : α) : Spends cost (Pure.pure a : Proc (Traced σ κ) ε α) 0 := Emits.pure rfl

theorem ite {c : Prop} [Decidable c] {p q : Proc (Traced σ κ) ε α} (hp : Spends cost p n)
    (hq : Spends cost q n) : Spends cost (if c then p else q) n := by
  split
  · exact hp
  · exact hq

theorem consult (call : σ → α × σ) :
    Spends cost (TraceLogic.consult call : Proc (Traced σ κ) ε α) 0 :=
  Emits.consult fun _ => rfl

theorem ask {call : σ → α × σ} {event : α → κ} (h : ∀ a, cost (event a) = n) :
    Spends cost (TraceLogic.ask call event : Proc (Traced σ κ) ε α) n := by
  refine Emits.ask fun a => ?_
  rw [spent_cons, h, spent_nil, add_zero]

variable [CanonicallyOrderedAdd M]

/-- An error may come in place of anything that is still to be spent. -/
theorem raise (e : ε) (n : M) : Spends cost (StepLogic.raise e : Proc (Traced σ κ) ε α) n :=
  Emits.conseq (Q := fun _ _ => False) (E := fun _ l => l = []) (Emits.raise rfl)
    (fun _ _ h => h.elim) fun _ l hl => by rw [hl]; exact zero_le

theorem ofExcept (r : Except ε α) :
    Spends cost (StepLogic.ofExcept r : Proc (Traced σ κ) ε α) 0 := by
  cases r with
  | ok a => exact pure a
  | error e => exact raise e 0

theorem observe {p : Proc σ ε' α} {event : Except ε' α → κ} (h : ∀ r, cost (event r) = n) :
    Spends cost (TraceLogic.observe p event : Proc (Traced σ κ) ε (Except ε' α)) n := by
  refine Emits.observe (fun r => ?_) ?_ ?_
  · rw [spent_cons, h, spent_nil, add_zero]
  · exact zero_le
  · exact zero_le

theorem attempt {p : Proc (Traced σ κ) ε α} (hp : Spends cost p 0) :
    Spends cost (StepLogic.attempt p) 0 :=
  Emits.attempt_halting hp (fun _ _ h => h) (fun _ _ h => le_antisymm h zero_le) (fun _ h => h)
    fun _ h => h

variable [IsOrderedAddMonoid M]

theorem bind {p : Proc (Traced σ κ) ε β} {f : β → Proc (Traced σ κ) ε α} (hp : Spends cost p n)
    (hf : ∀ b, Spends cost (f b) m) : Spends cost (p >>= f) (n + m) := by
  refine Emits.bind (P := fun _ l => spent cost l = n) ?_ fun b l hl => ?_
  · exact hp.conseq (fun _ _ h => h) fun _ l hl => hl.trans (le_self_add)
  · refine (hf b).conseq (fun a l' hl' => ?_) fun _ l' hl' => ?_
    · rw [spent_append, hl, hl']
    · rw [spent_append, hl]
      exact add_le_add_right hl' n

variable {f : β → Proc (Traced σ κ) ε α} {p : Proc (Traced σ κ) ε β}

/-- A step that costs nothing. -/
theorem free_bind (hp : Spends cost p 0) (hf : ∀ b, Spends cost (f b) n) :
    Spends cost (p >>= f) n := by
  have h := hp.bind hf
  rwa [zero_add] at h

theorem bind_free (hp : Spends cost p n) (hf : ∀ b, Spends cost (f b) 0) :
    Spends cost (p >>= f) n := by
  have h := hp.bind hf
  rwa [add_zero] at h

/-- A caught error may come in place of anything that is still to be spent, if the program then
never returns. -/
theorem attempt_bind {f : Except ε β → Proc (Traced σ κ) ε α} (hp : Spends cost p n)
    (hok : ∀ b, Spends cost (f (.ok b)) m) (herr : ∀ e k, Spends cost (f (.error e)) k) :
    Spends cost (StepLogic.attempt p >>= f) (n + m) := by
  refine Emits.bind (P := fun r l => r.casesOn (fun _ => spent cost l ≤ n) fun _ => spent cost l = n)
    ?_ ?_
  · exact Emits.attempt_halting hp (fun _ _ h => h) (fun _ _ h => h)
      (fun _ h => h.trans le_self_add) fun _ h => h.trans le_self_add
  · rintro (e | b) l hl
    · obtain ⟨k, hk⟩ := exists_add_of_le (hl.trans le_self_add : spent cost l ≤ n + m)
      refine (herr e k).conseq (fun _ l' hl' => ?_) fun _ l' hl' => ?_
      · rw [spent_append, hl', hk]
      · rw [spent_append, hk]
        exact add_le_add_right hl' _
    · refine (hok b).conseq (fun _ l' hl' => ?_) fun _ l' hl' => ?_
      · rw [spent_append, hl, hl']
      · rw [spent_append, hl]
        exact add_le_add_right hl' n

theorem forM {ι : Type} {f : ι → Proc (Traced σ κ) ε Unit} (xs : List ι)
    (hf : ∀ x, Spends cost (f x) 0) : Spends cost (xs.forM f) 0 := by
  induction xs with
  | nil => exact pure ()
  | cons x xs ih => exact free_bind (hf x) fun _ => ih

theorem mapM {ι : Type} {f : ι → Proc (Traced σ κ) ε α} (xs : List ι)
    (hf : ∀ x, Spends cost (f x) 0) : Spends cost (xs.mapM f) 0 := by
  induction xs with
  | nil => exact pure []
  | cons x xs ih =>
    rw [List.mapM_cons]
    exact free_bind (hf x) fun _ => free_bind ih fun _ => pure _

end Spends

end TraceLogic
