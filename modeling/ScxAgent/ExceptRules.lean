import Mathlib.Data.List.Basic
import Mathlib.Data.List.Forall2
import Mathlib.Tactic.Common

/-!
# Computations that may raise an error

When a sequence of such computations returns a value, every one of them does.
-/

namespace ExceptRules

variable {ε α β : Type} {f : α → Except ε β} {x : Except ε α} {a : α} {c : Prop} {e : ε}

theorem bind_eq_ok {b : β} : (x >>= f) = .ok b ↔ ∃ a, x = .ok a ∧ f a = .ok b := by
  cases x with
  | error error => simp [bind, Except.bind]
  | ok a => simp [bind, Except.bind]

theorem pure_eq_ok {b : α} : (pure a : Except ε α) = .ok b ↔ a = b := by
  simp [pure, Except.pure]

@[simp] theorem ok_bind (a : α) (f : α → Except ε β) : (Except.ok a >>= f) = f a := rfl

/-- A check that raises an error was passed. -/
theorem of_guard_eq_ok [Decidable c] {f : Unit → Except ε α}
    (h : (if c then (Except.error e : Except ε Unit) >>= f else f ()) = .ok a) :
    ¬ c ∧ f () = .ok a := by
  split at h
  next => cases h
  next hc => exact ⟨hc, h⟩

theorem of_refusal_eq_ok [Decidable c] (h : (if c then .error e else x) = .ok a) :
    ¬ c ∧ x = .ok a := by
  split at h
  next => cases h
  next hc => exact ⟨hc, h⟩

variable {as : List α}

theorem mapM_eq_ok {bs : List β} :
    as.mapM f = .ok bs ↔ List.Forall₂ (fun a b => f a = .ok b) as bs := by
  induction as generalizing bs with
  | nil => simp [pure, Except.pure, eq_comm]
  | cons a as ih =>
    rw [List.mapM_cons]
    simp only [bind_eq_ok, ih, pure_eq_ok, List.forall₂_cons_left_iff]
    constructor
    · rintro ⟨b, hb, rest, hrest, rfl⟩
      exact ⟨b, rest, hb, hrest, rfl⟩
    · rintro ⟨b, rest, hb, hrest, rfl⟩
      exact ⟨b, hb, rest, hrest, rfl⟩

theorem forM_eq_ok {f : α → Except ε Unit} : as.forM f = .ok () ↔ ∀ a ∈ as, f a = .ok () := by
  induction as with
  | nil => exact ⟨fun _ => nofun, fun _ => rfl⟩
  | cons a as ih =>
    have hcons : (a :: as).forM f = f a >>= fun _ => as.forM f := rfl
    rw [hcons, bind_eq_ok, List.forall_mem_cons, ← ih]
    exact ⟨fun ⟨_, ha, has⟩ => ⟨ha, has⟩, fun ⟨ha, has⟩ => ⟨(), ha, has⟩⟩

/-- Two loops over the same list, of which one also counts its turns, stay related when every
turn that both of them complete keeps them related. -/
theorem foldlM_related {δ σ τ : Type} {f : σ → α × ℕ → Except ε σ} {g : τ → α → Except δ τ}
    {R : ℕ → σ → τ → Prop}
    (hstep : ∀ {n s t a s' t'}, R n s t → f s (a, n) = .ok s' → g t a = .ok t' → R (n + 1) s' t')
    {n : ℕ} {s s' : σ} {t t' : τ} (h : R n s t) (hf : (as.zipIdx n).foldlM f s = .ok s')
    (hg : as.foldlM g t = .ok t') : R (n + as.length) s' t' := by
  induction as generalizing n s t with
  | nil =>
    cases hf
    cases hg
    exact h
  | cons a as ih =>
    rw [List.zipIdx_cons, List.foldlM_cons] at hf
    rw [List.foldlM_cons] at hg
    obtain ⟨s₁, hs₁, hf⟩ := bind_eq_ok.mp hf
    obtain ⟨t₁, ht₁, hg⟩ := bind_eq_ok.mp hg
    have hrest := ih (hstep h hs₁ ht₁) hf hg
    rwa [Nat.add_right_comm, Nat.add_assoc] at hrest

end ExceptRules
