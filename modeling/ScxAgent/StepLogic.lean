import Mathlib.Logic.Relation

/-!
# Programs that follow a step relation

A `Proc` runs on a state that survives its errors. It may be stopped by a crash at any
external call, and it may panic. `Follows` says that a program started in a given state
only moves along the steps of a `System`, never panics, and meets a postcondition on
each exit. After a crash the state is one that `down` leaves behind some state
reached by the steps, so an invariant of the steps also bounds what a crash can leave.
-/

namespace StepLogic

open Relation

inductive Halt (ε : Type) where
  | error (e : ε)
  | crashed
  | panicked
  deriving DecidableEq

abbrev Proc (σ ε α : Type) := ExceptT (Halt ε) (StateM σ) α

variable {σ ε α β : Type}

def raise (e : ε) : Proc σ ε α := throw (.error e)

def abort : Proc σ ε α := throw .panicked

/-- Lifts a computation that keeps no state. -/
def ofExcept : Except ε α → Proc σ ε α
  | .ok a => pure a
  | .error e => raise e

/-- Hands an error to the caller as a value; a crash or a panic still stops the caller. -/
def caught : Except (Halt ε) α × σ → Except (Halt ε) (Except ε α) × σ
  | (.ok a, t) => (.ok (.ok a), t)
  | (.error (.error e), t) => (.ok (.error e), t)
  | (.error .crashed, t) => (.error .crashed, t)
  | (.error .panicked, t) => (.error .panicked, t)

def attempt (p : Proc σ ε α) : Proc σ ε (Except ε α) := fun s => caught (p s)

/-- The run ended with a value, and the value and the state pass a test. -/
def returns (test : α → σ → Bool) : Except (Halt ε) α × σ → Bool
  | (.ok a, t) => test a t
  | (.error _, _) => false

theorem exists_of_returns {test : α → σ → Bool} {r : Except (Halt ε) α × σ}
    (h : returns test r = true) : ∃ a t, r = (.ok a, t) ∧ test a t = true := by
  obtain ⟨_ | a, t⟩ := r
  · cases h
  · exact ⟨a, t, rfl, h⟩

variable {f : β → Proc σ ε α} {p : Proc σ ε β} {s : σ} {b : β} {a : α} {Q : α → σ → Prop}
  {E : ε → σ → Prop} {Q' : Except ε α → σ → Prop} {P : β → σ → Prop}

theorem bind_ok {t : σ} (h : p s = (.ok b, t)) : (p >>= f) s = f b t := by
  change ExceptT.bindCont f (p s).1 (p s).2 = f b t
  rw [h]
  rfl

theorem bind_error {t : σ} {halt : Halt ε} (h : p s = (.error halt, t)) :
    (p >>= f) s = (.error halt, t) := by
  change ExceptT.bindCont f (p s).1 (p s).2 = _
  rw [h]
  rfl

theorem of_bind_ok {t : σ} (h : (p >>= f) s = (.ok a, t)) :
    ∃ b u, p s = (.ok b, u) ∧ f b u = (.ok a, t) := by
  cases hp : p s with
  | mk r u =>
    cases r with
    | ok b => exact ⟨b, u, rfl, (bind_ok hp).symm.trans h⟩
    | error halt =>
      rw [bind_error hp] at h
      cases h

structure System (σ : Type) where
  step : σ → σ → Prop
  down : σ → σ → Prop

namespace System

def Steps (S : System σ) : σ → σ → Prop := ReflTransGen S.step

variable {S : System σ}

theorem Steps.refl (s : σ) : S.Steps s s := ReflTransGen.refl

theorem Steps.single {t : σ} (h : S.step s t) : S.Steps s t := ReflTransGen.single h

theorem Steps.trans {t u : σ} (h : S.Steps s t) (h' : S.Steps t u) : S.Steps s u :=
  ReflTransGen.trans h h'

/-- What one step preserves, every sequence of steps preserves. -/
theorem Steps.invariant {I : σ → Prop} (hstep : ∀ s t, I s → S.step s t → I t) {t : σ}
    (h : S.Steps s t) (hs : I s) : I t := by
  induction h with
  | refl => exact hs
  | tail _ hlast ih => exact hstep _ _ ih hlast

/-- A reflexive and transitive relation that contains every step contains every run. -/
theorem Steps.relates {R : σ → σ → Prop} (hrefl : ∀ s, R s s)
    (htrans : ∀ s t u, R s t → R t u → R s u) (hstep : ∀ s t, S.step s t → R s t) {t : σ}
    (h : S.Steps s t) : R s t := by
  induction h with
  | refl => exact hrefl _
  | tail _ hlast ih => exact htrans _ _ _ ih (hstep _ _ hlast)

end System

def Exits (S : System σ) (s : σ) (Q : α → σ → Prop) (E : ε → σ → Prop) :
    Except (Halt ε) α × σ → Prop
  | (.ok a, t) => S.Steps s t ∧ Q a t
  | (.error (.error e), t) => S.Steps s t ∧ E e t
  | (.error .crashed, t) => ∃ u, S.Steps s u ∧ S.down u t
  | (.error .panicked, _) => False

variable {S : System σ}

theorem Exits.mono {Q' : α → σ → Prop} {E' : ε → σ → Prop} :
    ∀ {r : Except (Halt ε) α × σ}, Exits S s Q E r →
      (∀ a t, S.Steps s t → Q a t → Q' a t) → (∀ e t, S.Steps s t → E e t → E' e t) →
      Exits S s Q' E' r
  | (.ok a, t), h, hQ, _ => ⟨h.1, hQ a t h.1 h.2⟩
  | (.error (.error e), t), h, _, hE => ⟨h.1, hE e t h.1 h.2⟩
  | (.error .crashed, _), h, _, _ => h
  | (.error .panicked, _), h, _, _ => h

/-- Exits seen from an earlier state. -/
theorem Exits.earlier {s' : σ} (hs : S.Steps s s') :
    ∀ {r : Except (Halt ε) α × σ}, Exits S s' Q E r → Exits S s Q E r
  | (.ok _, _), h => ⟨hs.trans h.1, h.2⟩
  | (.error (.error _), _), h => ⟨hs.trans h.1, h.2⟩
  | (.error .crashed, _), ⟨u, hu, hdown⟩ => ⟨u, hs.trans hu, hdown⟩
  | (.error .panicked, _), h => h

theorem Exits.caught {E' : ε → σ → Prop} :
    ∀ {r : Except (Halt ε) α × σ}, Exits S s Q E r →
      (∀ a t, S.Steps s t → Q a t → Q' (.ok a) t) →
      (∀ e t, S.Steps s t → E e t → Q' (.error e) t) → Exits S s Q' E' (caught r)
  | (.ok a, t), h, hQ, _ => ⟨h.1, hQ a t h.1 h.2⟩
  | (.error (.error e), t), h, _, hE => ⟨h.1, hE e t h.1 h.2⟩
  | (.error .crashed, _), h, _, _ => h
  | (.error .panicked, _), h, _, _ => h

theorem Exits.bind :
    ∀ {r : Except (Halt ε) β × σ}, Exits S s P E r →
      (∀ b t, S.Steps s t → P b t → Exits S t Q E (f b t)) →
      Exits S s Q E (ExceptT.bindCont f r.1 r.2)
  | (.ok b, t), h, hf => (hf b t h.1 h.2).earlier h.1
  | (.error (.error _), _), h, _ => h
  | (.error .crashed, _), h, _ => h
  | (.error .panicked, _), h, _ => h

def Follows (S : System σ) (p : Proc σ ε α) (s : σ) (Q : α → σ → Prop)
    (E : ε → σ → Prop) : Prop :=
  Exits S s Q E (p s)

namespace Follows

variable {S : System σ} {s : σ} {Q : α → σ → Prop} {E : ε → σ → Prop}

theorem pure (h : Q a s) : Follows S (Pure.pure a) s Q E :=
  ⟨.refl s, h⟩

theorem raise {e : ε} (h : E e s) : Follows S (StepLogic.raise e) s Q E :=
  ⟨.refl s, h⟩

variable {p : Proc σ ε α} {E' : ε → σ → Prop}

theorem conseq {Q' : α → σ → Prop} (h : Follows S p s Q E)
    (hQ : ∀ a t, S.Steps s t → Q a t → Q' a t) (hE : ∀ e t, S.Steps s t → E e t → E' e t) :
    Follows S p s Q' E' :=
  Exits.mono h hQ hE

theorem bind {p : Proc σ ε β} (hp : Follows S p s P E)
    (hf : ∀ b t, S.Steps s t → P b t → Follows S (f b) t Q E) : Follows S (p >>= f) s Q E :=
  Exits.bind hp hf

variable {f : β → Proc σ ε α}

/-- The bind rule that runs the second program where the first one ends. -/
theorem seq {p : Proc σ ε β} (hp : Follows S p s (fun b t => Follows S (f b) t Q E) E) :
    Follows S (p >>= f) s Q E :=
  bind hp fun _ _ _ h => h

/-- The bind rule for a first program that only reads the state. -/
theorem bind_read {p : Proc σ ε β} (hp : p s = (.ok b, s)) (hf : Follows S (f b) s Q E) :
    Follows S (p >>= f) s Q E := by
  have hread : Follows S p s (fun b' t => b' = b ∧ t = s) E := by
    unfold Follows
    rw [hp]
    exact ⟨.refl s, rfl, rfl⟩
  refine hread.bind ?_
  rintro b' t _ ⟨rfl, rfl⟩
  exact hf

theorem ofExcept {r : Except ε α} (hok : ∀ a, r = .ok a → Q a s)
    (herr : ∀ e, r = .error e → E e s) : Follows S (StepLogic.ofExcept r) s Q E := by
  cases r with
  | ok a => exact pure (hok a rfl)
  | error e => exact raise (herr e rfl)

theorem attempt (h : Follows S p s (fun a => Q' (.ok a)) (fun e => Q' (.error e))) :
    Follows S (StepLogic.attempt p) s Q' E' :=
  Exits.caught h (fun _ _ _ h => h) (fun _ _ _ h => h)

/-- One assignment of the state that is one step of the system. -/
theorem assign {f : σ → σ} {Q : Unit → σ → Prop} (hstep : S.step s (f s)) (h : Q () (f s)) :
    Follows S (modify f) s Q E :=
  ⟨.single hstep, h⟩

/-- The loop rule: `I rest` holds whenever the elements `rest` are still to be visited. -/
theorem forM {γ : Type} {f : γ → Proc σ ε Unit} (I : List γ → σ → Prop) (xs : List γ)
    (hinit : I xs s)
    (hbody : ∀ x rest t, S.Steps s t → I (x :: rest) t → Follows S (f x) t (fun _ => I rest) E) :
    Follows S (xs.forM f) s (fun _ => I []) E := by
  induction xs generalizing s with
  | nil => exact pure hinit
  | cons x rest ih =>
    refine bind (hbody x rest s (.refl s) hinit) ?_
    intro _ t hst ht
    exact ih ht (fun y rest' u htu => hbody y rest' u (hst.trans htu))

end Follows

/-! ## Histories -/

section History

variable {γ : Type} {R : List γ → γ → Prop} {history : List γ} {event : γ}

/-- Every event of a history is in the relation `R` to the events before it. -/
def Throughout (R : List γ → γ → Prop) (history : List γ) : Prop :=
  ∀ before event after, history = before ++ event :: after → R before event

theorem Throughout.nil : Throughout R [] := by
  intro before event after h
  simp at h

theorem Throughout.concat (h : Throughout R history) (hlast : R history event) :
    Throughout R (history ++ [event]) := by
  intro before e after hsplit
  rcases List.eq_nil_or_concat after with rfl | ⟨after', last, rfl⟩
  · obtain ⟨rfl, hevent⟩ := List.append_inj' hsplit rfl
    cases hevent
    exact hlast
  · have hassoc : history ++ [event] = (before ++ e :: after') ++ [last] := by simpa using hsplit
    exact h before e after' (List.append_inj' hassoc rfl).1

end History

end StepLogic
