import ScxAgent.TraceLogic

/-!
# Programs that always come to an end of their own

`Settles` says what holds when a program returns and what holds when it ends in an error, and rules
out crashes and panics.
-/

namespace OutcomeLogic

open StepLogic TraceLogic

variable {σ τ κ ε ε' α β : Type}

/-- Nothing is required of single steps, and nothing goes down. -/
def calm : System σ := ⟨fun _ _ => True, fun _ _ => False⟩

def Settles (p : Proc σ ε α) (s : σ) (Q : α → σ → Prop) (E : ε → σ → Prop) : Prop :=
  Follows calm p s Q E

/-- The error of a call, put into words. -/
def orRaise (describe : ε' → ε) : Except ε' α → Proc σ ε α
  | .ok a => pure a
  | .error error => raise (describe error)

/-- Runs a program on a part of the state. -/
def focus (view : σ → τ) (put : τ → σ → σ) (p : Proc τ ε α) : Proc σ ε α := fun s =>
  ((p (view s)).1, put (p (view s)).2 s)

namespace Settles

variable {s : σ} {Q : α → σ → Prop} {E : ε → σ → Prop}

theorem pure {a : α} (h : Q a s) : Settles (Pure.pure a : Proc σ ε α) s Q E := Follows.pure h

theorem raise {e : ε} (h : E e s) : Settles (StepLogic.raise e : Proc σ ε α) s Q E := Follows.raise h

theorem conseq {p : Proc σ ε α} {Q' : α → σ → Prop} {E' : ε → σ → Prop} (h : Settles p s Q E)
    (hQ : ∀ a t, Q a t → Q' a t) (hE : ∀ e t, E e t → E' e t) : Settles p s Q' E' :=
  Follows.conseq h (fun a t _ => hQ a t) fun e t _ => hE e t

theorem bind {p : Proc σ ε β} {f : β → Proc σ ε α} {P : β → σ → Prop} (hp : Settles p s P E)
    (hf : ∀ b t, P b t → Settles (f b) t Q E) : Settles (p >>= f) s Q E :=
  Follows.bind hp fun b t _ => hf b t

theorem seq {p : Proc σ ε β} {f : β → Proc σ ε α}
    (hp : Settles p s (fun b t => Settles (f b) t Q E) E) : Settles (p >>= f) s Q E :=
  bind hp fun _ _ h => h

theorem ofExcept {r : Except ε α} (hok : ∀ a, r = .ok a → Q a s)
    (herr : ∀ e, r = .error e → E e s) : Settles (StepLogic.ofExcept r : Proc σ ε α) s Q E :=
  Follows.ofExcept hok herr

theorem attempt {p : Proc σ ε α} {Q' : Except ε α → σ → Prop}
    (h : Settles p s (fun a => Q' (.ok a)) (fun e => Q' (.error e))) :
    Settles (StepLogic.attempt p) s Q' E :=
  Follows.attempt h

/-- The rest runs if the call succeeded. -/
theorem orRaise_then {describe : ε' → ε} {r : Except ε' β} {f : β → Proc σ ε α}
    (hok : ∀ b, r = .ok b → Settles (f b) s Q E)
    (herr : ∀ error, r = .error error → E (describe error) s) :
    Settles (orRaise describe r >>= f) s Q E := by
  cases r with
  | ok b => exact hok b rfl
  | error error => exact bind (P := fun _ _ => False) (raise (herr error rfl)) nofun

theorem forM {γ : Type} {f : γ → Proc σ ε Unit} (I : List γ → σ → Prop) (xs : List γ)
    (hinit : I xs s)
    (hbody : ∀ x rest t, I (x :: rest) t → Settles (f x) t (fun _ => I rest) E) :
    Settles (xs.forM f) s (fun _ => I []) E := by
  induction xs generalizing s with
  | nil => exact pure hinit
  | cons x rest ih => exact bind (hbody x rest s hinit) fun _ t ht => ih ht

theorem mapM {γ : Type} {f : γ → Proc σ ε α} {I : σ → Prop} (xs : List γ) (hinit : I s)
    (hbody : ∀ x t, I t → Settles (f x) t (fun _ => I) E) :
    Settles (xs.mapM f) s (fun _ => I) E := by
  induction xs generalizing s with
  | nil => exact pure hinit
  | cons x rest ih =>
    rw [List.mapM_cons]
    exact bind (hbody x s hinit) fun _ t ht => bind (ih ht) fun _ _ h => pure h

/-- Running a program whose result is known. -/
theorem of_run {p : Proc σ ε α} {a : α} {t : σ} (h : p s = (.ok a, t)) (hQ : Q a t) :
    Settles p s Q E := by
  unfold Settles Follows
  rw [h]
  exact ⟨.single trivial, hQ⟩

/-- A settled program has returned or ended in an error. -/
theorem cases {p : Proc σ ε α} (h : Settles p s Q E) :
    (∃ a t, p s = (.ok a, t) ∧ Q a t) ∨ ∃ e t, p s = (.error (.error e), t) ∧ E e t := by
  unfold Settles Follows at h
  generalize p s = result at h
  match result, h with
  | (.ok a, t), h => exact .inl ⟨a, t, rfl, h.2⟩
  | (.error (.error e), t), h => exact .inr ⟨e, t, rfl, h.2⟩
  | (.error .crashed, _), ⟨_, _, hdown⟩ => exact hdown.elim

theorem focus {view : σ → τ} {put : τ → σ → σ} {p : Proc τ ε α}
    (h : Settles p (view s) (fun a t => Q a (put t s)) (fun e t => E e (put t s))) :
    Settles (OutcomeLogic.focus view put p) s Q E := by
  rcases h.cases with ⟨a, t, hrun, hQ⟩ | ⟨e, t, hrun, hE⟩
  · refine of_run (a := a) (t := put t s) ?_ hQ
    simp only [OutcomeLogic.focus, hrun]
  · unfold Settles Follows
    simp only [OutcomeLogic.focus, hrun]
    exact ⟨.single trivial, hE⟩

end Settles

end OutcomeLogic
