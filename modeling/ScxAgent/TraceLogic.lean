import ScxAgent.StepLogic

/-!
# What programs leave in a trace

A traced program runs on a state together with a list of events that it only extends. `Emits` says
which lists of events it may append when it returns and when it stops early. `Staged` describes the
trace of a program made of stages that run one after another until one of them is cut short.
-/

namespace TraceLogic

open StepLogic List

structure Traced (σ κ : Type) where
  state : σ
  trace : List κ

variable {σ κ ε ε' α β : Type}

def emit (event : κ) : Proc (Traced σ κ) ε Unit :=
  modify fun s => { s with trace := s.trace ++ [event] }

/-- A call that always answers and leaves no event. -/
def consult (call : σ → α × σ) : Proc (Traced σ κ) ε α := fun s =>
  (.ok (call s.state).1, { s with state := (call s.state).2 })

/-- A call that always answers; its answer is part of the event. -/
def ask (call : σ → α × σ) (event : α → κ) : Proc (Traced σ κ) ε α := fun s =>
  (.ok (call s.state).1, ⟨(call s.state).2, s.trace ++ [event (call s.state).1]⟩)

/-- A program on the inner state whose error is an answer. If it halts otherwise, so does the
caller. -/
def observe (p : Proc σ ε' α) (event : Except ε' α → κ) :
    Proc (Traced σ κ) ε (Except ε' α) := fun s =>
  match p s.state with
  | (.ok a, t) => (.ok (.ok a), ⟨t, s.trace ++ [event (.ok a)]⟩)
  | (.error (.error e), t) => (.ok (.error e), ⟨t, s.trace ++ [event (.error e)]⟩)
  | (.error .crashed, t) => (.error .crashed, { s with state := t })
  | (.error .panicked, t) => (.error .panicked, { s with state := t })

/-- From every state the program appends a list that is in `Q` if it returns and in `E` if it does
not. -/
def Emits (p : Proc (Traced σ κ) ε α) (Q : α → List κ → Prop) (E : Halt ε → List κ → Prop) : Prop :=
  ∀ s, ∃ new, (p s).2.trace = s.trace ++ new ∧
    match (p s).1 with
    | .ok a => Q a new
    | .error halt => E halt new

/-- The lists of a program that stops early only by an error. -/
def Erring (L : List κ → Prop) : Halt ε → List κ → Prop
  | .error _, l => L l
  | _, _ => False

variable {l : List κ} {l' : List κ} {finished : Bool}

theorem Erring.imp {L L' : List κ → Prop} {halt : Halt ε} (h : Erring L halt l) (himp : L l → L' l') :
    Erring L' halt l' :=
  match halt, h with
  | .error _, h => himp h

namespace Emits

variable {Q : α → List κ → Prop} {E : Halt ε → List κ → Prop}

theorem pure {a : α} (h : Q a []) : Emits (Pure.pure a : Proc (Traced σ κ) ε α) Q E :=
  fun s => ⟨[], (append_nil s.trace).symm, h⟩

theorem raise {e : ε} (h : E (.error e) []) :
    Emits (StepLogic.raise e : Proc (Traced σ κ) ε α) Q E :=
  fun s => ⟨[], (append_nil s.trace).symm, h⟩

variable {p : Proc (Traced σ κ) ε α} {E' : Halt ε → List κ → Prop}

theorem conseq {Q' : α → List κ → Prop} (h : Emits p Q E) (hQ : ∀ a l, Q a l → Q' a l)
    (hE : ∀ halt l, E halt l → E' halt l) : Emits p Q' E' := by
  intro s
  obtain ⟨new, htrace, hlist⟩ := h s
  refine ⟨new, htrace, ?_⟩
  cases hresult : (p s).1 with
  | ok a =>
    rw [hresult] at hlist
    exact hQ a new hlist
  | error halt =>
    rw [hresult] at hlist
    exact hE halt new hlist

/-- One run of the program. -/
theorem run (h : Emits p Q E) (s : Traced σ κ) :
    ∃ new, (p s).2.trace = s.trace ++ new ∧ (∀ a, (p s).1 = .ok a → Q a new) ∧
      ∀ halt, (p s).1 = .error halt → E halt new := by
  obtain ⟨new, htrace, hlist⟩ := h s
  refine ⟨new, htrace, fun a ha => ?_, fun halt hhalt => ?_⟩
  · rwa [ha] at hlist
  · rwa [hhalt] at hlist

/-- The second program is judged by what it appends to the list of the first. -/
theorem bind {p : Proc (Traced σ κ) ε β} {f : β → Proc (Traced σ κ) ε α} {P : β → List κ → Prop}
    (hp : Emits p P E)
    (hf : ∀ b l, P b l → Emits (f b) (fun a l' => Q a (l ++ l')) fun halt l' => E halt (l ++ l')) :
    Emits (p >>= f) Q E := by
  intro s
  obtain ⟨first, htrace, hlist⟩ := hp s
  have hrun : (p >>= f) s = ExceptT.bindCont f (p s).1 (p s).2 := rfl
  rw [hrun]
  cases hresult : (p s).1 with
  | error halt =>
    rw [hresult] at hlist
    exact ⟨first, htrace, hlist⟩
  | ok b =>
    rw [hresult] at hlist
    obtain ⟨second, htrace', hlist'⟩ := hf b first hlist (p s).2
    refine ⟨first ++ second, ?_, hlist'⟩
    rw [← append_assoc, ← htrace]
    exact htrace'

theorem emit {event : κ} {Q : Unit → List κ → Prop} (h : Q () [event]) :
    Emits (TraceLogic.emit event : Proc (Traced σ κ) ε Unit) Q E :=
  fun _ => ⟨[event], rfl, h⟩

variable {call : σ → α × σ}

theorem consult (h : ∀ a, Q a []) : Emits (TraceLogic.consult call : Proc (Traced σ κ) ε α) Q E :=
  fun s => ⟨[], (append_nil s.trace).symm, h _⟩

theorem ask {event : α → κ} (h : ∀ a, Q a [event a]) :
    Emits (TraceLogic.ask call event : Proc (Traced σ κ) ε α) Q E :=
  fun _ => ⟨[event _], rfl, h _⟩

theorem observe {p : Proc σ ε' α} {event : Except ε' α → κ} {Q : Except ε' α → List κ → Prop}
    (h : ∀ r, Q r [event r]) (hcrash : E .crashed []) (hpanic : E .panicked []) :
    Emits (TraceLogic.observe p event : Proc (Traced σ κ) ε (Except ε' α)) Q E := by
  intro s
  unfold TraceLogic.observe
  split
  · exact ⟨[event _], rfl, h _⟩
  · exact ⟨[event _], rfl, h _⟩
  · exact ⟨[], (append_nil s.trace).symm, hcrash⟩
  · exact ⟨[], (append_nil s.trace).symm, hpanic⟩

/-- A caught error leaves the list of a program that stopped early; any other halt stays one. -/
theorem attempt_halting {R : Except ε α → List κ → Prop} (h : Emits p Q E)
    (hok : ∀ a l, Q a l → R (.ok a) l) (herr : ∀ e l, E (.error e) l → R (.error e) l)
    (hcrash : ∀ l, E .crashed l → E' .crashed l) (hpanic : ∀ l, E .panicked l → E' .panicked l) :
    Emits (StepLogic.attempt p) R E' := by
  intro s
  obtain ⟨new, htrace, hlist⟩ := h s
  have hrun : StepLogic.attempt p s = caught (p s) := rfl
  rw [hrun]
  generalize p s = result at htrace hlist
  obtain ⟨r, t⟩ := result
  cases r with
  | ok a => exact ⟨new, htrace, hok a new hlist⟩
  | error halt =>
    cases halt with
    | error e => exact ⟨new, htrace, herr e new hlist⟩
    | crashed => exact ⟨new, htrace, hcrash new hlist⟩
    | panicked => exact ⟨new, htrace, hpanic new hlist⟩

/-- The outcome of a program that stops early only by an error. -/
theorem attempt {Q' : Except ε α → List κ → Prop} {L : List κ → Prop} (h : Emits p Q (Erring L))
    (hok : ∀ a l, Q a l → Q' (.ok a) l) (herr : ∀ e l, L l → Q' (.error e) l) :
    Emits (StepLogic.attempt p) Q' E :=
  h.attempt_halting hok herr (fun _ => False.elim) fun _ => False.elim

end Emits

/-! ## Stages -/

/-- The lists of a stage that ran to its end, and of one that was cut short. -/
structure Stage (κ : Type) where
  complete : List κ → Prop
  cut : List κ → Prop

/-- The stages run in order; the first one that is cut short is the last one that runs. -/
inductive Staged : List (Stage κ) → Bool → List κ → Prop
  | done : Staged [] true []
  | cut {stage : Stage κ} {rest : List (Stage κ)} {l : List κ} (h : stage.cut l) :
      Staged (stage :: rest) false l
  | next {stage : Stage κ} {rest : List (Stage κ)} {finished : Bool} {l l' : List κ}
      (h : stage.complete l) (hrest : Staged rest finished l') :
      Staged (stage :: rest) finished (l ++ l')

theorem Staged.append {first second : List (Stage κ)} (h : Staged first true l)
    (h' : Staged second finished l') : Staged (first ++ second) finished (l ++ l') := by
  induction first generalizing l with
  | nil =>
    cases h
    exact h'
  | cons stage rest ih =>
    cases h with
    | next hstage hrest =>
      rw [append_assoc]
      exact .next hstage (ih hrest)

theorem Staged.cut_append {first : List (Stage κ)} (second : List (Stage κ))
    (h : Staged first false l) : Staged (first ++ second) false l := by
  induction first generalizing l with
  | nil => cases h
  | cons stage rest ih =>
    cases h with
    | cut hstage => exact .cut hstage
    | next hstage hrest => exact .next hstage (ih hrest)

/-- A property of lists that survives concatenation holds of a staged list if it holds of every
stage. -/
theorem Staged.of_stages {P : List κ → Prop} (hnil : P [])
    (happend : ∀ l l', P l → P l' → P (l ++ l')) {stages : List (Stage κ)}
    (h : Staged stages finished l)
    (hstages : ∀ stage ∈ stages, ∀ l, stage.complete l ∨ stage.cut l → P l) : P l := by
  induction h with
  | done => exact hnil
  | cut h => exact hstages _ mem_cons_self _ (.inr h)
  | next h hrest ih =>
    refine happend _ _ (hstages _ mem_cons_self _ (.inl h)) (ih fun stage hmem => ?_)
    exact hstages stage (mem_cons_of_mem _ hmem)

end TraceLogic
