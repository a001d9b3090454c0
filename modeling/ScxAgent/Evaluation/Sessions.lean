import ScxAgent.Evaluation.Protocol

/-!
# What an evaluation calls

`Calls` describes a program of the evaluation by the calls it makes: nothing fails before it returns,
and after a failure it only closes a session. A measurement makes the calls of one session, which is
closed however its samples, its budget and its receipt turn out.
-/

namespace ScxAgent.Evaluation

open Std StepLogic TraceLogic List

section Events

variable {V : Type}

namespace Event

def isCall : Event V → Bool
  | .waited _ | .failed _ => false
  | _ => true

def isFailure : Event V → Bool
  | .failed _ => true
  | _ => false

def isClose : Event V → Bool
  | .closed .. => true
  | _ => false

end Event

def calls (l : List (Event V)) : List (Event V) := l.filter Event.isCall

@[simp] theorem calls_append (l l' : List (Event V)) : calls (l ++ l') = calls l ++ calls l' :=
  filter_append l l'

/-- Nothing failed. -/
def Quiet (l : List (Event V)) : Prop := ∀ e ∈ l, e.isFailure = false

/-- From the first failure on only sessions are closed. -/
def StopsAtFailure (l : List (Event V)) : Prop :=
  ∃ before after, l = before ++ after ∧ Quiet before ∧ ∀ e ∈ calls after, e.isClose = true

variable {l l' : List (Event V)}

theorem Quiet.nil : Quiet ([] : List (Event V)) := nofun

theorem Quiet.append (h : Quiet l) (h' : Quiet l') : Quiet (l ++ l') := fun e he =>
  (mem_append.mp he).elim (h e) (h' e)

theorem Quiet.of_calls (h : calls l = l) : Quiet l := by
  intro e he
  rw [← h] at he
  have hcall := (mem_filter.mp he).2
  cases e <;> first | rfl | cases hcall

theorem Quiet.stops (h : Quiet l) : StopsAtFailure l :=
  ⟨l, [], (append_nil l).symm, h, nofun⟩

theorem StopsAtFailure.of_calls_nil (h : calls l = []) : StopsAtFailure l :=
  ⟨[], l, rfl, .nil, fun e he => by rw [h] at he; cases he⟩

theorem StopsAtFailure.after (h : StopsAtFailure l') (hquiet : Quiet l) :
    StopsAtFailure (l ++ l') := by
  obtain ⟨before, after, rfl, hbefore, hafter⟩ := h
  exact ⟨l ++ before, after, (append_assoc ..).symm, hquiet.append hbefore, hafter⟩

theorem StopsAtFailure.closing (h : StopsAtFailure l) (hcloses : ∀ e ∈ calls l', e.isClose = true) :
    StopsAtFailure (l ++ l') := by
  obtain ⟨before, after, rfl, hbefore, hafter⟩ := h
  refine ⟨before, after ++ l', append_assoc .., hbefore, fun e he => ?_⟩
  rw [calls_append, mem_append] at he
  exact he.elim (hafter e) (hcloses e)

end Events

/-- What a program calls, when nothing fails and when it stops. -/
def Calls {V σ α : Type} (p : EvaluationM V σ α) (Q : α → List (Event V) → Prop)
    (C : Halt EvaluationError → List (Event V) → Prop) : Prop :=
  Emits p (fun a l => Quiet l ∧ Q a (calls l)) fun halt l => StopsAtFailure l ∧ C halt (calls l)

/-- A program that calls nothing. -/
def Silent {V σ α : Type} (p : EvaluationM V σ α) : Prop :=
  Emits p (fun _ l => Quiet l ∧ calls l = []) (Erring fun l => calls l = [])

theorem emits_refuse {V σ α : Type} {Q : α → List (Event V) → Prop} (error : EvaluationError) :
    Emits (refuse error : EvaluationM V σ α) Q (Erring fun l => calls l = []) := by
  refine Emits.bind (P := fun _ l => l = [.failed error]) (.emit rfl) ?_
  rintro _ _ rfl
  exact .raise rfl

theorem emits_orRefuse {V σ α : Type} {Q : α → List (Event V) → Prop}
    (r : Except EvaluationError α) (h : ∀ a, r = .ok a → Q a []) :
    Emits (orRefuse r : EvaluationM V σ α) Q (Erring fun l => calls l = []) := by
  cases r with
  | ok a => exact .pure (h a rfl)
  | error error => exact emits_refuse error

namespace Silent

variable {V σ α β : Type}

theorem pure (a : α) : Silent (Pure.pure a : EvaluationM V σ α) := Emits.pure ⟨.nil, rfl⟩

theorem bind {p : EvaluationM V σ β} {f : β → EvaluationM V σ α} (hp : Silent p)
    (hf : ∀ b, Silent (f b)) : Silent (p >>= f) := by
  refine Emits.bind hp fun b l hl => (hf b).conseq ?_ ?_
  · rintro a l' ⟨hquiet, hcalls⟩
    exact ⟨hl.1.append hquiet, by rw [calls_append, hl.2, hcalls]; rfl⟩
  · rintro (error | _ | _) l' hcalls
    · exact (by rw [calls_append, hl.2, hcalls]; rfl : calls (l ++ l') = [])
    · exact hcalls
    · exact hcalls

theorem consult (call : σ → α × σ) : Silent (TraceLogic.consult call : EvaluationM V σ α) :=
  Emits.consult fun _ => ⟨.nil, rfl⟩

theorem refuse (error : EvaluationError) : Silent (Evaluation.refuse error : EvaluationM V σ α) :=
  emits_refuse error

theorem orRefuse (r : Except EvaluationError α) :
    Silent (Evaluation.orRefuse r : EvaluationM V σ α) :=
  emits_orRefuse r fun _ _ => ⟨.nil, rfl⟩

theorem ite {c : Prop} [Decidable c] {p q : EvaluationM V σ α} (hp : Silent p) (hq : Silent q) :
    Silent (if c then p else q) := by
  split_ifs
  · exact hp
  · exact hq

variable (clock : Clock σ) (deadline : EvaluationDeadline)

theorem check (stage : String) : Silent (deadline.check clock stage : EvaluationM V σ Unit) :=
  (consult _).bind fun _ => ite ((consult _).bind fun _ => refuse _) (pure _)

theorem ensureProviderCall (info : CapabilityMeta V) (stage : String) :
    Silent (deadline.ensureProviderCall clock info stage) :=
  (check clock deadline stage).bind fun _ => (consult _).bind fun _ => ite (refuse _) (pure _)

theorem settle (duration : ℕ) (stage : String) :
    Silent (deadline.settle clock duration stage : EvaluationM V σ Unit) := by
  have hwait : Silent (ask (clock.sleep duration) fun _ => .waited duration :
      EvaluationM V σ Unit) :=
    Emits.ask fun _ => ⟨by simp [Quiet, Event.isFailure], rfl⟩
  have hrest := ite (c := duration ≠ 0) (hwait.bind fun _ => check clock deadline stage)
    (check clock deadline stage)
  refine (check clock deadline stage).bind fun _ => (consult _).bind fun _ => ?_
  exact ite ((refuse _).bind fun _ => hrest) hrest

/-- The outcome of a silent program that is looked at later. -/
theorem attempt {p : EvaluationM V σ α} {E : Halt EvaluationError → List (Event V) → Prop}
    (hp : Silent p) :
    Emits (StepLogic.attempt p) (fun r l => calls l = [] ∧ ∀ a, r = .ok a → Quiet l) E := by
  refine Emits.attempt hp ?_ ?_
  · rintro a l ⟨hquiet, hcalls⟩
    exact ⟨hcalls, fun _ _ => hquiet⟩
  · intro error l hcalls
    exact ⟨hcalls, nofun⟩

end Silent

namespace Calls

variable {V F σ α β : Type} {Q : α → List (Event V) → Prop}
  {C : Halt EvaluationError → List (Event V) → Prop}

theorem pure {a : α} (h : Q a []) : Calls (Pure.pure a : EvaluationM V σ α) Q C :=
  Emits.pure ⟨.nil, h⟩

theorem conseq {p : EvaluationM V σ α} {Q' : α → List (Event V) → Prop}
    {C' : Halt EvaluationError → List (Event V) → Prop} (h : Calls p Q C)
    (hQ : ∀ a c, Q a c → Q' a c) (hC : ∀ halt c, C halt c → C' halt c) : Calls p Q' C' :=
  Emits.conseq h (fun a _ hl => ⟨hl.1, hQ a _ hl.2⟩) fun halt _ hl => ⟨hl.1, hC halt _ hl.2⟩

theorem bind {p : EvaluationM V σ β} {f : β → EvaluationM V σ α} {P : β → List (Event V) → Prop}
    (hp : Calls p P C)
    (hf : ∀ b c, P b c → Calls (f b) (fun a c' => Q a (c ++ c')) fun halt c' => C halt (c ++ c')) :
    Calls (p >>= f) Q C := by
  refine Emits.bind hp fun b l hl => Emits.conseq (hf b (calls l) hl.2) ?_ ?_
  · rintro a l' ⟨hquiet, hQ⟩
    exact ⟨hl.1.append hquiet, by rwa [calls_append]⟩
  · rintro halt l' ⟨hstops, hC⟩
    exact ⟨hstops.after hl.1, by rwa [calls_append]⟩

theorem silent {p : EvaluationM V σ α} (hp : Silent p) (h : ∀ a, Q a [])
    (hC : ∀ error, C (.error error) []) : Calls p Q C := by
  refine Emits.conseq hp ?_ ?_
  · rintro a l ⟨hquiet, hcalls⟩
    exact ⟨hquiet, by rw [hcalls]; exact h a⟩
  · rintro (error | _ | _) l hcalls
    · exact ⟨.of_calls_nil hcalls, by rw [show calls l = [] from hcalls]; exact hC error⟩
    · exact hcalls.elim
    · exact hcalls.elim

/-- A silent program in front of another one. -/
theorem silent_bind {p : EvaluationM V σ β} {f : β → EvaluationM V σ α} (hp : Silent p)
    (hC : ∀ error, C (.error error) []) (hf : ∀ b, Calls (f b) Q C) : Calls (p >>= f) Q C := by
  refine bind (P := fun _ c => c = []) (silent hp (fun _ => rfl) hC) ?_
  rintro b _ rfl
  exact hf b

theorem refuse {error : EvaluationError} (h : C (.error error) []) :
    Calls (Evaluation.refuse error : EvaluationM V σ α) Q C := by
  refine Emits.bind (P := fun _ l => l = [.failed error]) (.emit rfl) ?_
  rintro _ _ rfl
  exact .raise ⟨.of_calls_nil rfl, h⟩

variable {p : EvaluationM V σ α} {L : List (Event V) → Prop}

theorem erring (h : Calls p Q (Erring L)) :
    Emits p (fun a l => Quiet l ∧ Q a (calls l))
      (Erring fun l => StopsAtFailure l ∧ L (calls l)) :=
  Emits.conseq h (fun _ _ hl => hl) fun _ _ hl => hl.2.imp fun hL => ⟨hl.1, hL⟩

theorem of_erring
    (h : Emits p (fun a l => Quiet l ∧ Q a (calls l)) (Erring fun l => StopsAtFailure l ∧ L (calls l)))
    : Calls p Q (Erring L) := by
  refine Emits.conseq h (fun _ _ hl => hl) ?_
  rintro (error | _ | _) l hl
  · exact hl
  · exact hl.elim
  · exact hl.elim

theorem orRefuse {r : Except EvaluationError α} (hok : ∀ a, r = .ok a → Q a [])
    (herr : ∀ error, C (.error error) []) :
    Calls (Evaluation.orRefuse r : EvaluationM V σ α) Q C := by
  cases r with
  | ok a => exact pure (hok a rfl)
  | error error => exact refuse (herr error)

theorem ask {call : σ → α × σ} {event : α → Event V} (hcall : ∀ a, (event a).isCall = true)
    (h : ∀ a, Q a [event a]) : Calls (TraceLogic.ask call event : EvaluationM V σ α) Q C := by
  refine Emits.ask fun a => ?_
  have hcalls : calls [event a] = [event a] := by simp [calls, hcall a]
  exact ⟨.of_calls hcalls, by rw [hcalls]; exact h a⟩

theorem observe {p : Proc σ String α} {event : Except String α → Event V}
    {Q : Except String α → List (Event V) → Prop} (hcall : ∀ a, (event a).isCall = true)
    (h : ∀ a, Q a [event a]) (hcrash : C .crashed []) (hpanic : C .panicked []) :
    Calls (TraceLogic.observe p event : EvaluationM V σ (Except String α)) Q C := by
  refine Emits.observe (fun a => ?_) ⟨Quiet.nil.stops, hcrash⟩ ⟨Quiet.nil.stops, hpanic⟩
  have hcalls : calls [event a] = [event a] := by simp [calls, hcall a]
  exact ⟨.of_calls hcalls, by rw [hcalls]; exact h a⟩

end Calls

section Sessions

variable {V F σ : Type} [JsonValue V F] [MetricNumber F] [Serialize (MetricBatch V)]
  [Serialize (CleanupReceipt V)] (clock : Clock σ) (provider : MeasurementProvider V σ)
  (binding : MeasurementBinding V) (context : InvocationContext)

omit [JsonValue V F] [MetricNumber F] [Serialize (MetricBatch V)] [Serialize (CleanupReceipt V)] in
theorem Silent.ensureOutputLimit {β : Type} [Serialize β] (info : CapabilityMeta V) (value : β)
    (label : String) :
    Silent (Evaluation.ensureOutputLimit info value label : EvaluationM V σ Unit) := by
  unfold Evaluation.ensureOutputLimit
  split
  · exact refuse _
  · exact ite (refuse _) (pure _)

/-- The calls of a sampling loop with the given answers. -/
def sampleCalls (session : MeasurementSession V)
    (answers : List (Except ProviderError (MetricBatch V))) : List (Event V) :=
  answers.map (.sampled binding ⟨context, session⟩)

/-- The calls of a loop that stopped within the given number of samples. -/
def SampledUpTo (session : MeasurementSession V) (bound : ℕ) (c : List (Event V)) : Prop :=
  ∃ answers, answers.length ≤ bound ∧ c = sampleCalls binding context session answers

variable {binding context} in
omit [JsonValue V F] [MetricNumber F] [Serialize (MetricBatch V)] [Serialize (CleanupReceipt V)] in
theorem SampledUpTo.cons {session : MeasurementSession V} {bound : ℕ} {c : List (Event V)}
    (answer : Except ProviderError (MetricBatch V))
    (h : SampledUpTo binding context session bound c) :
    SampledUpTo binding context session (bound + 1)
      (sampleCalls binding context session [answer] ++ c) := by
  obtain ⟨answers, hlength, rfl⟩ := h
  exact ⟨answer :: answers, by simpa using hlength, rfl⟩

section Session

variable (session : MeasurementSession V)

omit [Serialize (CleanupReceipt V)] in
theorem calls_takeSample (deadline : EvaluationDeadline) (number : ℕ) :
    Calls (takeSample clock provider binding context session deadline number)
      (fun batch c => c = sampleCalls binding context session [.ok batch])
      (Erring (SampledUpTo binding context session 1)) := by
  have hnone : SampledUpTo binding context session 0 [] := ⟨[], le_rfl, rfl⟩
  refine .silent_bind (.ensureProviderCall clock deadline _ _) (fun _ => ⟨[], by simp, rfl⟩) fun _ => ?_
  refine .bind (P := fun answer c => c = sampleCalls binding context session [answer])
    (.ask (fun _ => rfl) fun _ => rfl) ?_
  rintro answer _ rfl
  refine .silent_bind (.check clock deadline _) (fun _ => hnone.cons answer) fun _ => ?_
  cases answer with
  | error error => exact .refuse (hnone.cons _)
  | ok batch =>
    refine .silent_bind (.ensureOutputLimit _ _ _) (fun _ => hnone.cons _) fun _ => ?_
    split
    · exact .refuse (hnone.cons _)
    · exact .pure (by simp)

omit [Serialize (CleanupReceipt V)] in
theorem calls_sampleRest (plan : SamplingPlan) (deadline : EvaluationDeadline) (remaining : ℕ)
    (samples : List (MetricBatch V)) :
    Calls (sampleRest clock provider binding context session plan deadline remaining samples)
      (fun all c => ∃ taken, all = samples ++ taken ∧ taken.length = remaining ∧
        c = sampleCalls binding context session (taken.map .ok))
      (Erring (SampledUpTo binding context session remaining)) := by
  induction remaining generalizing samples with
  | zero => exact .pure ⟨[], by simp, rfl, rfl⟩
  | succ remaining ih =>
    have hnone : SampledUpTo binding context session remaining [] := ⟨[], by simp, rfl⟩
    have hone := calls_takeSample clock provider binding context session deadline
      (plan.sampleCount - remaining)
    refine .bind (hone.conseq (fun _ _ h => h) fun halt c hc => hc.imp ?_) ?_
    · rintro ⟨answers, hlength, rfl⟩
      exact ⟨answers, by omega, rfl⟩
    · rintro batch _ rfl
      have htail : Calls
          (sampleRest clock provider binding context session plan deadline remaining
            (samples ++ [batch]))
          (fun all c => ∃ taken, all = samples ++ taken ∧ taken.length = remaining + 1 ∧
            sampleCalls binding context session [.ok batch] ++ c =
              sampleCalls binding context session (taken.map .ok))
          (fun halt c => Erring (SampledUpTo binding context session (remaining + 1)) halt
            (sampleCalls binding context session [.ok batch] ++ c)) := by
        refine (ih (samples ++ [batch])).conseq ?_ fun halt c hc => hc.imp (·.cons _)
        rintro all _ ⟨taken, rfl, hlength, rfl⟩
        exact ⟨batch :: taken, by simp, by simpa using hlength, rfl⟩
      dsimp only
      split_ifs
      · exact .silent_bind (.settle clock _ _ _) (fun _ => hnone.cons _) fun _ => htail
      · exact htail

omit [Serialize (MetricBatch V)] in
theorem Silent.confirmCleanup (samples : Except EvaluationError (List (MetricBatch V)))
    (answer : Except ProviderError (CleanupReceipt V)) :
    Silent (confirmCleanup provider binding session samples answer) := by
  unfold Evaluation.confirmCleanup
  split
  · exact ite (refuse _) (ite ((ensureOutputLimit _ _ _).bind fun _ => pure _) (refuse _))
  · exact refuse _

omit [Serialize (MetricBatch V)] in
/-- A session is closed once, however its samples and its budget turned out. -/
theorem emits_closeSession (samples : Except EvaluationError (List (MetricBatch V)))
    (plan : SamplingPlan) (deadline : EvaluationDeadline) :
    Emits (closeSession clock provider binding session samples plan deadline)
      (fun evidence l => Quiet l ∧ (∃ answer, calls l = [.closed binding session answer]) ∧
        ∃ taken, samples = .ok taken ∧ aggregateSamples taken = .ok evidence.batch)
      (Erring fun l => ∃ answer, calls l = [.closed binding session answer]) := by
  refine Emits.bind (Silent.ensureProviderCall clock deadline _ _).attempt ?_
  rintro admission l₁ ⟨hcalls₁, hquiet₁⟩
  refine Emits.bind (P := fun answer l => l = [.closed binding session answer]) (.ask fun _ => rfl) ?_
  rintro answer _ rfl
  refine Emits.bind (Silent.check clock deadline _).attempt ?_
  rintro budget l₂ ⟨hcalls₂, hquiet₂⟩
  have hcalls (l : List (Event V)) (hl : calls l = []) :
      calls (l₁ ++ ([.closed binding session answer] ++ (l₂ ++ l))) =
        [.closed binding session answer] := by
    rw [calls_append, calls_append, calls_append, hcalls₁, hcalls₂, hl]
    rfl
  refine Emits.bind (P := fun _ l => Quiet l ∧ calls l = []) ?_ ?_
  · refine (Silent.confirmCleanup provider binding session samples answer).conseq
      (fun _ _ h => h) fun halt l hl => ?_
    exact hl.imp fun hl => ⟨answer, hcalls l hl⟩
  · rintro cleanup l₃ ⟨hquiet₃, hcalls₃⟩
    have hstopped : ∃ answer', calls (l₁ ++ ([.closed binding session answer] ++ (l₂ ++ (l₃ ++ [])))) =
        [.closed binding session answer'] := ⟨answer, hcalls _ (by rw [append_nil, hcalls₃])⟩
    cases admission with
    | error error => exact Emits.raise hstopped
    | ok admitted =>
      cases budget with
      | error error => exact Emits.raise hstopped
      | ok kept =>
        cases samples with
        | error error => exact Emits.raise hstopped
        | ok taken =>
          refine Emits.bind (p := orRefuse (aggregateSamples taken))
            (P := fun batch l => aggregateSamples taken = .ok batch ∧ l = []) ?_ ?_
          · refine (emits_orRefuse _ fun batch hbatch => ⟨hbatch, rfl⟩).conseq (fun _ _ h => h)
              fun halt l hl => hl.imp fun hl => ⟨answer, hcalls _ ?_⟩
            rw [calls_append, hcalls₃, hl]
            rfl
          · rintro batch _ ⟨hbatch, rfl⟩
            refine .pure ⟨?_, ⟨answer, hcalls _ (by simpa using hcalls₃)⟩, taken, rfl, hbatch⟩
            have hclosed : Quiet [Event.closed binding session answer] := .of_calls rfl
            have hrest : Quiet (l₂ ++ (l₃ ++ ([] ++ []))) := by
              simpa using (hquiet₂ _ rfl).append hquiet₃
            exact (hquiet₁ _ rfl).append (hclosed.append hrest)

/-- The calls of a session that was opened, from its opening to its closing. -/
def sessionCalls (answers : List (Except ProviderError (MetricBatch V)))
    (closing : Except ProviderError (CleanupReceipt V)) : List (Event V) :=
  .opened binding ⟨context, binding.specification⟩ (.ok session) ::
    (sampleCalls binding context session answers ++ [.closed binding session closing])

/-- The calls of a measurement that did not end well: it was not begun, it was not opened, or it was
opened and closed. -/
inductive BrokenSession (bound : ℕ) : List (Event V) → Prop
  | none : BrokenSession bound []
  | refused (error : ProviderError) :
      BrokenSession bound [.opened binding ⟨context, binding.specification⟩ (.error error)]
  | held (session : MeasurementSession V) (answers : List (Except ProviderError (MetricBatch V)))
      (closing : Except ProviderError (CleanupReceipt V)) (hlength : answers.length ≤ bound) :
      BrokenSession bound (sessionCalls binding context session answers closing)

/-- The calls of a measurement whose samples were aggregated into `batch`. -/
def MeasuredSession (plan : SamplingPlan) (batch : MetricBatch V) (c : List (Event V)) : Prop :=
  ∃ session taken closing, taken.length = plan.sampleCount ∧ aggregateSamples taken = .ok batch ∧
    c = sessionCalls binding context session (taken.map .ok) closing

theorem emits_lateSession (error : EvaluationError) (plan : SamplingPlan)
    (deadline : EvaluationDeadline) :
    Emits (runSession clock provider binding context session (.error error) plan deadline)
      (fun _ _ => False) (Erring fun l => ∃ answer, calls l = [.closed binding session answer]) := by
  refine (emits_closeSession clock provider binding session (.error error) plan deadline).conseq
    ?_ fun _ _ h => h
  rintro evidence l ⟨-, -, taken, htaken, -⟩
  cases htaken

theorem calls_runSession (plan : SamplingPlan) (deadline : EvaluationDeadline) :
    Calls (runSession clock provider binding context session (.ok ()) plan deadline)
      (fun evidence c => ∃ taken closing, taken.length = plan.sampleCount ∧
        aggregateSamples taken = .ok evidence.batch ∧
        c = sampleCalls binding context session (taken.map .ok) ++ [.closed binding session closing])
      (Erring fun c => ∃ answers closing, answers.length ≤ plan.sampleCount ∧
        c = sampleCalls binding context session answers ++ [.closed binding session closing]) := by
  have hsampling : Emits
      (attempt (sampleSession clock provider binding context session plan deadline))
      (fun r l => (∀ taken, r = .ok taken → Quiet l ∧ taken.length = plan.sampleCount ∧
          calls l = sampleCalls binding context session (taken.map .ok)) ∧
        StopsAtFailure l ∧ SampledUpTo binding context session plan.sampleCount (calls l))
      (Erring fun _ => False) := by
    refine Emits.attempt (calls_sampleRest clock provider binding context session plan deadline
      plan.sampleCount []).erring ?_ ?_
    · rintro all l ⟨hquiet, _, rfl, hlength, hcalls⟩
      refine ⟨?_, hquiet.stops, all.map .ok, by simp [hlength], hcalls⟩
      rintro _ ⟨⟩
      exact ⟨hquiet, hlength, hcalls⟩
    · rintro error l ⟨hstops, hupto⟩
      exact ⟨nofun, hstops, hupto⟩
  refine .of_erring (Emits.bind (hsampling.conseq (fun _ _ h => h) fun _ _ h => h.imp False.elim) ?_)
  rintro samples l ⟨hok, hstops, answers, hlength, hanswers⟩
  refine (emits_closeSession clock provider binding session samples plan deadline).conseq ?_ ?_
  · rintro evidence l' ⟨hquiet, ⟨closing, hcalls⟩, taken, rfl, hbatch⟩
    obtain ⟨hquiet₀, hlength, htaken⟩ := hok taken rfl
    exact ⟨hquiet₀.append hquiet, taken, closing, hlength, hbatch, by rw [calls_append, htaken, hcalls]⟩
  · refine fun halt l' hl' => hl'.imp ?_
    rintro ⟨closing, hcalls⟩
    refine ⟨hstops.closing ?_, answers, closing, hlength, by rw [calls_append, hanswers, hcalls]⟩
    rw [hcalls]
    simp [Event.isClose]

end Session

theorem calls_collectMeasurement (plan : SamplingPlan) (deadline : EvaluationDeadline) :
    Calls (collectMeasurement clock provider binding context plan deadline)
      (fun evidence => MeasuredSession binding context plan evidence.batch)
      (Erring (BrokenSession binding context plan.sampleCount)) := by
  refine .silent_bind (.ensureProviderCall clock deadline _ _) (fun _ => .none) fun _ => ?_
  refine .of_erring ?_
  refine Emits.bind (P := fun answer l =>
    l = [.opened binding ⟨context, binding.specification⟩ answer]) (.ask fun _ => rfl) ?_
  rintro answer _ rfl
  have hopened : Quiet [Event.opened binding ⟨context, binding.specification⟩ answer] := .of_calls rfl
  refine Emits.bind (Silent.check clock deadline _).attempt ?_
  rintro budget l ⟨hcalls, hquiet⟩
  have hopen (l' : List (Event V)) :
      calls ([.opened binding ⟨context, binding.specification⟩ answer] ++ (l ++ l')) =
        .opened binding ⟨context, binding.specification⟩ answer :: calls l' := by
    rw [calls_append, calls_append, hcalls]
    rfl
  cases answer with
  | error error =>
    have hrefused (l' : List (Event V)) (hl' : calls l' = []) :
        StopsAtFailure ([.opened binding ⟨context, binding.specification⟩ (.error error)] ++ (l ++ l')) ∧
          BrokenSession binding context plan.sampleCount
            (calls ([.opened binding ⟨context, binding.specification⟩ (.error error)] ++ (l ++ l'))) := by
      refine ⟨(StopsAtFailure.of_calls_nil ?_).after hopened, ?_⟩
      · rw [calls_append, hcalls, hl']
        rfl
      · rw [hopen, hl']
        exact .refused error
    cases budget with
    | error late => exact Emits.raise (hrefused [] rfl)
    | ok _ => exact (emits_refuse _).conseq (fun _ _ h => h) fun _ l' hl' => hl'.imp (hrefused l')
  | ok session =>
    cases budget with
    | error late =>
      refine (emits_lateSession clock provider binding context session late plan deadline).conseq
        (fun _ _ h => h.elim) fun _ l' hl' => hl'.imp ?_
      rintro ⟨closing, hclosing⟩
      constructor
      · refine ((StopsAtFailure.of_calls_nil hcalls).closing ?_).after hopened
        rw [hclosing]
        simp [Event.isClose]
      · rw [hopen, hclosing]
        exact .held session [] closing (by simp)
    | ok _ =>
      refine (calls_runSession clock provider binding context session plan deadline).erring.conseq ?_ ?_
      · rintro evidence l' ⟨hquiet', taken, closing, hlength, hbatch, htaken⟩
        refine ⟨hopened.append ((hquiet _ rfl).append hquiet'), session, taken, closing, hlength, hbatch, ?_⟩
        rw [hopen, htaken]
        rfl
      · refine fun _ l' hl' => hl'.imp ?_
        rintro ⟨hstops, answers, closing, hlength, hanswers⟩
        refine ⟨(hstops.after (hquiet _ rfl)).after hopened, ?_⟩
        rw [hopen, hanswers]
        exact .held session answers closing hlength

end Sessions

namespace Calls

variable {V σ α β ι : Type} {Q : α → List (Event V) → Prop} {R : Event V → Prop}

/-- A program that runs some stages and then the rest. -/
theorem stages {p : EvaluationM V σ β} {f : β → EvaluationM V σ α}
    {first : List (Stage (Event V))} (rest : List (Stage (Event V)))
    {P : β → List (Event V) → Prop}
    (hp : Calls p (fun b c => Staged first true c ∧ P b c) fun _ => Staged first false)
    (hf : ∀ b c, P b c → Calls (f b) (fun a c' => Staged rest true c' ∧ Q a (c ++ c'))
      fun _ => Staged rest false) :
    Calls (p >>= f) (fun a c => Staged (first ++ rest) true c ∧ Q a c)
      fun _ => Staged (first ++ rest) false := by
  refine .bind (hp.conseq (fun _ _ h => h) fun _ _ h => h.cut_append rest) ?_
  rintro b c ⟨hfirst, hP⟩
  refine (hf b c hP).conseq ?_ fun _ c' hrest => hfirst.append hrest
  rintro a c' ⟨hrest, hQ⟩
  exact ⟨hfirst.append hrest, hQ⟩

/-- A program that is one stage. -/
theorem stage {p : EvaluationM V σ α} (stage : Stage (Event V)) (hp : Calls p Q fun _ => stage.cut)
    (hcomplete : ∀ a c, Q a c → stage.complete c) :
    Calls p (fun a c => Staged [stage] true c ∧ Q a c) fun _ => Staged [stage] false := by
  refine hp.conseq (fun a c hc => ⟨?_, hc⟩) fun _ c hc => .cut hc
  have hstaged := Staged.next (hcomplete a c hc) .done
  rwa [append_nil] at hstaged

end Calls

end ScxAgent.Evaluation
