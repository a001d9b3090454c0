import ScxAgent.Evaluation.Stages

/-!
# The bracket of an evaluation

Whatever a provider, the transaction or the clock does, an evaluation runs its stages in order and
stops at the first failure, and every session that was opened is closed before anything else is
called.
-/

namespace ScxAgent.Evaluation

open Std StepLogic TraceLogic List

section Brackets

variable {V F σ : Type}

/-- How a call moves the session that is open: samples and closes belong to that session, and nothing
else is called until it is closed. -/
def Event.Moves (current : Option (MeasurementBinding V × MeasurementSession V)) (e : Event V)
    (next : Option (MeasurementBinding V × MeasurementSession V)) : Prop :=
  match e with
  | .opened binding _ (.ok session) => current = none ∧ next = some (binding, session)
  | .sampled binding request _ => current = some (binding, request.session) ∧ next = current
  | .closed binding session _ => current = some (binding, session) ∧ next = none
  | _ => current = none ∧ next = none

/-- Calls that start with the given session open and leave none open. -/
inductive Bracketed :
    Option (MeasurementBinding V × MeasurementSession V) → List (Event V) → Prop
  | nil : Bracketed none []
  | cons {current next : Option (MeasurementBinding V × MeasurementSession V)} {e : Event V}
      {c : List (Event V)} (hmove : e.Moves current next) (hrest : Bracketed next c) :
      Bracketed current (e :: c)

namespace Bracketed

variable {current : Option (MeasurementBinding V × MeasurementSession V)} {c c' : List (Event V)}

theorem append (h : Bracketed current c) (h' : Bracketed none c') : Bracketed current (c ++ c') := by
  induction h with
  | nil => exact h'
  | cons hmove _ ih => exact .cons hmove ih

theorem of_forall (h : ∀ e ∈ c, e.Moves none none) : Bracketed none c := by
  induction c with
  | nil => exact .nil
  | cons e c ih =>
    exact .cons (h e mem_cons_self) (ih fun e' he' => h e' (mem_cons_of_mem e he'))

theorem session (binding : MeasurementBinding V) (context : InvocationContext)
    (session : MeasurementSession V) (answers : List (Except ProviderError (MetricBatch V)))
    (closing : Except ProviderError (CleanupReceipt V)) :
    Bracketed none (sessionCalls binding context session answers closing) := by
  refine .cons ⟨rfl, rfl⟩ ?_
  induction answers with
  | nil => exact .cons ⟨rfl, rfl⟩ .nil
  | cons answer answers ih => exact .cons ⟨rfl, rfl⟩ ih

end Bracketed

variable {c : List (Event V)}

theorem bracketed_validating (h : ∀ e ∈ c, e.IsValidation) : Bracketed none c := by
  refine .of_forall fun e he => ?_
  have hvalidation := h e he
  cases e <;> first | exact ⟨rfl, rfl⟩ | exact hvalidation.elim

theorem bracketed_moving {event : Except String (TransactionStepEvidence V) → Event V}
    (h : (moving event).complete c ∨ (moving event).cut c)
    (hevent : ∀ answer, (event answer).Moves none none) : Bracketed none c := by
  rcases h with ⟨_, rfl⟩ | rfl | ⟨_, rfl⟩
  · exact .cons (hevent _) .nil
  · exact .nil
  · exact .cons (hevent _) .nil

theorem bracketed_compareCalls (request : ComparisonBinding V → ComparisonRequest V)
    (bindings : List (ComparisonBinding V))
    (answers : List (Except ProviderError (ComparisonEvidence V))) :
    Bracketed none (compareCalls request bindings answers) := by
  refine .of_forall fun e he => ?_
  obtain ⟨i, hi, rfl⟩ := getElem_of_mem he
  simp only [compareCalls, getElem_zipWith]
  exact ⟨rfl, rfl⟩

variable [JsonValue V F] [MetricNumber F] {context : InvocationContext}

theorem bracketed_measuring {side : String} {plan : SamplingPlan} {binding : MeasurementBinding V}
    (h : (measuring context side plan binding).complete c ∨ (measuring context side plan binding).cut c)
    : Bracketed none c := by
  rcases h with ⟨_, _, _, session, taken, closing, -, -, rfl⟩ | rfl | ⟨_, _, hbroken⟩
  · exact .session _ _ _ _ _
  · exact .nil
  · cases hbroken with
    | none => exact .nil
    | refused error => exact .cons ⟨rfl, rfl⟩ .nil
    | held session answers closing => exact .session _ _ _ _ _

variable [DecidableEq V] [Sha256] [Serialize (ContractParts V)] [Serialize IntentDigestPayload]

theorem bracketed_of_staged {protocol : AbEvaluationProtocol V σ}
    {intent : FrozenEvaluationIntent V} {candidate : Candidate} {finished : Bool}
    (h : Staged (protocol.stages context intent candidate) finished c) : Bracketed none c := by
  refine h.of_stages .nil (fun _ _ => Bracketed.append) fun stage hstage c hc => ?_
  simp only [AbEvaluationProtocol.stages, mem_append, mem_cons, mem_map,
    not_mem_nil, or_false] at hstage
  rcases hstage with ((((rfl | rfl) | ⟨_, _, rfl⟩) | rfl) | ⟨_, _, rfl⟩) | rfl
  · exact bracketed_validating (hc.elim id id)
  · exact bracketed_moving hc fun _ => ⟨rfl, rfl⟩
  · exact bracketed_measuring hc
  · exact bracketed_moving hc fun _ => ⟨rfl, rfl⟩
  · exact bracketed_measuring hc
  · rcases hc with (rfl | ⟨_, _, _, -, rfl⟩) | ⟨_, _, _, rfl⟩
    · exact .nil
    · exact bracketed_compareCalls _ _ _
    · exact bracketed_compareCalls _ _ _

variable [Serialize (MetricBatch V)] [Serialize (CleanupReceipt V)] [Serialize (ComparisonEvidence V)]

theorem evaluate_brackets_sessions (clock : Clock σ) (protocol : AbEvaluationProtocol V σ)
    (port : TransactionPort V σ) (context : InvocationContext) (intent : FrozenEvaluationIntent V)
    (candidate : Candidate) (s : Traced σ (Event V)) :
    ∃ new, (protocol.evaluate clock port context intent candidate s).2.trace = s.trace ++ new ∧
      Staged (protocol.stages context intent candidate)
        (protocol.evaluate clock port context intent candidate s).1.isOk (calls new) ∧
      StopsAtFailure new ∧
      ((protocol.evaluate clock port context intent candidate s).1.isOk = true → Quiet new) ∧
      Bracketed none (calls new) := by
  obtain ⟨new, htrace, hnew⟩ := calls_evaluate clock protocol port context intent candidate s
  refine ⟨new, htrace, ?_⟩
  cases hresult : (protocol.evaluate clock port context intent candidate s).1 with
  | ok evidence =>
    rw [hresult] at hnew
    obtain ⟨hquiet, hstaged, -⟩ := hnew
    exact ⟨hstaged, hquiet.stops, fun _ => hquiet, bracketed_of_staged hstaged⟩
  | error halt =>
    rw [hresult] at hnew
    obtain ⟨hstops, hstaged⟩ := hnew
    exact ⟨hstaged, hstops, nofun, bracketed_of_staged hstaged⟩

end Brackets

end ScxAgent.Evaluation
