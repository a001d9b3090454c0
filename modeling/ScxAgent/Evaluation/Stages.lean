import ScxAgent.Evaluation.Sessions

/-!
# The stages of an evaluation

The evaluation restores the baseline, measures it, replays the candidate, measures it and compares.
Each of these is a stage of its trace, and `calls_evaluate` says what an evaluation that returns has
called in each of them.
-/

namespace ScxAgent.Evaluation

open Std StepLogic TraceLogic List AbEvaluationProtocol

section Stages

variable {V F σ : Type}

def Event.IsValidation : Event V → Prop
  | .validated .. => True
  | _ => False

/-- The specifications are validated before the transaction is touched. -/
def validating : Stage (Event V) where
  complete c := ∀ e ∈ c, e.IsValidation
  cut c := ∀ e ∈ c, e.IsValidation

/-- One call that moves the transaction. -/
def moving (event : Except String (TransactionStepEvidence V) → Event V) : Stage (Event V) where
  complete c := ∃ evidence, c = [event (.ok evidence)]
  cut c := c = [] ∨ ∃ answer, c = [event answer]

/-- The calls of comparisons that were answered in order. -/
def compareCalls (request : ComparisonBinding V → ComparisonRequest V)
    (bindings : List (ComparisonBinding V))
    (answers : List (Except ProviderError (ComparisonEvidence V))) : List (Event V) :=
  List.zipWith (fun binding answer => .compared binding (request binding) answer) bindings answers

/-- Comparisons that stopped early are comparisons of a longer list that stopped early. -/
theorem compareCalls_take (request : ComparisonBinding V → ComparisonRequest V)
    (bindings more : List (ComparisonBinding V))
    (answers : List (Except ProviderError (ComparisonEvidence V))) :
    compareCalls request bindings answers =
      compareCalls request (bindings ++ more) (answers.take bindings.length) := by
  induction bindings generalizing answers with
  | nil => simp [compareCalls]
  | cons binding bindings ih =>
    cases answers with
    | nil => rfl
    | cons answer answers => exact congrArg _ (ih answers)

theorem compareCalls_append (request : ComparisonBinding V → ComparisonRequest V)
    {bindings more : List (ComparisonBinding V)}
    {answers rest : List (Except ProviderError (ComparisonEvidence V))}
    (h : bindings.length = answers.length) :
    compareCalls request bindings answers ++ compareCalls request more rest =
      compareCalls request (bindings ++ more) (answers ++ rest) :=
  (zipWith_append h).symm

/-- Every binding is compared once on the same two batches, or none is. -/
def comparing (context : InvocationContext) (contractId : ContractId)
    (bindings : List (ComparisonBinding V)) : Stage (Event V) where
  complete c := c = [] ∨ ∃ baseline candidate, ∃ answers : List (ComparisonEvidence V),
    answers.length = bindings.length ∧
    c = compareCalls (fun binding => ⟨context, contractId, binding.specification, baseline, candidate⟩)
      bindings (answers.map .ok)
  cut c := ∃ baseline candidate answers,
    c = compareCalls (fun binding => ⟨context, contractId, binding.specification, baseline, candidate⟩)
      bindings answers

variable [JsonValue V F] [MetricNumber F]

/-- One session on one side. -/
def measuring (context : InvocationContext) (side : String) (plan : SamplingPlan)
    (binding : MeasurementBinding V) : Stage (Event V) where
  complete c := ∃ sided batch, sideContext context side = .ok sided ∧
    MeasuredSession binding sided plan batch c
  cut c := c = [] ∨ ∃ sided, sideContext context side = .ok sided ∧
    BrokenSession binding sided plan.sampleCount c

variable [DecidableEq V] [Sha256] [Serialize (ContractParts V)] [Serialize IntentDigestPayload]

/-- The measurements of one side: the system guardrails, and the contract's own unless it is the same
measurement. -/
def AbEvaluationProtocol.sideBindings (protocol : AbEvaluationProtocol V σ)
    (contract : FrozenEvaluationContract V) : List (MeasurementBinding V) :=
  if protocol.sharesMeasurement contract then [protocol.guardrailBinding]
  else [protocol.guardrailBinding, contract.measurement]

/-- The stages of an evaluation in order. -/
def AbEvaluationProtocol.stages (protocol : AbEvaluationProtocol V σ) (context : InvocationContext)
    (intent : FrozenEvaluationIntent V) (candidate : Candidate) : List (Stage (Event V)) :=
  let contract := intent.contract
  let sessions (side : String) :=
    (protocol.sideBindings contract).map (measuring context side contract.sampling)
  [validating, moving (.restored candidate.changeIds)] ++ sessions "baseline" ++
    [moving (.replayed candidate.changeIds)] ++ sessions "candidate" ++
    [comparing context contract.id contract.parts.comparisons]

end Stages

section Programs

open AbEvaluationProtocol

variable {V F σ α : Type} (clock : Clock σ)

theorem Silent.requireSome (found : Option α) (error : EvaluationError) :
    Silent (requireSome found error : EvaluationM V σ α) := by
  cases found with
  | none => exact refuse error
  | some a => exact pure a

theorem calls_moveTransaction (deadline : EvaluationDeadline) (plan : SamplingPlan)
    (step : Proc σ String (TransactionStepEvidence V))
    {event : Except String (TransactionStepEvidence V) → Event V}
    (hevent : ∀ answer, (event answer).isCall = true) (before after failure settling : String) :
    Calls (moveTransaction clock deadline plan step event before after failure settling)
      (fun evidence c => c = [event (.ok evidence)]) fun _ => (moving event).cut := by
  refine .silent_bind (.check clock deadline _) (fun _ => .inl rfl) fun _ => ?_
  refine .bind (P := fun answer c => c = [event answer])
    (.observe hevent (fun _ => rfl) (.inl rfl) (.inl rfl)) ?_
  rintro answer _ rfl
  have hcut : (moving event).cut ([event answer] ++ []) := .inr ⟨answer, rfl⟩
  refine .silent_bind (.check clock deadline _) (fun _ => hcut) fun _ => ?_
  cases answer with
  | error error => exact .refuse hcut
  | ok evidence =>
    exact .silent_bind (.settle clock deadline _ _) (fun _ => hcut) fun _ => .pure rfl

/-- A program that only validates specifications. -/
def Validates (p : EvaluationM V σ α) : Prop :=
  Calls p (fun _ c => ∀ e ∈ c, e.IsValidation) fun _ c => ∀ e ∈ c, e.IsValidation

namespace Validates

variable {β ι : Type}

theorem silent {p : EvaluationM V σ α} (hp : Silent p) : Validates p :=
  Calls.silent hp (fun _ => nofun) fun _ => nofun

theorem bind {p : EvaluationM V σ β} {f : β → EvaluationM V σ α} (hp : Validates p)
    (hf : ∀ b, Validates (f b)) : Validates (p >>= f) := by
  refine Calls.bind hp fun b c hc => (hf b).conseq ?_ ?_
  · intro _ c' hc' e he
    exact (mem_append.mp he).elim (hc e) (hc' e)
  · intro _ c' hc' e he
    exact (mem_append.mp he).elim (hc e) (hc' e)

theorem forM {f : ι → EvaluationM V σ Unit} (xs : List ι) (hf : ∀ x, Validates (f x)) :
    Validates (xs.forM f) := by
  induction xs with
  | nil => exact silent (.pure _)
  | cons x xs ih => exact (hf x).bind fun _ => ih

theorem ask (call : σ → Except ProviderError Unit × σ) (capabilityId : CapabilityId) :
    Validates (TraceLogic.ask call (.validated capabilityId) :
      EvaluationM V σ (Except ProviderError Unit)) :=
  Calls.ask (fun _ => rfl) fun _ => by simp [Event.IsValidation]

theorem within {deadline : Option EvaluationDeadline}
    {use : EvaluationDeadline → EvaluationM V σ Unit} (huse : ∀ deadline, Silent (use deadline)) :
    Validates (within deadline use) := by
  cases deadline with
  | none => exact silent (.pure _)
  | some deadline => exact silent (huse deadline)

/-- A check that stops the program or lets it go on. -/
theorem guarded {c : Prop} [Decidable c] {p : EvaluationM V σ Unit} {f : Unit → EvaluationM V σ α}
    (hp : Silent p) (hf : ∀ u, Validates (f u)) : Validates (if c then p >>= f else f ()) := by
  split_ifs
  · exact (silent hp).bind hf
  · exact hf ()

end Validates

variable (protocol : AbEvaluationProtocol V σ)

theorem validates_validateComparison (deadline : Option EvaluationDeadline)
    (binding : ComparisonBinding V) :
    Validates (protocol.validateComparison clock deadline binding) := by
  refine (Validates.silent (.requireSome _ _)).bind fun policy => ?_
  refine (Validates.within fun _ => .ensureProviderCall clock _ _ _).bind fun _ => ?_
  refine (Validates.ask _ _).bind fun validation => ?_
  refine (Validates.within fun _ => .check clock _ _).bind fun _ => ?_
  cases validation with
  | ok _ => exact .silent (.pure _)
  | error error => exact .silent (.refuse _)

theorem silent_checkPin (pin : CapabilityBindingPin) : Silent (protocol.checkPin pin) :=
  (Silent.requireSome _ _).bind fun _ => .ite (.refuse _) (.pure _)

variable [JsonValue V F] [Sha256] [Serialize (ContractParts V)]

section Comparisons

variable [Serialize (ComparisonEvidence V)]

theorem calls_compareOne (context : InvocationContext) (contract : FrozenEvaluationContract V)
    (baseline candidate : MetricBatch V) (deadline : EvaluationDeadline)
    (binding : ComparisonBinding V) :
    Calls (protocol.compareOne clock context contract baseline candidate deadline binding)
      (fun evidence c => c = [.compared binding
        ⟨context, contract.id, binding.specification, baseline, candidate⟩ (.ok evidence)])
      fun _ c => c = [] ∨ ∃ answer, c = [.compared binding
        ⟨context, contract.id, binding.specification, baseline, candidate⟩ answer] := by
  refine .silent_bind (.requireSome _ _) (fun _ => .inl rfl) fun policy => ?_
  refine .silent_bind (.ensureProviderCall clock deadline _ _) (fun _ => .inl rfl) fun _ => ?_
  refine .bind (P := fun answer c => c = [.compared binding
    ⟨context, contract.id, binding.specification, baseline, candidate⟩ answer])
    (.ask (fun _ => rfl) fun _ => rfl) ?_
  rintro answer _ rfl
  refine .silent_bind (.check clock deadline _) (fun _ => .inr ⟨answer, rfl⟩) fun _ => ?_
  cases answer with
  | error error => exact .refuse (.inr ⟨_, rfl⟩)
  | ok evidence =>
    dsimp only
    split
    · exact .refuse (.inr ⟨_, rfl⟩)
    · split_ifs
      · exact .refuse (.inr ⟨_, rfl⟩)
      · exact .pure rfl

/-- The comparisons of one group, in order. -/
theorem calls_compareAll (context : InvocationContext) (contract : FrozenEvaluationContract V)
    (bindings : List (ComparisonBinding V)) (baseline candidate : MetricBatch V)
    (deadline : EvaluationDeadline) :
    Calls (protocol.compareAll clock context contract bindings baseline candidate deadline)
      (fun evidence c => evidence.length = bindings.length ∧ c = compareCalls
        (fun binding => ⟨context, contract.id, binding.specification, baseline, candidate⟩)
        bindings (evidence.map .ok))
      fun _ c => ∃ answers, c = compareCalls
        (fun binding => ⟨context, contract.id, binding.specification, baseline, candidate⟩)
        bindings answers := by
  unfold compareAll
  induction bindings with
  | nil => exact .pure ⟨rfl, rfl⟩
  | cons binding bindings ih =>
    rw [mapM_cons]
    refine .bind ((calls_compareOne clock protocol context contract baseline candidate deadline
      binding).conseq (fun _ _ h => h) ?_) ?_
    · rintro _ c (rfl | ⟨answer, rfl⟩)
      · exact ⟨[], rfl⟩
      · exact ⟨[answer], by simp [compareCalls]⟩
    · rintro evidence _ rfl
      refine .bind (ih.conseq (fun _ _ h => h) ?_) ?_
      · rintro _ _ ⟨answers, rfl⟩
        exact ⟨.ok evidence :: answers, rfl⟩
      · rintro rest _ ⟨hlength, rfl⟩
        exact .pure ⟨by simp [hlength], by simp [compareCalls]⟩

/-- All comparisons of a contract on two batches, or none if the batches are not comparable. -/
def ComparedSides (context : InvocationContext) (contract : FrozenEvaluationContract V)
    (comparable : Bool) (baseline candidate : MetricBatch V) (groups : ComparisonEvidenceGroups V)
    (c : List (Event V)) : Prop :=
  if comparable then
    groups.primary.length = contract.primary.length ∧
      groups.regressionGuards.length = contract.regressionGuards.length ∧
      groups.workloadInvariants.length = contract.workloadInvariants.length ∧
      c = compareCalls
        (fun binding => ⟨context, contract.id, binding.specification, baseline, candidate⟩)
        contract.parts.comparisons
        ((groups.primary ++ groups.regressionGuards ++ groups.workloadInvariants).map .ok)
  else groups = {} ∧ c = []

omit [Serialize (ComparisonEvidence V)] in
theorem ComparedSides.complete {context : InvocationContext} {contract : FrozenEvaluationContract V}
    {comparable : Bool} {baseline candidate : MetricBatch V} {groups : ComparisonEvidenceGroups V}
    {c : List (Event V)} (h : ComparedSides context contract comparable baseline candidate groups c) :
    (comparing context contract.id contract.parts.comparisons).complete c ∧
      (comparing context contract.id contract.parts.comparisons).cut c := by
  unfold ComparedSides at h
  split_ifs at h
  · obtain ⟨hprimary, hguards, hinvariants, rfl⟩ := h
    have hlength : (groups.primary ++ groups.regressionGuards ++ groups.workloadInvariants).length =
        contract.parts.comparisons.length := by
      simp only [length_append, hprimary, hguards, hinvariants, ContractParts.comparisons]
      rfl
    exact ⟨.inr ⟨baseline, candidate, _, hlength, rfl⟩, baseline, candidate, _, rfl⟩
  · obtain ⟨-, rfl⟩ := h
    exact ⟨.inl rfl, baseline, candidate, [], by simp [compareCalls]⟩

theorem calls_compareSides (context : InvocationContext) (contract : FrozenEvaluationContract V)
    (comparable : Bool) (baseline candidate : MetricBatch V) (deadline : EvaluationDeadline) :
    Calls (protocol.compareSides clock context contract comparable baseline candidate deadline)
      (ComparedSides context contract comparable baseline candidate)
      fun _ c => ∃ answers, c = compareCalls
        (fun binding => ⟨context, contract.id, binding.specification, baseline, candidate⟩)
        contract.parts.comparisons answers := by
  cases comparable with
  | false => exact .pure ⟨rfl, rfl⟩
  | true =>
    have hgroup (bindings : List (ComparisonBinding V)) :=
      calls_compareAll clock protocol context contract bindings baseline candidate deadline
    have hsplit : contract.parts.comparisons = contract.primary ++
        (contract.regressionGuards ++ contract.workloadInvariants) := append_assoc ..
    refine .bind ((hgroup contract.primary).conseq (fun _ _ h => h) ?_) ?_
    · rintro _ _ ⟨answers, rfl⟩
      exact ⟨_, hsplit ▸ compareCalls_take _ _ _ _⟩
    rintro primary _ ⟨hprimary, rfl⟩
    refine .bind ((hgroup contract.regressionGuards).conseq (fun _ _ h => h) ?_) ?_
    · rintro _ _ ⟨answers, rfl⟩
      rw [compareCalls_take _ contract.regressionGuards contract.workloadInvariants,
        compareCalls_append _ (by simp [hprimary]), ← hsplit]
      exact ⟨_, rfl⟩
    rintro guards _ ⟨hguards, rfl⟩
    refine .bind ((hgroup contract.workloadInvariants).conseq (fun _ _ h => h) ?_) ?_
    · rintro _ _ ⟨answers, rfl⟩
      rw [compareCalls_append _ (by simp [hguards]), compareCalls_append _ (by simp [hprimary]), ← hsplit]
      exact ⟨_, rfl⟩
    rintro invariants _ ⟨hinvariants, rfl⟩
    refine .pure ⟨hprimary, hguards, hinvariants, ?_⟩
    rw [append_nil, compareCalls_append _ (by simp [hguards]), compareCalls_append _ (by simp [hprimary]), ← hsplit]
    simp

end Comparisons

section Validation

theorem validates_validateContract (contract : FrozenEvaluationContract V)
    (deadline : Option EvaluationDeadline) :
    Validates (protocol.validateContractWithDeadline clock contract deadline) := by
  refine .guarded (.refuse _) fun _ => ?_
  refine (Validates.forM _ fun pin => .silent (silent_checkPin protocol pin)).bind fun _ => ?_
  refine (Validates.silent (.requireSome _ _)).bind fun measurement => ?_
  refine .guarded (.refuse _) fun _ => ?_
  refine (Validates.within fun _ => .ensureProviderCall clock _ _ _).bind fun _ => ?_
  refine (Validates.ask _ _).bind fun validation => ?_
  refine (Validates.within fun _ => .check clock _ _).bind fun _ => ?_
  have hrest : Validates (do
      orRefuse (validateDeclaredMetricReferences contract measurement.capabilityMeta)
      contract.parts.comparisons.forM (protocol.validateComparison clock deadline)) :=
    (Validates.silent (.orRefuse _)).bind fun _ =>
      .forM _ fun binding => validates_validateComparison clock protocol deadline binding
  cases validation with
  | ok _ => exact hrest
  | error error => exact (Validates.silent (.refuse _)).bind fun _ => hrest

variable [DecidableEq V] [Serialize IntentDigestPayload]

theorem validates_prepareEvaluation (context : InvocationContext) (intent : FrozenEvaluationIntent V) :
    Validates (protocol.prepareEvaluation clock context intent) := by
  refine .guarded (.refuse _) fun _ => ?_
  have hstart : Silent (EvaluationDeadline.start clock protocol.evaluationTimeout :
      EvaluationM V σ EvaluationDeadline) := by
    refine (Silent.consult _).bind fun startedAt => ?_
    split
    · exact .refuse _
    · exact .pure _
  refine (Validates.silent hstart).bind fun deadline => ?_
  refine (Validates.silent (.orRefuse _)).bind fun _ => ?_
  refine (validates_validateContract clock protocol intent.contract (some deadline)).bind fun _ => ?_
  exact (Validates.silent (.requireSome _ _)).bind fun _ => .silent (.pure _)

end Validation

section Measurements

variable [DecidableEq V] [MetricNumber F] [Serialize (MetricBatch V)] [Serialize (CleanupReceipt V)]

/-- The batches of one side: the contract's is the guardrails' if the measurement is shared. -/
def MeasuredSide (contract : FrozenEvaluationContract V) (sided : InvocationContext)
    (guardrails measured : MetricBatch V) (c : List (Event V)) : Prop :=
  if protocol.sharesMeasurement contract then
    measured = guardrails ∧
      MeasuredSession protocol.guardrailBinding sided contract.sampling guardrails c
  else
    ∃ c₁ c₂, c = c₁ ++ c₂ ∧
      MeasuredSession protocol.guardrailBinding sided contract.sampling guardrails c₁ ∧
      MeasuredSession contract.measurement sided contract.sampling measured c₂

theorem calls_measureSide (context : InvocationContext) (contract : FrozenEvaluationContract V)
    (measurement : MeasurementProvider V σ) (deadline : EvaluationDeadline) (side : String) :
    Calls (protocol.measureSide clock context contract measurement deadline side)
      (fun pair c =>
        Staged ((protocol.sideBindings contract).map (measuring context side contract.sampling))
          true c ∧
        ∃ sided, sideContext context side = .ok sided ∧
          MeasuredSide protocol contract sided pair.1.batch pair.2.batch c)
      fun _ => Staged
        ((protocol.sideBindings contract).map (measuring context side contract.sampling)) false := by
  have hnever : Staged ((protocol.sideBindings contract).map
      (measuring context side contract.sampling)) false [] := by
    unfold sideBindings
    split_ifs <;> exact .cut (.inl rfl)
  refine .bind (P := fun sided c => c = [] ∧ sideContext context side = .ok sided)
    (.orRefuse (fun sided h => ⟨rfl, h⟩) fun _ => hnever) ?_
  rintro sided _ ⟨rfl, hsided⟩
  have hsession (provider : MeasurementProvider V σ) (binding : MeasurementBinding V) :
      Calls (collectMeasurement clock provider binding sided contract.sampling deadline)
        (fun evidence c => Staged [measuring context side contract.sampling binding] true c ∧
          MeasuredSession binding sided contract.sampling evidence.batch c)
        fun _ => Staged [measuring context side contract.sampling binding] false := by
    refine .stage _ ((calls_collectMeasurement clock provider binding sided contract.sampling
      deadline).conseq (fun _ _ h => h) ?_) fun evidence c hc => ⟨sided, evidence.batch, hsided, hc⟩
    rintro (error | _ | _) c hc
    · exact .inr ⟨sided, hsided, hc⟩
    · exact hc.elim
    · exact hc.elim
  have hguardrails := hsession protocol.guardrailMeasurement protocol.guardrailBinding
  by_cases hshared : protocol.sharesMeasurement contract
  · simp only [sideBindings, MeasuredSide, if_pos hshared, map_cons,
      map_nil]
    refine .stages [] hguardrails fun guardrails c hc => .pure ⟨.done, sided, hsided, rfl, ?_⟩
    simpa using hc
  · simp only [sideBindings, MeasuredSide, if_neg hshared, map_cons,
      map_nil]
    refine .stages [measuring context side contract.sampling contract.measurement]
      hguardrails fun guardrails c hc => ?_
    refine .stages [] (hsession measurement contract.measurement) fun measured c' hc' => ?_
    exact .pure ⟨.done, sided, hsided, c, c', by simp, hc, hc'⟩

end Measurements

variable [DecidableEq V] [MetricNumber F] [Serialize (MetricBatch V)] [Serialize (CleanupReceipt V)]
  [Serialize (ComparisonEvidence V)] [Serialize IntentDigestPayload]

/-- The calls of an evaluation that returned this evidence. -/
def Evaluated (context : InvocationContext) (intent : FrozenEvaluationIntent V)
    (candidate : Candidate) (evidence : AbEvaluationEvidence V F) (c : List (Event V)) : Prop :=
  ∃ validations baseline replayed comparisons baselineContext candidateContext,
    c = validations ++ ([.restored candidate.changeIds (.ok evidence.baselineRestore)] ++
      (baseline ++ ([.replayed candidate.changeIds (.ok evidence.candidateReplay)] ++
        (replayed ++ comparisons)))) ∧
    (∀ e ∈ validations, e.IsValidation) ∧
    MeasuredSide protocol intent.contract baselineContext evidence.baselineSystemGuardrails.batch
      evidence.baselineMeasurement.batch baseline ∧
    MeasuredSide protocol intent.contract candidateContext evidence.candidateSystemGuardrails.batch
      evidence.candidateMeasurement.batch replayed ∧
    ComparedSides context intent.contract
      (VerdictKernel.schemasAreComparable evidence.baselineSystemGuardrails.batch
        evidence.candidateSystemGuardrails.batch evidence.baselineMeasurement.batch
        evidence.candidateMeasurement.batch)
      evidence.baselineMeasurement.batch evidence.candidateMeasurement.batch
      evidence.decision.policyEvidence comparisons ∧
    evidence.decision = VerdictKernel.decide evidence.baselineSystemGuardrails.batch
      evidence.candidateSystemGuardrails.batch evidence.baselineMeasurement.batch
      evidence.candidateMeasurement.batch evidence.decision.policyEvidence

theorem calls_evaluate (port : TransactionPort V σ) (context : InvocationContext)
    (intent : FrozenEvaluationIntent V) (candidate : Candidate) :
    Calls (protocol.evaluate clock port context intent candidate)
      (fun evidence c => Staged (protocol.stages context intent candidate) true c ∧
        Evaluated protocol context intent candidate evidence c)
      fun _ => Staged (protocol.stages context intent candidate) false := by
  have hstages : protocol.stages context intent candidate =
      [validating] ++ ([moving (.restored candidate.changeIds)] ++
        ((protocol.sideBindings intent.contract).map
            (measuring context "baseline" intent.contract.sampling) ++
          ([moving (.replayed candidate.changeIds)] ++
            ((protocol.sideBindings intent.contract).map
                (measuring context "candidate" intent.contract.sampling) ++
              [comparing context intent.contract.id intent.contract.parts.comparisons])))) := by
    simp [stages]
  rw [hstages]
  refine .stages _ (.stage validating
    (validates_prepareEvaluation clock protocol context intent) fun _ _ h => h) ?_
  rintro ⟨deadline, measurement⟩ validations hvalidations
  refine .stages _ (.stage _ (calls_moveTransaction clock deadline intent.contract.sampling _
    (fun _ => rfl) _ _ _ _) fun evidence c hc => ⟨evidence, hc⟩) ?_
  rintro baselineRestore _ rfl
  refine .stages _ (calls_measureSide clock protocol context intent.contract measurement deadline
    "baseline") ?_
  rintro ⟨baselineGuardrails, baselineMeasured⟩ baseline ⟨baselineContext, -, hbaseline⟩
  refine .stages _ (.stage _ (calls_moveTransaction clock deadline intent.contract.sampling _
    (fun _ => rfl) _ _ _ _) fun evidence c hc => ⟨evidence, hc⟩) ?_
  rintro candidateReplay _ rfl
  refine .stages _ (calls_measureSide clock protocol context intent.contract measurement deadline
    "candidate") ?_
  rintro ⟨candidateGuardrails, candidateMeasured⟩ replayed ⟨candidateContext, -, hreplayed⟩
  have hnone : (comparing context intent.contract.id intent.contract.parts.comparisons).cut [] :=
    ⟨baselineMeasured.batch, candidateMeasured.batch, [], by simp [compareCalls]⟩
  refine .silent_bind (.check clock deadline _) (fun _ => .cut hnone) fun _ => ?_
  refine .bind ((calls_compareSides clock protocol context intent.contract _ baselineMeasured.batch
    candidateMeasured.batch deadline).conseq (fun _ _ h => h) ?_) ?_
  · rintro _ _ ⟨answers, rfl⟩
    exact .cut ⟨_, _, answers, rfl⟩
  intro groups comparisons hcompared
  have hcut : Staged [comparing context intent.contract.id intent.contract.parts.comparisons] false
      (comparisons ++ []) := by
    rw [append_nil]
    exact .cut hcompared.complete.2
  refine .silent_bind (.check clock deadline _) (fun _ => hcut) fun _ => ?_
  refine .silent_bind (.check clock deadline _) (fun _ => hcut) fun _ => .pure ⟨?_, ?_⟩
  · exact .next hcompared.complete.1 .done
  · exact ⟨validations, baseline, replayed, comparisons, baselineContext, candidateContext, by simp,
      hvalidations, hbaseline, hreplayed, hcompared, rfl⟩

end Programs

end ScxAgent.Evaluation
