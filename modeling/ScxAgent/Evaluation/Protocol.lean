import ScxAgent.Evaluation.Verdict

/-!
# The A/B evaluation protocol

`kernel/evaluation/protocol.rs`. The transaction is a pair of programs on the state
of the evaluation, which may halt; the providers and the clock always answer.
-/

namespace ScxAgent.Evaluation

open Std StepLogic TraceLogic

def trustedGuardrailMeasurementId : CapabilityId :=
  ⟨"builtin/measurement.core-system.v1", by decide +kernel⟩

/-- The trait `ComparisonPolicy`. -/
structure ComparisonPolicy (V σ : Type) where
  capabilityMeta : CapabilityMeta V
  validateSpecification : V → σ → Except ProviderError Unit × σ
  compare : ComparisonRequest V → σ → Except ProviderError (ComparisonEvidence V) × σ

/-- The part of a capability snapshot that evaluations use. -/
structure CapabilitySnapshot (V σ : Type) where
  generation : ℕ
  metadata : TreeMap CapabilityId (CapabilityMeta V)
  measurements : TreeMap CapabilityId (MeasurementProvider V σ)
  comparisons : TreeMap CapabilityId (ComparisonPolicy V σ)

/-- The trait `TransactionPort`. -/
structure TransactionPort (V σ : Type) where
  restoreBaseline : List ChangeId → Proc σ String (TransactionStepEvidence V)
  replayCandidate : List ChangeId → Proc σ String (TransactionStepEvidence V)

structure AbEvaluationEvidence (V F : Type) where
  intent : EvaluationIntentPin
  contractId : ContractId
  contractDigest : Digest
  candidateDigest : Digest
  baselineRestore : TransactionStepEvidence V
  baselineSystemGuardrails : MeasurementEvidence V
  baselineMeasurement : MeasurementEvidence V
  candidateReplay : TransactionStepEvidence V
  candidateSystemGuardrails : MeasurementEvidence V
  candidateMeasurement : MeasurementEvidence V
  decision : EvaluationDecision V F

/-- The loop of `side_context`: the last character is dropped while the text, `-` and the side are
too long together. The characters come in reverse. -/
def fitBefore (side : String) : List Char → List Char
  | [] => []
  | c :: cs =>
    if (String.ofList (c :: cs)).utf8ByteSize + side.utf8ByteSize + 1 > 256 then fitBefore side cs
    else c :: cs

def sideContext (context : InvocationContext) (side : String) :
    Except EvaluationError InvocationContext :=
  let kept := fitBefore side context.operationId.value.toList.reverse
  match TextId.new (String.ofList kept.reverse ++ "-" ++ side) with
  | .error error => .error ⟨.protocol, s!"failed to derive measurement operation id: {error}"⟩
  | .ok operationId => .ok { context with operationId }

section Protocol

variable {V F σ : Type} [JsonValue V F]

/-- The metric names that the output schema of a measurement declares. -/
def declaredMetrics (info : CapabilityMeta V) : List String :=
  (((jsonGet info.outputSchema "properties").bind JsonValue.asObject).getD []).map (·.1)

def conditionMetric (condition : V) : Option String :=
  (jsonGet condition "metric").bind JsonValue.asStr

variable [Sha256] [Serialize (ContractParts V)]

def validateDeclaredMetricReferences (contract : FrozenEvaluationContract V)
    (info : CapabilityMeta V) : Except EvaluationError Unit :=
  let declared := declaredMetrics info
  if declared = [] then .ok ()
  else
    contract.parts.comparisons.forM fun binding =>
      let conditions := ((jsonGet binding.specification "conditions").bind JsonValue.asArray).getD []
      (conditions.filterMap conditionMetric).forM fun metric =>
        if declared.contains metric then .ok ()
        else .error ⟨.invalidContract, s!"comparison '{binding.capabilityId}' references metric '{metric}', which measurement '{info.id}' does not declare"⟩

variable (V σ) in
structure AbEvaluationProtocol where
  capabilities : CapabilitySnapshot V σ
  guardrailMeasurement : MeasurementProvider V σ
  guardrailBinding : MeasurementBinding V
  evaluationTimeout : ℕ

namespace AbEvaluationProtocol

variable [DecidableEq V] [MetricNumber F]

def ensureScheduleFits (contract : FrozenEvaluationContract V) (evaluationTimeout : ℕ) :
    Except EvaluationError Unit :=
  let intervalsPerCollection :=
    (contract.sampling.sampleCount - 1) * contract.sampling.sampleIntervalMs
  let collectionsPerSide :=
    if contract.measurement.capabilityId = trustedGuardrailMeasurementId ∧
        contract.measurement.specification = emptyObject then 1
    else 2
  let scheduledMs :=
    contract.sampling.settleMs * 2 + intervalsPerCollection * collectionsPerSide * 2
  let budget := asMillis evaluationTimeout
  if scheduledMs > budget then
    .error ⟨.budgetExceeded, s!"evaluation contract schedules {scheduledMs} ms of deterministic waits, exceeding the {budget} ms evaluation budget"⟩
  else .ok ()

/-- A deadline that applies only if there is one. -/
def within (deadline : Option EvaluationDeadline)
    (use : EvaluationDeadline → EvaluationM V σ Unit) : EvaluationM V σ Unit :=
  match deadline with
  | some deadline => use deadline
  | none => pure ()

def requireSome {α : Type} (found : Option α) (error : EvaluationError) : EvaluationM V σ α :=
  match found with
  | some a => pure a
  | none => refuse error

variable (clock : Clock σ) (protocol : AbEvaluationProtocol V σ)

def checkPin (pin : CapabilityBindingPin) : EvaluationM V σ Unit := do
  let info ← requireSome protocol.capabilities.metadata[pin.capabilityId]?
    ⟨.missingCapability, s!"pinned capability '{pin.capabilityId}' is unavailable"⟩
  if info.provider ≠ pin.provider then
    refuse ⟨.invalidContract, s!"provider pin changed for capability '{pin.capabilityId}'"⟩

def validateComparison (deadline : Option EvaluationDeadline) (binding : ComparisonBinding V) :
    EvaluationM V σ Unit := do
  let policy ← requireSome protocol.capabilities.comparisons[binding.capabilityId]?
    ⟨.missingCapability, s!"comparison capability '{binding.capabilityId}' is unavailable"⟩
  within deadline fun deadline => deadline.ensureProviderCall clock policy.capabilityMeta
    s!"before frozen comparison '{binding.capabilityId}' specification validation"
  let validation ← ask (policy.validateSpecification binding.specification)
    (.validated binding.capabilityId)
  within deadline fun deadline => deadline.check clock
    s!"after frozen comparison '{binding.capabilityId}' specification validation"
  match validation with
  | .ok () => pure ()
  | .error error => refuse ⟨.invalidContract,
      s!"comparison '{binding.capabilityId}' rejected its frozen specification: {error}"⟩

def findMeasurement (contract : FrozenEvaluationContract V) :
    EvaluationM V σ (MeasurementProvider V σ) :=
  requireSome protocol.capabilities.measurements[contract.measurement.capabilityId]?
    ⟨.missingCapability,
      s!"measurement capability '{contract.measurement.capabilityId}' is unavailable"⟩

def validateContractWithDeadline (contract : FrozenEvaluationContract V)
    (deadline : Option EvaluationDeadline) : EvaluationM V σ Unit := do
  if contract.parts.capabilityGeneration ≠ protocol.capabilities.generation then
    refuse ⟨.invalidContract, s!"contract pins capability generation {contract.parts.capabilityGeneration}, runtime has {protocol.capabilities.generation}"⟩
  contract.parts.capabilityPins.forM protocol.checkPin
  let measurement ← protocol.findMeasurement contract
  if !measurement.capabilityMeta.isAgentSelectable then
    refuse ⟨.invalidContract, s!"measurement '{contract.measurement.capabilityId}' is reserved for runtime system guardrails"⟩
  within deadline fun deadline => deadline.ensureProviderCall clock measurement.capabilityMeta
    "before frozen measurement specification validation"
  let validation ← ask (measurement.validateSpecification contract.measurement.specification)
    (.validated contract.measurement.capabilityId)
  within deadline fun deadline =>
    deadline.check clock "after frozen measurement specification validation"
  match validation with
  | .ok () => pure ()
  | .error error => refuse ⟨.invalidContract, s!"measurement '{contract.measurement.capabilityId}' rejected its frozen specification: {error}"⟩
  orRefuse (validateDeclaredMetricReferences contract measurement.capabilityMeta)
  contract.parts.comparisons.forM (protocol.validateComparison clock deadline)

variable (capabilities : CapabilitySnapshot V σ) (evaluationTimeout : ℕ) in
def new : EvaluationM V σ (AbEvaluationProtocol V σ) := do
  if evaluationTimeout = 0 then
    refuse ⟨.budgetExceeded, "evaluation timeout must be greater than zero"⟩
  let capabilityId := trustedGuardrailMeasurementId
  let info ← requireSome capabilities.metadata[capabilityId]? ⟨.missingCapability,
    s!"trusted system guardrail measurement '{capabilityId}' is unavailable"⟩
  if info.provider.providerClass ≠ .builtin ∨ info.effect ≠ .readOnly ∨
      !info.isAllowedIn .commitPending then
    refuse ⟨.invalidContract, "trusted system guardrail measurement has unsafe metadata"⟩
  let guardrailMeasurement ← requireSome capabilities.measurements[capabilityId]?
    ⟨.missingCapability, "trusted system guardrail measurement provider is unavailable"⟩
  let guardrailBinding : MeasurementBinding V := ⟨capabilityId, emptyObject⟩
  let validation ← ask (guardrailMeasurement.validateSpecification guardrailBinding.specification)
    (.validated capabilityId)
  match validation with
  | .error error => refuse ⟨.invalidContract,
      s!"trusted system guardrail measurement is invalid: {error}"⟩
  | .ok () => pure { capabilities, guardrailMeasurement, guardrailBinding, evaluationTimeout }

/-- Whether the contract's measurement is the guardrail measurement, which is then taken once. -/
def sharesMeasurement (contract : FrozenEvaluationContract V) : Prop :=
  contract.measurement.capabilityId = protocol.guardrailBinding.capabilityId ∧
    contract.measurement.specification = protocol.guardrailBinding.specification

instance (contract : FrozenEvaluationContract V) : Decidable (protocol.sharesMeasurement contract) :=
  inferInstanceAs (Decidable (_ ∧ _))

variable [Serialize (MetricBatch V)] [Serialize (CleanupReceipt V)]
  [Serialize (ComparisonEvidence V)]

/-- One restore or replay of the transaction, and the wait after it. -/
def moveTransaction (deadline : EvaluationDeadline) (plan : SamplingPlan)
    (step : Proc σ String (TransactionStepEvidence V))
    (event : Except String (TransactionStepEvidence V) → Event V)
    (before after failure settling : String) : EvaluationM V σ (TransactionStepEvidence V) := do
  deadline.check clock before
  let answer ← observe step event
  deadline.check clock after
  match answer with
  | .error error => refuse ⟨.transaction, s!"{failure}: {error}"⟩
  | .ok evidence =>
    deadline.settle clock (fromMillis plan.settleMs) settling
    pure evidence

def restoreSide (port : TransactionPort V σ) (deadline : EvaluationDeadline) (plan : SamplingPlan)
    (candidate : List ChangeId) : EvaluationM V σ (TransactionStepEvidence V) :=
  moveTransaction clock deadline plan (port.restoreBaseline candidate) (.restored candidate)
    "before restoring the baseline" "after restoring the baseline"
    "failed to restore evaluation baseline" "while settling the baseline"

def replaySide (port : TransactionPort V σ) (deadline : EvaluationDeadline) (plan : SamplingPlan)
    (candidate : List ChangeId) : EvaluationM V σ (TransactionStepEvidence V) :=
  moveTransaction clock deadline plan (port.replayCandidate candidate) (.replayed candidate)
    "before replaying the candidate" "after replaying the candidate"
    "failed to replay evaluation candidate" "while settling the candidate"

/-- The system guardrails and the contract's measurement on one side. -/
def measureSide (context : InvocationContext) (contract : FrozenEvaluationContract V)
    (measurement : MeasurementProvider V σ) (deadline : EvaluationDeadline) (side : String) :
    EvaluationM V σ (MeasurementEvidence V × MeasurementEvidence V) := do
  let sideContext ← orRefuse (sideContext context side)
  let guardrails ← collectMeasurement clock protocol.guardrailMeasurement protocol.guardrailBinding
    sideContext contract.sampling deadline
  if protocol.sharesMeasurement contract then
    pure (guardrails, guardrails)
  else
    let measured ← collectMeasurement clock measurement contract.measurement sideContext
      contract.sampling deadline
    pure (guardrails, measured)

def compareOne (context : InvocationContext) (contract : FrozenEvaluationContract V)
    (baseline candidate : MetricBatch V) (deadline : EvaluationDeadline)
    (binding : ComparisonBinding V) : EvaluationM V σ (ComparisonEvidence V) := do
  let policy ← requireSome protocol.capabilities.comparisons[binding.capabilityId]?
    ⟨.missingCapability, s!"comparison capability '{binding.capabilityId}' is unavailable"⟩
  deadline.ensureProviderCall clock policy.capabilityMeta
    s!"before comparison '{binding.capabilityId}'"
  let request : ComparisonRequest V :=
    { context, contractId := contract.id, specification := binding.specification, baseline,
      candidate }
  let answer ← ask (policy.compare request) (.compared binding request)
  deadline.check clock s!"after comparison '{binding.capabilityId}'"
  match answer with
  | .error error =>
    refuse ⟨.comparison, s!"comparison '{binding.capabilityId}' failed: {error}"⟩
  | .ok evidence =>
    match Serialize.toVec evidence with
    | .error error => refuse ⟨.comparison, s!"comparison evidence encoding failed: {error}"⟩
    | .ok encoded =>
      if encoded.length > policy.capabilityMeta.limits.maxOutputBytes then
        refuse ⟨.comparison, s!"comparison '{binding.capabilityId}' exceeded its {policy.capabilityMeta.limits.maxOutputBytes} byte output limit"⟩
      else pure evidence

def compareAll (context : InvocationContext) (contract : FrozenEvaluationContract V)
    (bindings : List (ComparisonBinding V)) (baseline candidate : MetricBatch V)
    (deadline : EvaluationDeadline) : EvaluationM V σ (List (ComparisonEvidence V)) :=
  bindings.mapM (protocol.compareOne clock context contract baseline candidate deadline)

/-- The comparisons of an evaluation, which are skipped if the batches have no common schema. -/
def compareSides (context : InvocationContext) (contract : FrozenEvaluationContract V)
    (comparable : Bool) (baseline candidate : MetricBatch V) (deadline : EvaluationDeadline) :
    EvaluationM V σ (ComparisonEvidenceGroups V) := do
  if comparable then
    let primary ← protocol.compareAll clock context contract contract.primary baseline candidate
      deadline
    let regressionGuards ← protocol.compareAll clock context contract contract.regressionGuards
      baseline candidate deadline
    let workloadInvariants ← protocol.compareAll clock context contract contract.workloadInvariants
      baseline candidate deadline
    pure { primary, regressionGuards, workloadInvariants }
  else pure {}

variable [Serialize IntentDigestPayload]

/-- Everything before the first touch of the transaction. -/
def prepareEvaluation (context : InvocationContext) (intent : FrozenEvaluationIntent V) :
    EvaluationM V σ (EvaluationDeadline × MeasurementProvider V σ) := do
  if context.episodeId ≠ intent.pin.episodeId then
    refuse ⟨.invalidContract, "evaluation intent belongs to a different episode"⟩
  let deadline ← EvaluationDeadline.start clock protocol.evaluationTimeout
  orRefuse (ensureScheduleFits intent.contract protocol.evaluationTimeout)
  protocol.validateContractWithDeadline clock intent.contract (some deadline)
  let measurement ← protocol.findMeasurement intent.contract
  pure (deadline, measurement)

def evaluate (port : TransactionPort V σ) (context : InvocationContext)
    (intent : FrozenEvaluationIntent V) (candidate : Candidate) :
    EvaluationM V σ (AbEvaluationEvidence V F) := do
  let (deadline, measurement) ← protocol.prepareEvaluation clock context intent
  let contract := intent.contract
  let baselineRestore ← restoreSide clock port deadline contract.sampling candidate.changeIds
  let (baselineGuardrails, baselineMeasured) ←
    protocol.measureSide clock context contract measurement deadline "baseline"
  let candidateReplay ← replaySide clock port deadline contract.sampling candidate.changeIds
  let (candidateGuardrails, candidateMeasured) ←
    protocol.measureSide clock context contract measurement deadline "candidate"
  deadline.check clock "before checking measurement comparability"
  let comparable := VerdictKernel.schemasAreComparable baselineGuardrails.batch
    candidateGuardrails.batch baselineMeasured.batch candidateMeasured.batch
  let policyEvidence ← protocol.compareSides clock context contract comparable
    baselineMeasured.batch candidateMeasured.batch deadline
  deadline.check clock "before producing the central evaluation verdict"
  let decision := VerdictKernel.decide baselineGuardrails.batch candidateGuardrails.batch
    baselineMeasured.batch candidateMeasured.batch policyEvidence
  deadline.check clock "after producing the central evaluation verdict"
  pure
    { intent := intent.pin
      contractId := contract.id
      contractDigest := contract.digest
      candidateDigest := candidate.digest
      baselineRestore
      baselineSystemGuardrails := baselineGuardrails
      baselineMeasurement := baselineMeasured
      candidateReplay
      candidateSystemGuardrails := candidateGuardrails
      candidateMeasurement := candidateMeasured
      decision }

end AbEvaluationProtocol

end Protocol

end ScxAgent.Evaluation
