import ScxAgent.Evaluation.Metrics

/-!
# Evaluation contracts and intents

The frozen inputs of an evaluation, from `kernel/evaluation/contract.rs` and `intent.rs`. A frozen
contract and a frozen intent are built only by their `fromParts`, so the checks and the digests made
there travel with the values.
-/

namespace ScxAgent.Evaluation

open Std

inductive EvaluationErrorKind where
  | invalidContract
  | budgetExceeded
  | missingCapability
  | transaction
  | measurement
  | cleanup
  | comparison
  | protocol
  deriving DecidableEq

structure EvaluationError where
  kind : EvaluationErrorKind
  message : String
  deriving DecidableEq

instance : ToString EvaluationError := ⟨EvaluationError.message⟩

def maxPrimaryComparisons : ℕ := 32
def maxRegressionGuards : ℕ := 32
def maxWorkloadInvariants : ℕ := 32

def saturate64 (n : ℕ) : ℕ := min n (2 ^ 64 - 1)

structure SamplingPlan where
  settleMs : ℕ := 3000
  sampleCount : ℕ := 3
  sampleIntervalMs : ℕ := 1000
  deriving DecidableEq

def SamplingPlan.validate (plan : SamplingPlan) : Except String Unit := do
  if plan.sampleCount = 0 ∨ plan.sampleCount > 30 then
    .error "sampling sample_count must be between 1 and 30"
  if plan.settleMs > 60000 then
    .error "sampling settle_ms must not exceed 60000"
  if plan.sampleIntervalMs > 60000 then
    .error "sampling sample_interval_ms must not exceed 60000"
  let scheduledMs := saturate64
    (plan.settleMs + saturate64 ((plan.sampleCount - 1) * plan.sampleIntervalMs))
  if scheduledMs > 300000 then
    .error "sampling settle and interval schedule must not exceed 300000 ms per side"

@[ext] structure MeasurementBinding (V : Type) where
  capabilityId : CapabilityId
  specification : V
  deriving DecidableEq

structure ComparisonBinding (V : Type) where
  capabilityId : CapabilityId
  specification : V
  deriving DecidableEq

structure CapabilityBindingPin where
  capabilityId : CapabilityId
  provider : ProviderPin
  deriving DecidableEq

/-- What a contract is frozen from, in the order in which its digest covers it. -/
structure ContractParts (V : Type) where
  id : ContractId
  measurement : MeasurementBinding V
  primary : List (ComparisonBinding V)
  regressionGuards : List (ComparisonBinding V)
  workloadInvariants : List (ComparisonBinding V)
  sampling : SamplingPlan
  capabilityGeneration : ℕ
  capabilityPins : List CapabilityBindingPin

namespace ContractParts

variable {V F : Type} [JsonValue V F]

def comparisons (parts : ContractParts V) : List (ComparisonBinding V) :=
  parts.primary ++ parts.regressionGuards ++ parts.workloadInvariants

def sortPins (parts : ContractParts V) : ContractParts V :=
  { parts with
    capabilityPins := parts.capabilityPins.mergeSort fun left right =>
      (compare left.capabilityId right.capabilityId).isLE }

def referenced (parts : ContractParts V) : List CapabilityId :=
  parts.measurement.capabilityId :: parts.comparisons.map (·.capabilityId)

def pinned (parts : ContractParts V) : List CapabilityId :=
  parts.capabilityPins.map (·.capabilityId)

/-- The checks of `from_parts`; the pins are sorted when it reaches them. -/
def check (parts : ContractParts V) : Except EvaluationError Unit := do
  if parts.primary = [] ∨ parts.primary.length > maxPrimaryComparisons then
    .error ⟨.invalidContract,
      s!"evaluation contract requires between 1 and {maxPrimaryComparisons} primary comparisons"⟩
  if parts.regressionGuards.length > maxRegressionGuards then
    .error ⟨.invalidContract,
      s!"evaluation contract allows at most {maxRegressionGuards} regression guards"⟩
  if parts.workloadInvariants.length > maxWorkloadInvariants then
    .error ⟨.invalidContract,
      s!"evaluation contract allows at most {maxWorkloadInvariants} workload invariants"⟩
  match parts.sampling.validate with
  | .error error => .error ⟨.invalidContract, error⟩
  | .ok () => pure ()
  parts.comparisons.forM fun binding =>
    if (JsonValue.asObject binding.specification).isNone then
      .error ⟨.invalidContract,
        s!"comparison '{binding.capabilityId}' specification must be an object"⟩
    else .ok ()
  if (JsonValue.asObject parts.measurement.specification).isNone then
    .error ⟨.invalidContract, "measurement specification must be an object"⟩
  if ¬ parts.pinned.IsChain (· ≠ ·) then
    .error ⟨.invalidContract, "evaluation contract contains duplicate capability pins"⟩
  if parts.referenced.toFinset ≠ parts.pinned.toFinset then
    .error ⟨.invalidContract,
      "evaluation contract capability pins do not match referenced capabilities"⟩

end ContractParts

section Frozen

variable (V : Type) {F : Type} [JsonValue V F] [Sha256] [Serialize (ContractParts V)]

structure FrozenEvaluationContract where
  parts : ContractParts V
  digest : Digest
  checked : parts.check = .ok ()
  digest_eq : contentDigest parts = .ok digest

variable {V}

namespace FrozenEvaluationContract

def fromParts (parts : ContractParts V) : Except EvaluationError (FrozenEvaluationContract V) :=
  match hcheck : parts.sortPins.check with
  | .error error => .error error
  | .ok () =>
    match hdigest : contentDigest parts.sortPins with
    | .error error => .error ⟨.invalidContract, error⟩
    | .ok digest => .ok ⟨parts.sortPins, digest, hcheck, hdigest⟩

def id (contract : FrozenEvaluationContract V) : ContractId := contract.parts.id

def measurement (contract : FrozenEvaluationContract V) : MeasurementBinding V :=
  contract.parts.measurement

def primary (contract : FrozenEvaluationContract V) : List (ComparisonBinding V) :=
  contract.parts.primary

def regressionGuards (contract : FrozenEvaluationContract V) : List (ComparisonBinding V) :=
  contract.parts.regressionGuards

def workloadInvariants (contract : FrozenEvaluationContract V) : List (ComparisonBinding V) :=
  contract.parts.workloadInvariants

def sampling (contract : FrozenEvaluationContract V) : SamplingPlan := contract.parts.sampling

end FrozenEvaluationContract

def maxObjectiveStatementBytes : ℕ := 4096

/-- `str::split_whitespace`. -/
def splitWhitespace (cs : List Char) : List (List Char) :=
  (cs.splitOnP isWhitespace).filter (· ≠ [])

def normalizeObjective (value : String) : String :=
  " ".intercalate ((splitWhitespace value.toList).map String.ofList)

def checkObjective (normalized : String) : Except String Unit := do
  if normalized.isEmpty then
    .error "objective statement must not be empty"
  if normalized.utf8ByteSize > maxObjectiveStatementBytes then
    .error s!"objective statement must not exceed {maxObjectiveStatementBytes} bytes"
  if normalized.toList.any isControl then
    .error "objective statement must not contain control characters"

structure ObjectiveStatement where
  value : String
  checked : checkObjective value = .ok ()
  deriving DecidableEq

def ObjectiveStatement.new (value : String) : Except String ObjectiveStatement :=
  match h : checkObjective (normalizeObjective value) with
  | .error error => .error error
  | .ok () => .ok ⟨normalizeObjective value, h⟩

structure IntentDigestPayload where
  domain : String
  episodeId : EpisodeId
  objective : ObjectiveStatement
  contractDigest : Digest

def evaluationIntentDigestDomainV1 : String := "tuning-agent/evaluation-intent/v1"

variable [Serialize IntentDigestPayload]

def intentPayload (episodeId : EpisodeId) (objective : ObjectiveStatement)
    (contractDigest : Digest) : IntentDigestPayload :=
  ⟨evaluationIntentDigestDomainV1, episodeId, objective, contractDigest⟩

variable (V) in
structure FrozenEvaluationIntent where
  pin : EvaluationIntentPin
  objective : ObjectiveStatement
  contract : FrozenEvaluationContract V
  contractDigest_eq : pin.contractDigest = contract.digest
  intentDigest_eq :
    contentDigest (intentPayload pin.episodeId objective contract.digest) = .ok pin.intentDigest

def FrozenEvaluationIntent.fromParts (episodeId : EpisodeId) (objective : ObjectiveStatement)
    (contract : FrozenEvaluationContract V) :
    Except EvaluationError (FrozenEvaluationIntent V) :=
  match hdigest : contentDigest (intentPayload episodeId objective contract.digest) with
  | .error error => .error ⟨.invalidContract, error⟩
  | .ok intentDigest =>
    .ok ⟨⟨episodeId, intentDigest, contract.digest⟩, objective, contract, rfl, hdigest⟩

end Frozen

end ScxAgent.Evaluation
