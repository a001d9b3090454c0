import ScxAgent.Evaluation.Measurement

/-!
# Conditions and verdicts

`kernel/evaluation/condition.rs` and `verdict.rs`: what a threshold on one metric says of two
batches, and how the comparisons of an evaluation are turned into a verdict.
-/

namespace ScxAgent.Evaluation

open Std

inductive MetricOperator where
  | decreasePercentGe
  | decreaseAbsGe
  | increasePercentGe
  | increaseAbsGe
  | increasePercentLe
  | increaseAbsLe
  | decreasePercentLe
  | decreaseAbsLe
  | changePercentLe
  | changeAbsLe
  | currentLe
  | currentGe
  deriving DecidableEq

structure MetricCondition (F : Type) where
  metric : String
  op : MetricOperator
  value : F

inductive ConditionOutcome where
  | passed
  | failed
  | inconclusive
  deriving DecidableEq

structure MetricConditionEvidence (F : Type) where
  condition : MetricCondition F
  outcome : ConditionOutcome
  baseline : Option F
  candidate : Option F
  reason : String

section Conditions

variable {V F : Type} [JsonValue V F] [MetricNumber F]

def MetricCondition.validate (condition : MetricCondition F) : Except String Unit := do
  if (trim condition.metric).isEmpty then
    .error "metric condition requires a metric name"
  if !MetricNumber.isFinite condition.value then
    .error s!"metric condition '{condition.metric}' has a non-finite threshold"
  if condition.op ≠ .currentLe ∧ condition.op ≠ .currentGe ∧
      (MetricNumber.le condition.value 0 && !MetricNumber.le 0 condition.value) then
    .error s!"metric condition '{condition.metric}' requires a non-negative delta threshold"

def percentChange (baseline delta : F) : Except String F :=
  if MetricNumber.le (MetricNumber.abs baseline) MetricNumber.epsilon then
    .error "percentage comparison is undefined for a zero baseline"
  else .ok (delta / MetricNumber.abs baseline * MetricNumber.hundred)

/-- `le value threshold` and `ge value threshold` are the comparisons of `f64`. -/
def MetricOperator.holds (op : MetricOperator) (before after threshold : F) : Except String Bool :=
  let le (value : F) : Bool := MetricNumber.le value threshold
  let ge (value : F) : Bool := MetricNumber.le threshold value
  match op with
  | .decreasePercentGe => (percentChange before (before - after)).map ge
  | .decreaseAbsGe => .ok (ge (before - after))
  | .increasePercentGe => (percentChange before (after - before)).map ge
  | .increaseAbsGe => .ok (ge (after - before))
  | .increasePercentLe => (percentChange before (MetricNumber.max (after - before) 0)).map le
  | .increaseAbsLe => .ok (le (after - before))
  | .decreasePercentLe => (percentChange before (MetricNumber.max (before - after) 0)).map le
  | .decreaseAbsLe => .ok (le (before - after))
  | .changePercentLe => (percentChange before (MetricNumber.abs (after - before))).map le
  | .changeAbsLe => .ok (le (MetricNumber.abs (after - before)))
  | .currentLe => .ok (le after)
  | .currentGe => .ok (ge after)

def inconclusive (condition : MetricCondition F) (baseline candidate : Option F)
    (reason : String) : MetricConditionEvidence F :=
  { condition, outcome := .inconclusive, baseline, candidate, reason }

def judgeCondition (condition : MetricCondition F) (before after : F) :
    MetricConditionEvidence F :=
  match condition.op.holds before after condition.value with
  | .ok true =>
    { condition, outcome := .passed, baseline := some before, candidate := some after
      reason := "condition passed" }
  | .ok false =>
    let shownBefore := MetricNumber.display before
    let shownAfter := MetricNumber.display after
    let shownThreshold := MetricNumber.display condition.value
    { condition, outcome := .failed, baseline := some before, candidate := some after
      reason := s!"condition failed: baseline={shownBefore}, candidate={shownAfter}, threshold={shownThreshold}" }
  | .error reason => inconclusive condition (some before) (some after) reason

def compareMetric (condition : MetricCondition F) (before after : MetricValue V) :
    MetricConditionEvidence F :=
  let numericBefore : Option F := JsonValue.asF64 before.value
  let numericAfter : Option F := JsonValue.asF64 after.value
  if before.kind ≠ after.kind ∨ before.unit ≠ after.unit then
    inconclusive condition numericBefore numericAfter
      s!"metric '{condition.metric}' has different kinds or units across A/B measurements"
  else if before.kind ≠ .gauge ∧ before.kind ≠ .counter then
    inconclusive condition none none s!"metric '{condition.metric}' is not a numeric gauge or counter"
  else
    match numericBefore, numericAfter with
    | some numberBefore, some numberAfter =>
      if MetricNumber.isFinite numberBefore ∧ MetricNumber.isFinite numberAfter then
        judgeCondition condition numberBefore numberAfter
      else
        inconclusive condition numericBefore numericAfter
          s!"metric '{condition.metric}' is not a finite number on both sides"
    | _, _ =>
      inconclusive condition numericBefore numericAfter
        s!"metric '{condition.metric}' is not a finite number on both sides"

def evaluateMetricCondition (condition : MetricCondition F) (baseline candidate : MetricBatch V) :
    MetricConditionEvidence F :=
  match condition.validate with
  | .error reason => inconclusive condition none none reason
  | .ok () =>
    match baseline.metrics[condition.metric]?, candidate.metrics[condition.metric]? with
    | some before, some after => compareMetric condition before after
    | _, _ =>
      inconclusive condition none none s!"metric '{condition.metric}' is missing on one or both sides"

end Conditions

/-- `unsafely` is the source's `Unsafe`. -/
inductive EvaluationVerdict where
  | improved
  | noSignal
  | inconclusive
  | unsafely
  deriving DecidableEq

structure ComparisonEvidenceGroups (V : Type) where
  primary : List (ComparisonEvidence V) := []
  regressionGuards : List (ComparisonEvidence V) := []
  workloadInvariants : List (ComparisonEvidence V) := []

structure EvaluationDecision (V F : Type) where
  verdict : EvaluationVerdict
  reason : String
  systemGuardrails : List (MetricConditionEvidence F)
  policyEvidence : ComparisonEvidenceGroups V

section Verdict

variable {V F : Type}

def metricSchemasMatch (baseline candidate : MetricBatch V) : Bool :=
  baseline.metrics.size = candidate.metrics.size &&
    baseline.metrics.toList.all fun (name, baselineMetric) =>
      candidate.metrics[name]?.any fun candidateMetric =>
        baselineMetric.kind = candidateMetric.kind && baselineMetric.unit = candidateMetric.unit

def concludes (evidence : List (ComparisonEvidence V)) (conclusion : ComparisonConclusion) : Bool :=
  evidence.any (·.conclusion = conclusion)

/-- The guardrails are disabled in the source. -/
def fixedSystemGuardrails : List (MetricCondition F) := []

def VerdictKernel.schemasAreComparable (systemBaseline systemCandidate baseline candidate : MetricBatch V) :
    Bool :=
  metricSchemasMatch systemBaseline systemCandidate && metricSchemasMatch baseline candidate

def fingerprintUntrusted (baseline candidate : MetricBatch V) : Bool :=
  match baseline.workloadFingerprint, candidate.workloadFingerprint with
  | some baseline, some candidate => baseline ≠ candidate
  | _, _ => true

variable [JsonValue V F] [MetricNumber F]

def VerdictKernel.decide (systemBaseline systemCandidate baseline candidate : MetricBatch V)
    (policyEvidence : ComparisonEvidenceGroups V) : EvaluationDecision V F :=
  let systemGuardrails := fixedSystemGuardrails.map fun condition =>
    evaluateMetricCondition condition systemBaseline systemCandidate
  let measurementIncomplete := systemBaseline.quality ≠ .valid || systemCandidate.quality ≠ .valid ||
    baseline.quality ≠ .valid || candidate.quality ≠ .valid
  let schemaIncompatible := !schemasAreComparable systemBaseline systemCandidate baseline candidate
  let workloadFingerprintUntrusted := fingerprintUntrusted baseline candidate
  let systemFailed := systemGuardrails.any (·.outcome = .failed)
  let systemInconclusive := systemGuardrails.any (·.outcome = .inconclusive)
  let regressionFailed := concludes policyEvidence.regressionGuards .notImproved
  let policyInconclusive := concludes policyEvidence.primary .inconclusive ||
    concludes policyEvidence.regressionGuards .inconclusive ||
    concludes policyEvidence.workloadInvariants .inconclusive
  let workloadNotComparable := concludes policyEvidence.workloadInvariants .notImproved
  let primaryPassed := !policyEvidence.primary.isEmpty &&
    policyEvidence.primary.all (·.conclusion = .improved)
  let (verdict, reason) :=
    if systemFailed then
      (.unsafely, "a fixed system guardrail failed")
    else if regressionFailed then
      (.unsafely, "a regression guardrail failed")
    else if measurementIncomplete then
      (.inconclusive, "one or both measurement batches are not fully valid")
    else if schemaIncompatible then
      (.inconclusive, "A/B metric names, kinds, or units are not comparable")
    else if workloadFingerprintUntrusted || systemInconclusive || policyInconclusive ||
        workloadNotComparable then
      (.inconclusive, "evaluation evidence is incomplete or the workload is not comparable")
    else if primaryPassed then
      (.improved, "all primary objectives and guardrails passed")
    else
      (.noSignal, "primary objectives did not all pass")
  { verdict, reason, systemGuardrails, policyEvidence }

end Verdict

end ScxAgent.Evaluation
