import ScxAgent.TraceLogic
import ScxAgent.Evaluation.Contract

/-!
# Deadlines and measurement sessions

The evaluation runs on an arbitrary state `σ`, through which its providers, the transaction and the
clock answer. Every call and every wait is an event of a trace, and so is every error at the moment
the code builds it. The sources are `kernel/evaluation/measurement.rs` and the deadline of
`protocol.rs`. Instants and durations are counted in nanoseconds.
-/

namespace ScxAgent.Evaluation

open Std StepLogic TraceLogic

inductive EpisodePhase where
  | clean
  | experimenting
  | commitPending
  | rollingBack
  | recoveryRequired
  | committed
  deriving DecidableEq

inductive CapabilityRole where
  | agentSelectable
  | runtimeSystemGuardrail
  deriving DecidableEq

inductive EffectClass where
  | pureComputation
  | readOnly
  | managedObservation
  | reversibleMutation
  | irreversibleMutation
  deriving DecidableEq

structure CapabilityLimits where
  timeoutMs : ℕ
  maxOutputBytes : ℕ
  deriving DecidableEq

structure CapabilityMeta (V : Type) where
  id : CapabilityId
  effect : EffectClass
  provider : ProviderPin
  outputSchema : V
  role : CapabilityRole
  allowedPhases : List EpisodePhase
  limits : CapabilityLimits

namespace CapabilityMeta

variable {V : Type}

def isAllowedIn (info : CapabilityMeta V) (phase : EpisodePhase) : Bool :=
  info.allowedPhases.contains phase

def isAgentSelectable (info : CapabilityMeta V) : Bool := info.role = .agentSelectable

end CapabilityMeta

structure TransactionStepEvidence (V : Type) where
  stateDigest : Option Digest
  details : V

inductive Event (V : Type) where
  | validated (capabilityId : CapabilityId) (answer : Except ProviderError Unit)
  | restored (candidate : List ChangeId) (answer : Except String (TransactionStepEvidence V))
  | replayed (candidate : List ChangeId) (answer : Except String (TransactionStepEvidence V))
  | opened (binding : MeasurementBinding V) (request : MeasurementOpenRequest V)
      (answer : Except ProviderError (MeasurementSession V))
  | sampled (binding : MeasurementBinding V) (request : MeasurementSampleRequest V)
      (answer : Except ProviderError (MetricBatch V))
  | closed (binding : MeasurementBinding V) (session : MeasurementSession V)
      (answer : Except ProviderError (CleanupReceipt V))
  | compared (binding : ComparisonBinding V) (request : ComparisonRequest V)
      (answer : Except ProviderError (ComparisonEvidence V))
  | waited (duration : ℕ)
  | failed (error : EvaluationError)

abbrev EvaluationM (V σ α : Type) := Proc (Traced σ (Event V)) EvaluationError α

structure Clock (σ : Type) where
  now : σ → ℕ × σ
  sleep : ℕ → σ → Unit × σ
  /-- `Instant::checked_add`. -/
  checkedAdd : ℕ → ℕ → Option ℕ

/-- The trait `MeasurementProvider`. -/
structure MeasurementProvider (V σ : Type) where
  capabilityMeta : CapabilityMeta V
  validateSpecification : V → σ → Except ProviderError Unit × σ
  openSession : MeasurementOpenRequest V → σ → Except ProviderError (MeasurementSession V) × σ
  sample : MeasurementSampleRequest V → σ → Except ProviderError (MetricBatch V) × σ
  close : MeasurementSession V → σ → Except ProviderError (CleanupReceipt V) × σ

variable {V F σ α : Type}

/-- `Err` with an error built here. -/
def refuse (error : EvaluationError) : EvaluationM V σ α := do
  emit (.failed error)
  raise error

/-- `?` on a result whose error is built by the callee. -/
def orRefuse : Except EvaluationError α → EvaluationM V σ α
  | .ok a => pure a
  | .error error => refuse error

def fromMillis (ms : ℕ) : ℕ := ms * 1000000

def asMillis (duration : ℕ) : ℕ := duration / 1000000

structure EvaluationDeadline where
  startedAt : ℕ
  expiresAt : ℕ
  timeout : ℕ

namespace EvaluationDeadline

variable (clock : Clock σ)

def start (timeout : ℕ) : EvaluationM V σ EvaluationDeadline := do
  let startedAt ← consult clock.now
  match clock.checkedAdd startedAt timeout with
  | none =>
    refuse ⟨.budgetExceeded, "evaluation timeout cannot be represented by the monotonic clock"⟩
  | some expiresAt => pure ⟨startedAt, expiresAt, timeout⟩

def exceeded (deadline : EvaluationDeadline) (stage : String) : EvaluationM V σ Unit := do
  let now ← consult clock.now
  let budget := asMillis deadline.timeout
  let elapsed := asMillis (now - deadline.startedAt)
  refuse ⟨.budgetExceeded,
    s!"evaluation budget of {budget} ms was exceeded {stage} after {elapsed} ms"⟩

def check (deadline : EvaluationDeadline) (stage : String) : EvaluationM V σ Unit := do
  let now ← consult clock.now
  if deadline.expiresAt ≤ now then
    exceeded clock deadline stage

def ensureProviderCall (deadline : EvaluationDeadline) (info : CapabilityMeta V)
    (stage : String) : EvaluationM V σ Unit := do
  deadline.check clock stage
  let now ← consult clock.now
  let remaining := deadline.expiresAt - now
  if remaining < fromMillis info.limits.timeoutMs then
    let left := asMillis remaining
    refuse ⟨.budgetExceeded, s!"evaluation budget cannot admit {stage}: capability '{info.id}' declares a {info.limits.timeoutMs} ms timeout but only {left} ms remain"⟩

def settle (deadline : EvaluationDeadline) (duration : ℕ) (stage : String) :
    EvaluationM V σ Unit := do
  deadline.check clock stage
  let now ← consult clock.now
  let remaining := deadline.expiresAt - now
  if remaining < duration then
    let scheduled := asMillis duration
    let left := asMillis remaining
    refuse ⟨.budgetExceeded, s!"evaluation budget cannot admit {stage}: {scheduled} ms are scheduled but only {left} ms remain"⟩
  if duration ≠ 0 then
    ask (clock.sleep duration) fun _ => .waited duration
  deadline.check clock stage

end EvaluationDeadline

/-! ## Aggregation -/

section Aggregation

variable [JsonValue V F] [MetricNumber F]

def worstQuality : MetricQuality → MetricQuality → MetricQuality
  | .invalid, _ | _, .invalid => .invalid
  | .partially, _ | _, .partially => .partially
  | _, _ => .valid

/-- The numbers or the truth values of one metric over all samples. -/
structure Readings (F : Type) where
  numbers : List F
  booleans : List Bool

def readMetric (first : MetricValue V) (metric : String) (readings : Readings F)
    (sample : MetricBatch V) : Option (Readings F) := do
  let value ← sample.metrics[metric]?
  if value.kind ≠ first.kind ∨ value.unit ≠ first.unit then
    none
  match value.kind with
  | .gauge | .counter =>
    let number ← JsonValue.asF64 value.value
    some { readings with numbers := readings.numbers ++ [number] }
  | .boolean =>
    let truth ← JsonValue.asBool value.value
    some { readings with booleans := readings.booleans ++ [truth] }
  | .histogram => none

def median (numbers : List F) : F :=
  let sorted := numbers.mergeSort MetricNumber.totalLe
  let middle := sorted.length / 2
  if sorted.length % 2 = 0 then
    (sorted.getD (middle - 1) 0 + sorted.getD middle 0) / MetricNumber.two
  else sorted.getD middle 0

/-- The median of numbers, and a truth value that all samples agree on. -/
def aggregateReadings (kind : MetricKind) (readings : Readings F) : Option V :=
  match kind with
  | .gauge | .counter => some (JsonValue.ofF64 (median readings.numbers))
  | .boolean =>
    readings.booleans.head?.bind fun first =>
      if readings.booleans.all (· = first) then some (JsonValue.ofBool first) else none
  | .histogram => none

def aggregateMetric (samples : List (MetricBatch V)) (metric : String) :
    Option (MetricValue V) := do
  let first ← (← samples.head?).metrics[metric]?
  let readings ← samples.foldlM (readMetric first metric) ⟨[], []⟩
  let value ← aggregateReadings first.kind readings
  some { value, unit := first.unit, kind := first.kind }

def metricNames (samples : List (MetricBatch V)) : List String :=
  (TreeSet.ofList (samples.flatMap fun sample => sample.metrics.keys) compare).toList

def aggregateInto (samples : List (MetricBatch V))
    (acc : TreeMap String (MetricValue V) × MetricQuality) (metric : String) :
    TreeMap String (MetricValue V) × MetricQuality :=
  match aggregateMetric samples metric with
  | some value => (acc.1.insert metric value, acc.2)
  | none => (acc.1, worstQuality acc.2 .partially)

def aggregateSamples (samples : List (MetricBatch V)) :
    Except EvaluationError (MetricBatch V) :=
  match samples with
  | [] => .error ⟨.measurement, "measurement returned no samples"⟩
  | [sample] => .ok sample
  | first :: _ :: _ =>
    let quality := (samples.map (·.quality)).foldl worstQuality .valid
    let (metrics, quality) := (metricNames samples).foldl (aggregateInto samples) (∅, quality)
    let fingerprintsMatch := samples.all (·.workloadFingerprint = first.workloadFingerprint)
    .ok
      { startedAtNs := (samples.map (·.startedAtNs)).min?.getD 0
        endedAtNs := (samples.map (·.endedAtNs)).max?.getD 0
        quality := if fingerprintsMatch then quality else worstQuality quality .partially
        workloadFingerprint := if fingerprintsMatch then first.workloadFingerprint else none
        metrics
        provenance := JsonValue.ofObject
          [("aggregation", JsonValue.ofStr "median"),
            ("sample_count", JsonValue.ofNat samples.length),
            ("samples", JsonValue.ofArray (samples.map (·.provenance)))] }

end Aggregation

/-! ## Sessions -/

structure MeasurementEvidence (V : Type) where
  batch : MetricBatch V
  cleanup : CleanupReceipt V
  samplesCollected : ℕ

def ensureOutputLimit {β : Type} [Serialize β] (info : CapabilityMeta V) (value : β)
    (label : String) : EvaluationM V σ Unit :=
  match Serialize.toVec value with
  | .error error => refuse ⟨.measurement, s!"failed to encode {label}: {error}"⟩
  | .ok encoded =>
    if encoded.length > info.limits.maxOutputBytes then
      refuse ⟨.measurement, s!"measurement '{info.id}' {label} exceeded its {info.limits.maxOutputBytes} byte output limit"⟩
    else pure ()

section Sessions

variable [JsonValue V F] [MetricNumber F] [Serialize (MetricBatch V)] [Serialize (CleanupReceipt V)]
  (clock : Clock σ) (provider : MeasurementProvider V σ) (binding : MeasurementBinding V)
  (context : InvocationContext)

/-- One turn of the sampling loop, up to the wait for the next one. -/
def takeSample (session : MeasurementSession V) (deadline : EvaluationDeadline) (number : ℕ) :
    EvaluationM V σ (MetricBatch V) := do
  deadline.ensureProviderCall clock provider.capabilityMeta s!"before measurement sample {number}"
  let request : MeasurementSampleRequest V := ⟨context, session⟩
  let sampled ← ask (provider.sample request) (.sampled binding request)
  deadline.check clock s!"after measurement sample {number}"
  match sampled with
  | .error error => refuse ⟨.measurement, s!"measurement sample {number} failed: {error}"⟩
  | .ok batch =>
    ensureOutputLimit provider.capabilityMeta batch "measurement sample"
    match batch.validate with
    | .error error => refuse ⟨.measurement, s!"measurement sample {number} is invalid: {error}"⟩
    | .ok () => pure batch

/-- The sampling loop with `remaining` turns to go. -/
def sampleRest (session : MeasurementSession V) (plan : SamplingPlan)
    (deadline : EvaluationDeadline) :
    ℕ → List (MetricBatch V) → EvaluationM V σ (List (MetricBatch V))
  | 0, samples => pure samples
  | remaining + 1, samples => do
    let batch ← takeSample clock provider binding context session deadline
      (plan.sampleCount - remaining)
    if 0 < remaining ∧ plan.sampleIntervalMs > 0 then
      deadline.settle clock (fromMillis plan.sampleIntervalMs)
        "while waiting between measurement samples"
    sampleRest session plan deadline remaining (samples ++ [batch])

def sampleSession (session : MeasurementSession V) (plan : SamplingPlan)
    (deadline : EvaluationDeadline) : EvaluationM V σ (List (MetricBatch V)) :=
  sampleRest clock provider binding context session plan deadline plan.sampleCount []

def confirmCleanup (session : MeasurementSession V)
    (samples : Except EvaluationError (List (MetricBatch V))) :
    Except ProviderError (CleanupReceipt V) → EvaluationM V σ (CleanupReceipt V)
  | .ok receipt =>
    if receipt.sessionId ≠ session.id then
      refuse ⟨.cleanup, s!"measurement '{binding.capabilityId}' returned cleanup receipt for session '{receipt.sessionId}', expected '{session.id}'"⟩
    else if receipt.cleanedUp then do
      ensureOutputLimit provider.capabilityMeta receipt "cleanup receipt"
      pure receipt
    else
      refuse ⟨.cleanup, s!"measurement '{binding.capabilityId}' did not confirm cleanup for session '{receipt.sessionId}'"⟩
  | .error error =>
    let sampleContext := match samples with
      | .error sampleError => s!"; sampling also failed: {sampleError}"
      | .ok _ => ""
    refuse ⟨.cleanup,
      s!"measurement '{binding.capabilityId}' cleanup failed: {error}{sampleContext}"⟩

/-- The end of a session, which is closed however the sampling went. -/
def closeSession (session : MeasurementSession V)
    (samples : Except EvaluationError (List (MetricBatch V))) (plan : SamplingPlan)
    (deadline : EvaluationDeadline) : EvaluationM V σ (MeasurementEvidence V) := do
  let closeAdmission ← attempt
    (deadline.ensureProviderCall clock provider.capabilityMeta "before measurement close")
  let answer ← ask (provider.close session) (.closed binding session)
  let closeBudget ← attempt (deadline.check clock "after measurement close")
  let cleanup ← confirmCleanup provider binding session samples answer
  ofExcept closeAdmission
  ofExcept closeBudget
  let samples ← ofExcept samples
  let batch ← orRefuse (aggregateSamples samples)
  return { batch, cleanup, samplesCollected := plan.sampleCount }

def runSession (session : MeasurementSession V) (openBudget : Except EvaluationError Unit)
    (plan : SamplingPlan) (deadline : EvaluationDeadline) :
    EvaluationM V σ (MeasurementEvidence V) := do
  let samples ← match openBudget with
    | .ok () => attempt (sampleSession clock provider binding context session plan deadline)
    | .error error => pure (.error error)
  closeSession clock provider binding session samples plan deadline

def collectMeasurement (plan : SamplingPlan) (deadline : EvaluationDeadline) :
    EvaluationM V σ (MeasurementEvidence V) := do
  deadline.ensureProviderCall clock provider.capabilityMeta "before measurement open"
  let request : MeasurementOpenRequest V := ⟨context, binding.specification⟩
  let opened ← ask (provider.openSession request) (.opened binding request)
  let openBudget ← attempt (deadline.check clock "after measurement open")
  match opened with
  | .ok session => runSession clock provider binding context session openBudget plan deadline
  | .error error => do
    ofExcept openBudget
    refuse ⟨.measurement, s!"measurement '{binding.capabilityId}' open failed: {error}"⟩

end Sessions

end ScxAgent.Evaluation
