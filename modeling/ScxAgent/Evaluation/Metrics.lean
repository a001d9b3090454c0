import ScxAgent.MutationDomain

/-!
# Metric batches

The types of `domain/measurement.rs` and `domain/comparison.rs`. JSON values stay a type `V`; the
accessors of `serde_json::Value` enter as the class `JsonValue`, and the arithmetic of `f64` as the
class `MetricNumber`.
-/

namespace ScxAgent.Evaluation

open Std

/-- What the evaluation uses of `f64`. -/
class MetricNumber (F : Type) extends Zero F, Add F, Sub F, Mul F, Div F where
  two : F
  hundred : F
  /-- `f64::EPSILON`. -/
  epsilon : F
  abs : F → F
  max : F → F → F
  le : F → F → Bool
  /-- The order of `f64::total_cmp`. -/
  totalLe : F → F → Bool
  isFinite : F → Bool
  display : F → String

/-- What the evaluation uses of `serde_json::Value`. -/
class JsonValue (V : Type) (F : outParam Type) where
  asF64 : V → Option F
  asBool : V → Option Bool
  asStr : V → Option String
  asArray : V → Option (List V)
  asObject : V → Option (List (String × V))
  /-- `json!` of a number that is not finite is `Value::Null`. -/
  ofF64 : F → V
  ofBool : Bool → V
  ofNat : ℕ → V
  ofStr : String → V
  ofArray : List V → V
  ofObject : List (String × V) → V

section Json

variable {V F : Type} [JsonValue V F]

/-- `Value::get` with a text key. -/
def jsonGet (value : V) (key : String) : Option V :=
  (JsonValue.asObject value).bind fun members => (members.find? (·.1 = key)).map (·.2)

def emptyObject : V := JsonValue.ofObject []

end Json

inductive MetricKind where
  | gauge
  | counter
  | boolean
  | histogram
  deriving DecidableEq

/-- `partially` is the source's `Partial`. -/
inductive MetricQuality where
  | valid
  | partially
  | invalid
  deriving DecidableEq

structure MetricValue (V : Type) where
  value : V
  unit : String
  kind : MetricKind

structure MetricBatch (V : Type) where
  startedAtNs : ℕ
  endedAtNs : ℕ
  quality : MetricQuality
  workloadFingerprint : Option String
  metrics : TreeMap String (MetricValue V)
  provenance : V

def validateText (label value : String) (maxLen : ℕ) : Except String Unit :=
  if value.isEmpty || value.utf8ByteSize > maxLen || trim value ≠ value ||
      value.toList.any isControl then
    .error s!"{label} is invalid"
  else .ok ()

variable {V F : Type} [JsonValue V F] [MetricNumber F]

def MetricValue.kindMatches (metric : MetricValue V) : Bool :=
  match metric.kind with
  | .gauge | .counter => (JsonValue.asF64 metric.value).any MetricNumber.isFinite
  | .boolean => (JsonValue.asBool metric.value).isSome
  | .histogram =>
    (JsonValue.asArray metric.value).isSome || (JsonValue.asObject metric.value).isSome

namespace MetricBatch

def validateMetric (name : String) (metric : MetricValue V) : Except String Unit := do
  validateText "metric name" name 256
  validateText s!"metric '{name}' unit" metric.unit 128
  if !metric.kindMatches then
    .error s!"metric '{name}' value does not match its declared kind"

def validate (batch : MetricBatch V) : Except String Unit := do
  if batch.endedAtNs < batch.startedAtNs then
    .error "metric batch ends before it starts"
  if batch.metrics.isEmpty then
    .error "metric batch must contain at least one metric"
  if batch.metrics.size > 4096 then
    .error "metric batch contains more than 4096 metrics"
  if let some fingerprint := batch.workloadFingerprint then
    validateText "workload fingerprint" fingerprint 4096
  batch.metrics.toList.forM fun (name, metric) => validateMetric name metric

end MetricBatch

abbrev ContractId := TextId "contract id" 256
abbrev MeasurementSessionId := TextId "measurement session id" 256

structure MeasurementOpenRequest (V : Type) where
  context : InvocationContext
  specification : V

structure MeasurementSession (V : Type) where
  id : MeasurementSessionId
  driverData : V
  deriving DecidableEq

structure MeasurementSampleRequest (V : Type) where
  context : InvocationContext
  session : MeasurementSession V

structure CleanupReceipt (V : Type) where
  sessionId : MeasurementSessionId
  cleanedUp : Bool
  details : V

structure ComparisonRequest (V : Type) where
  context : InvocationContext
  contractId : ContractId
  specification : V
  baseline : MetricBatch V
  candidate : MetricBatch V

inductive ComparisonConclusion where
  | improved
  | notImproved
  | inconclusive
  deriving DecidableEq

structure ConditionEvidence (V : Type) where
  name : String
  passed : Bool
  details : V

structure ComparisonEvidence (V : Type) where
  conclusion : ComparisonConclusion
  conditions : List (ConditionEvidence V)
  details : V

end ScxAgent.Evaluation
