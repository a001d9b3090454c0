import Mathlib

/-!
# Scheduling policy of the classed scheduler

The options of the scheduler, the check its `init` makes of them, and the class arithmetic: class
weights turn runtime into class vruntime and back.
-/

namespace ScxAgent.Scheduler

/-- `~0ULL` of the source. -/
def u64Max : UInt64 := 0xffffffffffffffff

def nsecPerMsec : UInt64 := 1000000

def classWeightBase : UInt64 := 100

def classWakeupCredit : UInt64 := 2

def migrationCooldownNs : UInt64 := 500000

def agentMaxCpus : ℕ := 4096

def agentStealScanMax : ℕ := 32

inductive WorkloadClass where
  | latency
  | batch
  deriving DecidableEq, Repr

def WorkloadClass.other : WorkloadClass → WorkloadClass
  | .latency => .batch
  | .batch => .latency

/-- The class an identifier of the rule table names, if it is below `CLASS_NR`. -/
def classOfId (id : UInt32) : Option WorkloadClass :=
  if id = 0 then some .latency else if id = 1 then some .batch else none

structure Config where
  latencySliceNs : UInt64
  batchMinEpochNs : UInt64
  batchMaxEpochNs : UInt64
  batchRoundNs : UInt64
  latencyBurstBudgetNs : UInt64
  classMaxDebtNs : UInt64
  batchMinRunNs : UInt64
  batchPreemptGranularityNs : UInt64
  latencyWeight : UInt64
  batchWeight : UInt64
  defaultClass : UInt32
  stealScan : UInt32
  sameLlcMigrationCostNs : UInt64
  sameNodeMigrationCostNs : UInt64
  remoteNodeMigrationCostNs : UInt64

/-- The values the options have when user space does not set them. -/
def Config.initial : Config where
  latencySliceNs := 1000000
  batchMinEpochNs := 1000000
  batchMaxEpochNs := 8000000
  batchRoundNs := 16000000
  latencyBurstBudgetNs := 2000000
  classMaxDebtNs := 1000000
  batchMinRunNs := 500000
  batchPreemptGranularityNs := 500000
  latencyWeight := 200
  batchWeight := 100
  defaultClass := 1
  stealScan := 8
  sameLlcMigrationCostNs := 250000
  sameNodeMigrationCostNs := 500000
  remoteNodeMigrationCostNs := 1000000

/-- The checks of `agent_classed_init` that end in "invalid scheduler configuration". -/
def Config.admitted (cfg : Config) : Bool :=
  !(cfg.latencySliceNs == 0 || cfg.latencySliceNs > u64Max / 2 ||
    cfg.latencyBurstBudgetNs < cfg.latencySliceNs ||
    cfg.latencyBurstBudgetNs > cfg.latencySliceNs * 2 ||
    cfg.classMaxDebtNs > 0x7fffffffffffffff ||
    cfg.batchMinEpochNs == 0 ||
    cfg.batchMaxEpochNs < cfg.batchMinEpochNs ||
    cfg.batchMinEpochNs > u64Max / 8 ||
    cfg.batchMaxEpochNs > cfg.batchMinEpochNs * 8 ||
    cfg.batchRoundNs < cfg.batchMinEpochNs ||
    cfg.batchMinRunNs > cfg.batchMinEpochNs ||
    cfg.batchPreemptGranularityNs == 0 ||
    cfg.sameLlcMigrationCostNs > cfg.sameNodeMigrationCostNs ||
    cfg.sameNodeMigrationCostNs > cfg.remoteNodeMigrationCostNs ||
    cfg.latencyWeight == 0 || cfg.batchWeight == 0 || cfg.defaultClass ≥ 2 ||
    cfg.stealScan.toNat > agentStealScanMax)

example : Config.initial.admitted = true := by decide

def Config.sanitizeClass (cfg : Config) (id : UInt32) : WorkloadClass :=
  ((classOfId id).or (classOfId cfg.defaultClass)).getD .batch

def Config.classSlice (cfg : Config) : WorkloadClass → UInt64
  | .latency => cfg.latencySliceNs
  | .batch => cfg.batchMinEpochNs

def Config.weightOf (cfg : Config) : WorkloadClass → UInt64
  | .latency => cfg.latencyWeight
  | .batch => cfg.batchWeight

def Config.classWeight (cfg : Config) (k : WorkloadClass) : UInt64 :=
  if cfg.weightOf k = 0 then 1 else cfg.weightOf k

def Config.classVruntimeDelta (cfg : Config) (k : WorkloadClass) (runtime : UInt64) : UInt64 :=
  let delta := runtime * classWeightBase / cfg.classWeight k
  if delta = 0 then 1 else delta

def Config.classRuntimeFromVruntime (cfg : Config) (k : WorkloadClass) (delta : UInt64) : UInt64 :=
  let weight := cfg.classWeight k
  if delta ≤ 1 then delta
  else if delta > (u64Max - (classWeightBase - 1)) / weight then u64Max
  else (delta * weight + classWeightBase - 1) / classWeightBase

/-- `time_before` of the scheduler headers: the difference is negative as a signed word. -/
def timeBefore (a b : UInt64) : Bool := (a - b).toInt64 < 0

/-- `vtime_set_max`; its compare-and-swap loop ends in the first round when nobody interferes. -/
def vtimeSetMax (vtime value : UInt64) : UInt64 := if timeBefore vtime value then value else vtime

end ScxAgent.Scheduler
