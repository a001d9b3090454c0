import ScxAgent.Scheduler.Contexts

/-!
# Arbitration between the two classes of a CPU

`decide_class` picks the class a CPU serves next and for how long; `CpuCtx.chargeClass` is what
`charge_runtime` does to the CPU's class entities.
-/

namespace ScxAgent.Scheduler

inductive DecisionReason where
  | none
  | single
  | latencyDebt
  | batchDebt
  | batchMinRun
  deriving DecidableEq, Repr

structure ClassDecision where
  runForNs : UInt64
  lagNs : Int64
  winner : Option WorkloadClass
  fallback : Option WorkloadClass
  reason : DecisionReason

structure ClassCandidates where
  available : WorkloadClass → Bool
  currentClass : Option WorkloadClass

variable (cfg : Config)

def projectedClassVruntime (cpuc : CpuCtx) (k : WorkloadClass) (now : UInt64) : UInt64 :=
  let projected := (cpuc.entity k).vruntime
  if cpuc.runningClass ≠ some k then projected
  else if cpuc.runningSince = 0 ∨ now ≤ cpuc.runningSince then projected
  else projected + cfg.classVruntimeDelta k (now - cpuc.runningSince)

def classWinner (latencyVruntime batchVruntime : UInt64) : WorkloadClass :=
  if (latencyVruntime - batchVruntime).toInt64 ≤ cfg.classMaxDebtNs.toInt64 then .latency
  else .batch

/-- The batch service since the last latency run, the run in progress included. -/
def batchServiceAt (cpuc : CpuCtx) (now : UInt64) : UInt64 :=
  let batchService := cpuc.batchServiceSinceLatency
  if cpuc.runningSince ≠ 0 ∧ now > cpuc.runningSince then
    let delay := now - cpuc.runningSince
    if u64Max - batchService < delay then u64Max else batchService + delay
  else batchService

/-- A run lasts at least one nanosecond: `delay ? delay : 1`. -/
def atLeastOne (delay : UInt64) : UInt64 := if delay = 0 then 1 else delay

def decideMixed (lag : Int64) : WorkloadClass → ClassDecision
  | .latency =>
    { winner := some .latency
      fallback := some .batch
      reason := .latencyDebt
      lagNs := lag
      runForNs := atLeastOne (cfg.classRuntimeFromVruntime .latency
        (cfg.classMaxDebtNs.toInt64 - lag + 1).toUInt64) }
  | .batch =>
    { winner := some .batch
      fallback := some .latency
      reason := .batchDebt
      lagNs := lag
      runForNs := atLeastOne (cfg.classRuntimeFromVruntime .batch
        (lag - cfg.classMaxDebtNs.toInt64).toUInt64) }

def decideClass (cpuc : CpuCtx) (now : UInt64) (candidates : ClassCandidates) : ClassDecision :=
  if !candidates.available .latency && !candidates.available .batch then
    { winner := none, fallback := none, runForNs := u64Max, lagNs := 0, reason := .none }
  else if !candidates.available .latency then
    { winner := some .batch, fallback := none, runForNs := u64Max, lagNs := 0, reason := .single }
  else if !candidates.available .batch then
    { winner := some .latency, fallback := none, runForNs := u64Max, lagNs := 0, reason := .single }
  else
    let latVruntime := projectedClassVruntime cfg cpuc .latency now
    let batchVruntime := projectedClassVruntime cfg cpuc .batch now
    let lag := (latVruntime - batchVruntime).toInt64
    let winner := classWinner cfg latVruntime batchVruntime
    let batchService := batchServiceAt cpuc now
    if candidates.currentClass = some .batch ∧ winner = .latency ∧
        batchService < cfg.batchMinRunNs then
      { winner := some .batch
        fallback := some .latency
        runForNs := cfg.batchMinRunNs - batchService
        lagNs := lag
        reason := .batchMinRun }
    else decideMixed cfg lag winner

/-- The class accounting of `charge_runtime` on the CPU that ran the class. -/
def CpuCtx.chargeClass (cpuc : CpuCtx) (k : WorkloadClass) (runtime : UInt64) : CpuCtx :=
  let service := cpuc.batchServiceSinceLatency
  let vruntime := (cpuc.entity k).vruntime + cfg.classVruntimeDelta k runtime
  { cpuc.updateEntity k fun entity => { entity with vruntime := vruntime } with
    batchServiceSinceLatency := match k with
      | .latency => 0
      | .batch => if u64Max - service < runtime then u64Max else service + runtime
    classVtimeNow := vtimeSetMax cpuc.classVtimeNow vruntime }

end ScxAgent.Scheduler
