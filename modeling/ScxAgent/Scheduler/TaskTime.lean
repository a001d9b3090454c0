import ScxAgent.Scheduler.Arbitration

/-!
# Task vruntime, batch epochs and class activation

The parts of the scheduler that move virtual times: a task is placed on the clock of its CPU, a
batch task is granted epochs, and a class that wakes up is brought near the running clock.
-/

namespace ScxAgent.Scheduler

variable {T : Type} [DecidableEq T] (cfg : Config)

def resetBatchEpoch (tctx : TaskCtx) : TaskCtx :=
  { tctx with batchEpochTargetNs := cfg.batchMinEpochNs, batchEpochRemainingNs := 0 }

def nextBatchEpoch (tctx : TaskCtx) : UInt64 :=
  let current := tctx.batchEpochTargetNs
  let current := if current < cfg.batchMinEpochNs ∨ current > cfg.batchMaxEpochNs then
    cfg.batchMinEpochNs else current
  if current ≥ cfg.batchMaxEpochNs then cfg.batchMaxEpochNs
  else if current > cfg.batchMaxEpochNs / 2 then cfg.batchMaxEpochNs
  else current * 2

/-- The clock value below which a class that wakes up is not left. -/
def wakeupFloor (k : WorkloadClass) (now : UInt64) : UInt64 :=
  let credit := cfg.classVruntimeDelta k (cfg.classSlice k * classWakeupCredit)
  if now > credit then now - credit else 0

def activateCpuClass (k : WorkloadClass) (cpuc : CpuCtx) : CpuCtx :=
  cpuc.updateEntity k fun entity =>
    { entity with vruntime := vtimeSetMax entity.vruntime (wakeupFloor cfg k cpuc.classVtimeNow) }

def Sched.activateClass (s : Sched T) (k : WorkloadClass) : Sched T :=
  s.updateClass k fun cctx =>
    { cctx with vruntime := vtimeSetMax cctx.vruntime (wakeupFloor cfg k s.classVtimeNow) }

def applyVlag (vtime : UInt64) (vlag : Int64) : UInt64 :=
  if 0 ≤ vlag then
    let amount := vlag.toUInt64
    if vtime > amount then vtime - amount else 0
  else
    let amount := (-vlag).toUInt64
    if u64Max - vtime < amount then u64Max else vtime + amount

def creditNs : WorkloadClass → UInt64
  | .latency => cfg.latencySliceNs + nsecPerMsec
  | .batch => cfg.batchMinEpochNs

def debtNs : WorkloadClass → UInt64
  | .latency => cfg.latencySliceNs + nsecPerMsec
  | .batch => cfg.batchMaxEpochNs

def clampTaskVlag (p : TaskStruct) (k : WorkloadClass) (vlag : Int64) : Int64 :=
  let credit := (p.scaleByTaskWeightInverse (creditNs cfg k)).toInt64
  let debt := (p.scaleByTaskWeightInverse (debtNs cfg k)).toInt64
  if vlag > credit then credit
  else if vlag < -debt then -debt
  else vlag

def cpuTaskVtime (cpuc : CpuCtx) (k : WorkloadClass) : UInt64 := (cpuc.entity k).taskVtime

/-- The step of `task_rebase_vruntime` for a task whose clock is another CPU's. -/
def migrateVruntime (s : Sched T) (p : TaskStruct) (tctx : TaskCtx) (dst : CpuCtx)
    (cpu vtimeCpu : Cpu) : Option TaskCtx :=
  if vtimeCpu = cpu then some tctx
  else (s.lookupCpuCtx vtimeCpu).map fun src =>
    let vlag := (cpuTaskVtime src tctx.classId - tctx.vruntime).toInt64
    { tctx with
      vruntime := applyVlag (cpuTaskVtime dst tctx.classId) (clampTaskVlag cfg p tctx.classId vlag)
      vtimeCpu := some cpu }

/-- The step of `task_rebase_vruntime` that bounds the credit of a batch wakeup. -/
def limitWakeupCredit (p : TaskStruct) (dst : CpuCtx) (wakeup : Bool) (tctx : TaskCtx) : TaskCtx :=
  let dstVtime := cpuTaskVtime dst tctx.classId
  let credit := p.scaleByTaskWeightInverse cfg.batchMinEpochNs
  let floor := if dstVtime > credit then dstVtime - credit else 0
  if tctx.classId = .batch ∧ wakeup = true ∧ timeBefore tctx.vruntime floor then
    { tctx with vruntime := floor }
  else tctx

/-- `none` where the source returns false; the context is then unchanged. -/
def taskRebaseVruntime (s : Sched T) (p : TaskStruct) (tctx : TaskCtx) (cpu : Cpu)
    (wakeup : Bool) : Option TaskCtx :=
  match s.lookupCpuCtx cpu with
  | none => none
  | some dst =>
    match tctx.vtimeCpu with
    | none =>
      some { tctx with
        vruntime := cpuTaskVtime dst tctx.classId
        vtimeCpu := some cpu
        hasSleepVlag := false }
    | some vtimeCpu =>
      if tctx.classId = .latency ∧ tctx.hasSleepVlag = true then
        some { tctx with
          vruntime := applyVlag (cpuTaskVtime dst tctx.classId)
            (clampTaskVlag cfg p tctx.classId tctx.sleepVlag)
          vtimeCpu := some cpu
          hasSleepVlag := false }
      else
        (migrateVruntime cfg s p tctx dst cpu vtimeCpu).map fun tctx =>
          { limitWakeupCredit cfg p dst wakeup tctx with hasSleepVlag := false }

/-- `task_rebase_vruntime` on the stored context of a task. -/
def Sched.rebaseTask (s : Sched T) (p : T) (cpu : Cpu) (wakeup : Bool) : Bool × Sched T :=
  match (s.tasks p).bind fun tctx => taskRebaseVruntime cfg s (s.kernel.task p) tctx cpu wakeup with
  | none => (false, s)
  | some tctx => (true, s.updateTask p fun _ => tctx)

def latencySaveSleepVlag (s : Sched T) (p : TaskStruct) (tctx : TaskCtx) : TaskCtx :=
  match tctx.vtimeCpu.bind s.lookupCpuCtx with
  | none => tctx
  | some cpuc =>
    if tctx.classId ≠ .latency then tctx
    else
      let vlag := (cpuTaskVtime cpuc .latency - tctx.vruntime).toInt64
      { tctx with sleepVlag := clampTaskVlag cfg p .latency vlag, hasSleepVlag := true }

def batchStartEpoch (tctx : TaskCtx) (cpuc : CpuCtx) (currentUnaccounted : Bool) :
    UInt64 × TaskCtx :=
  if tctx.batchEpochRemainingNs ≠ 0 then (tctx.batchEpochRemainingNs, tctx)
  else
    let target := tctx.batchEpochTargetNs
    let target := if target < cfg.batchMinEpochNs ∨ target > cfg.batchMaxEpochNs then
      cfg.batchMinEpochNs else target
    let entity := cpuc.entity .batch
    let runnable := UInt64.ofNat entity.nrQueued + UInt64.ofNat entity.nrRunning
    let runnable := if currentUnaccounted then runnable + 1 else runnable
    let runnable := if runnable = 0 then 1 else runnable
    let cap := cfg.batchRoundNs / runnable
    let cap := if cap < cfg.batchMinEpochNs then cfg.batchMinEpochNs else cap
    let cap := if cap > cfg.batchMaxEpochNs then cfg.batchMaxEpochNs else cap
    let grant := if target < cap then target else cap
    (grant, { tctx with batchEpochTargetNs := target, batchEpochRemainingNs := grant })

def resetClassState (tctx : TaskCtx) : TaskCtx :=
  resetBatchEpoch cfg { tctx with
    vruntime := 0
    vtimeCpu := none
    sleepVlag := 0
    hasSleepVlag := false
    latencyBurstUsedNs := 0 }

/-- The part of `charge_runtime` that concerns the epoch of a batch task. -/
def chargeEpoch (tctx : TaskCtx) (runtime : UInt64) (runnable : Bool) : TaskCtx :=
  let remaining := tctx.batchEpochRemainingNs
  if remaining ≠ 0 ∧ runtime ≥ remaining then
    { tctx with
      batchEpochRemainingNs := 0
      batchEpochTargetNs := if runnable then nextBatchEpoch cfg tctx else tctx.batchEpochTargetNs }
  else if remaining ≠ 0 then { tctx with batchEpochRemainingNs := remaining - runtime }
  else tctx

/-- The part of `charge_runtime` that concerns the task. -/
def chargeTask (p : TaskStruct) (tctx : TaskCtx) (runtime : UInt64) (runnable : Bool) : TaskCtx :=
  let tctx := { tctx with vruntime := tctx.vruntime + p.scaleByTaskWeightInverse runtime }
  match tctx.classId with
  | .latency =>
    { tctx with latencyBurstUsedNs :=
        if u64Max - tctx.latencyBurstUsedNs < runtime then u64Max
        else tctx.latencyBurstUsedNs + runtime }
  | .batch => chargeEpoch cfg tctx runtime runnable

/-- The part of `charge_runtime` that concerns the class as a whole. -/
def Sched.chargeClassTotal (s : Sched T) (k : WorkloadClass) (runtime : UInt64) : Sched T :=
  let vruntime := (s.classes k).vruntime + cfg.classVruntimeDelta k runtime
  { s.updateClass k fun cctx => { cctx with vruntime := vruntime } with
    classVtimeNow := vtimeSetMax s.classVtimeNow vruntime }

def Sched.chargeRuntime (s : Sched T) (p : T) (cpu : Cpu) (runtime : UInt64) (runnable : Bool) :
    Bool × Sched T :=
  if runtime = 0 then (true, s)
  else
    match s.tasks p, s.lookupCpuCtx cpu with
    | some tctx, some _ =>
      let k := tctx.classId
      let s := s.updateTask p fun tctx => chargeTask cfg (s.kernel.task p) tctx runtime runnable
      let s := s.chargeClassTotal cfg k runtime
      (true, s.updateCpu cpu fun cpuc => cpuc.chargeClass cfg k runtime)
    | _, _ => (false, s)

end ScxAgent.Scheduler
