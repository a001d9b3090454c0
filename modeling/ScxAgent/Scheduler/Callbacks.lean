import ScxAgent.Scheduler.Dispatch

/-!
# Callbacks of the scheduler

The `sched_ext` operations. A callback that finds no context for its task leaves the task to the
global queue and the state unchanged.
-/

namespace ScxAgent.Scheduler

variable {T : Type} [DecidableEq T] (cfg : Config)

structure EnqFlags where
  wakeup : Bool
  reenq : Bool
  cpuSelected : Bool

structure DeqFlags where
  sleep : Bool
  coreSchedExec : Bool
  schedChange : Bool

namespace Sched

def isPcpuTask (s : Sched T) (p : T) : Bool :=
  (s.kernel.task p).nrCpusAllowed = 1 || (s.kernel.task p).migrationDisabled

def taskCpuAllowed (s : Sched T) (p : T) (cpu : Cpu) : Bool :=
  cpu < s.nrCpuIds && (s.kernel.task p).cpusPtr cpu

/-- `task_cpu_allowed` of a CPU field that may be unset. -/
def homeAllowed (s : Sched T) (p : T) (cpu : Option Cpu) : Bool :=
  cpu.any fun cpu => s.taskCpuAllowed p cpu

def taskHomeCpu (s : Sched T) (p : T) (tctx : TaskCtx) (prevCpu : Cpu) : Cpu × Sched T :=
  match tctx.homeCpu.filter (s.taskCpuAllowed p) with
  | some cpu => (cpu, s)
  | none =>
    let cpu := if s.taskCpuAllowed p prevCpu then prevCpu else s.kernel.taskCpu p
    let cpu := if s.taskCpuAllowed p cpu then cpu else (s.kernel.task p).cpumaskFirst
    (cpu, if s.taskCpuAllowed p cpu then s.updateTask p fun tctx => { tctx with homeCpu := some cpu }
      else s)

def isCpuIdle (s : Sched T) (cpu : Cpu) : Bool :=
  match s.kernel.cpuCurr cpu with
  | some p => (s.kernel.task p).idleFlag
  | none => false

def taskShouldKick (s : Sched T) (p : T) (flags : EnqFlags) : Bool :=
  !flags.cpuSelected && !s.kernel.taskRunning p

/-- One step of the scan of `batch_pick_cpu` over the CPUs after the home CPU. -/
def scanBatchCpu (s : Sched T) (p : T) (homeCpu : Cpu) (best : Cpu × UInt64) (i : ℕ) :
    Cpu × UInt64 :=
  let cpu := (homeCpu + 1 + i) % s.nrCpuIds
  if !s.taskCpuAllowed p cpu then best
  else
    let score := s.scaledLoad cfg cpu
    let cost := s.topologyMigrationCost cfg homeCpu cpu
    if u64Max - score < cost then best
    else if score + cost < best.2 then (cpu, score + cost)
    else best

def batchPickCpu (s : Sched T) (p : T) (tctx : TaskCtx) (homeCpu : Cpu) : Cpu :=
  let (best, isIdle) := s.kernel.selectCpuDfl p homeCpu
  if isIdle = true ∨ s.nrCpuIds ≤ 1 ∨ cfg.stealScan = 0 then best
  else if tctx.lastMigrateAt ≠ 0 ∧
      s.kernel.ktimeGetNs - tctx.lastMigrateAt < migrationCooldownNs then best
  else
    ((List.range (min agentStealScanMax (min cfg.stealScan.toNat (s.nrCpuIds - 1)))).foldl
      (s.scanBatchCpu cfg p homeCpu) (best, s.scaledLoad cfg best)).1

def latencyPickIdleCpu (s : Sched T) (p : T) (prevCpu : Cpu) (fromEnqueue : Bool) : Option Cpu :=
  if !s.kernel.hasSelectCpuAnd then
    if fromEnqueue then none
    else
      let (cpu, isIdle) := s.kernel.selectCpuDfl p prevCpu
      if isIdle then some cpu else none
  else s.kernel.selectCpuAnd p prevCpu

/-- The CPU a direct dispatch goes to, if there is an idle one without local work. -/
def directDispatchCpu (s : Sched T) (p : T) (prevCpu : Cpu) (flags : EnqFlags) : Option Cpu :=
  let wakingAfterSelect := flags.cpuSelected && !s.kernel.taskRunning p
  if !(s.taskShouldKick p flags || wakingAfterSelect || flags.reenq || !s.isCpuIdle prevCpu) then
    none
  else
    let cpu :=
      if s.isPcpuTask p then
        if s.kernel.testAndClearCpuIdle prevCpu then some prevCpu else none
      else s.latencyPickIdleCpu p prevCpu true
    cpu.filter fun cpu => !s.cpuHasLocalWork cpu

def latencyTryDirectDispatch (s : Sched T) (p : T) (prevCpu : Cpu) (flags : EnqFlags) :
    Bool × Sched T :=
  match s.directDispatchCpu p prevCpu flags with
  | none => (false, s)
  | some cpu =>
    match s.rebaseTask cfg p cpu flags.wakeup with
    | (false, s) => (false, s)
    | (true, s) =>
      if s.kernel.dsqInsert p (.localOn cpu) then
        (true, s.updateTask p fun tctx => { tctx with homeCpu := some cpu, state := .dispatched })
      else (false, s)

/-- The previous CPU of a latency task, moved to one the task may run on. -/
def latencyPrevCpu (s : Sched T) (p : T) (prevCpu : Cpu) : Cpu :=
  let task := s.kernel.task p
  if task.cpusPtr prevCpu then prevCpu
  else if task.cpusPtr s.kernel.smpProcessorId then s.kernel.smpProcessorId
  else task.cpumaskFirst

def selectCpu (s : Sched T) (p : T) (prevCpu : Cpu) : Cpu × Sched T :=
  match s.tasks p with
  | none => ((s.kernel.selectCpuDfl p prevCpu).1, s)
  | some tctx =>
    let (prevCpu, s) := s.taskHomeCpu p tctx prevCpu
    match tctx.classId with
    | .batch =>
      let cpu := s.batchPickCpu cfg p tctx prevCpu
      (cpu, if s.taskCpuAllowed p cpu then
          s.updateTask p fun tctx => { tctx with homeCpu := some cpu }
        else s)
    | .latency =>
      let prevCpu := s.latencyPrevCpu p prevCpu
      match s.latencyPickIdleCpu p prevCpu false with
      | none => (prevCpu, s)
      | some cpu =>
        let s := s.updateTask p fun tctx => { tctx with homeCpu := some cpu }
        if s.cpuHasLocalWork cpu then (cpu, s)
        else
          match s.rebaseTask cfg p cpu true with
          | (false, s) => (cpu, s)
          | (true, s) =>
            (cpu, if s.kernel.dsqInsert p .localHere then
                s.updateTask p fun tctx => { tctx with state := .dispatched }
              else s)

/-- The key and slice a task is queued with. -/
def prepareTaskEnqueue (s : Sched T) (p : T) (cpu : Cpu) (wakeup : Bool) :
    Option (UInt64 × UInt64) × Sched T :=
  match s.rebaseTask cfg p cpu wakeup with
  | (false, s) => (none, s)
  | (true, s) =>
    ((s.tasks p).map fun tctx => (tctx.vruntime, match tctx.classId with
      | .latency => cfg.latencySliceNs
      | .batch => if tctx.batchEpochRemainingNs ≠ 0 then tctx.batchEpochRemainingNs
          else cfg.batchMinEpochNs), s)

/-- The end of `enqueue`: the task is recorded as queued, or goes to the global queue. -/
def enqueueClass (s : Sched T) (p : T) (k : WorkloadClass) (cpu : Cpu) (flags : EnqFlags) :
    Sched T :=
  let s := if (s.classes k).nrQueued = 0 ∧ (s.classes k).nrRunning = 0 then s.activateClass cfg k
    else s
  match s.prepareTaskEnqueue cfg p cpu flags.wakeup with
  | (none, s) => s
  | (some (key, _), s) =>
    let s := s.updateTask p fun tctx => { tctx with state := .enqueued, queuedCpu := some cpu }
    let s := s.updateClass k fun cctx => { cctx with nrQueued := cctx.nrQueued + 1 }
    let s := s.cpuQueueInc cfg cpu k
    if s.kernel.dsqInsertVtime p (.classDsq k cpu) then
      let s := s.arbitrateLockedCpu cfg cpu none (some (k, key))
      if s.taskShouldKick p flags then s.kickCpu cpu else s
    else (s.taskQueueDec p).updateTask p fun tctx => { tctx with state := .none }

def enqueue (s : Sched T) (p : T) (flags : EnqFlags) : Sched T :=
  match s.tasks p with
  | none => s
  | some _ =>
    let s := s.reconcileBeforeEnqueue p
    let s := (s.refreshTaskClass cfg p false).2
    match s.tasks p with
    | none => s
    | some tctx =>
      let cpu := s.kernel.taskCpu p
      let s := if !s.homeAllowed p tctx.homeCpu && s.taskCpuAllowed p cpu then
          s.updateTask p fun tctx => { tctx with homeCpu := some cpu }
        else s
      if !s.taskCpuAllowed p cpu then s
      else
        match tctx.classId with
        | .latency =>
          match s.latencyTryDirectDispatch cfg p cpu flags with
          | (true, s) => s
          | (false, s) => s.enqueueClass cfg p .latency cpu flags
        | .batch => s.enqueueClass cfg p .batch cpu flags

def dequeue (s : Sched T) (p : T) (flags : DeqFlags) : Sched T :=
  match s.tasks p with
  | none => s
  | some tctx =>
    if tctx.state = .enqueued then
      (s.taskQueueDec p).updateTask p fun tctx =>
        { tctx with state :=
            if flags.sleep || flags.coreSchedExec || flags.schedChange then .none else .dispatched }
    else if flags.schedChange then s.updateTask p fun tctx => { tctx with state := .none }
    else s

/-- The time a task has run since it was last charged. -/
def elapsedRun (s : Sched T) (tctx : TaskCtx) : UInt64 :=
  let now := s.kernel.ktimeGetNs
  if now > tctx.lastRunAt then now - tctx.lastRunAt else 0

/-- Whether the head of the task's own queue comes first. -/
def headDenies (s : Sched T) (cpu : Cpu) (p : T) (tctx : TaskCtx) : Bool :=
  let task := s.kernel.task p
  let currentVruntime := tctx.vruntime + task.scaleByTaskWeightInverse (s.elapsedRun tctx)
  match s.dsqHeadVruntime (.classDsq tctx.classId cpu) with
  | none => false
  | some headVruntime =>
    match tctx.classId with
    | .latency => timeBefore headVruntime currentVruntime
    | .batch => (currentVruntime - headVruntime).toInt64 >
        (task.scaleByTaskWeightInverse cfg.batchPreemptGranularityNs).toInt64

def keepLatency (s : Sched T) (cpu : Cpu) (p : T) (tctx : TaskCtx) (workConserving : Bool) :
    Bool × Sched T :=
  let elapsed := s.elapsedRun tctx
  let used := if u64Max - tctx.latencyBurstUsedNs < elapsed then u64Max
    else tctx.latencyBurstUsedNs + elapsed
  if used ≥ cfg.latencyBurstBudgetNs ∧ workConserving = false then (false, s)
  else
    let slice := if used < cfg.latencyBurstBudgetNs then cfg.latencyBurstBudgetNs - used
      else cfg.latencySliceNs
    let slice := if slice = 0 ∨ slice > cfg.latencySliceNs then cfg.latencySliceNs else slice
    (true, (s.taskSetSlice p slice).arbitrateLockedCpu cfg cpu (some p) none)

/-- A batch task whose epoch is used up is charged and starts another one in place. -/
def renewBatch (s : Sched T) (cpu : Cpu) (p : T) (elapsed : UInt64) : Bool × Sched T :=
  match s.chargeRuntime cfg p cpu elapsed true with
  | (false, s) => (false, s)
  | (true, s) =>
    let now := s.kernel.ktimeGetNs
    let s := s.updateCpu cpu fun cpuc => { cpuc with runningSince := now }
    let s := s.updateTask p fun tctx => { tctx with lastRunAt := now }
    match s.tasks p with
    | none => (false, s)
    | some tctx =>
      let s := s.updateEntity cpu .batch fun entity =>
        { entity with taskVtime := vtimeSetMax entity.taskVtime tctx.vruntime }
      let (slice, tctx) := batchStartEpoch cfg tctx (s.cpus cpu) false
      let s := s.updateTask p fun _ => tctx
      if slice = 0 then (false, s)
      else (true, (s.taskSetSlice p slice).arbitrateLockedCpu cfg cpu (some p) none)

def keepBatch (s : Sched T) (cpu : Cpu) (p : T) (tctx : TaskCtx) (workConserving : Bool) :
    Bool × Sched T :=
  let elapsed := s.elapsedRun tctx
  let remaining := tctx.batchEpochRemainingNs
  if remaining > elapsed then
    (true, (s.taskSetSlice p (remaining - elapsed)).arbitrateLockedCpu cfg cpu (some p) none)
  else if (s.dsqHeadVruntime (.classDsq tctx.classId cpu)).isSome = true ∧
      workConserving = false then (false, s)
  else s.renewBatch cfg cpu p elapsed

def tryKeepRunning (s : Sched T) (cpu : Cpu) (prev : Option T) (workConserving : Bool) :
    Bool × Sched T :=
  match s.lookupCpuCtx cpu, prev with
  | some _, some p =>
    if !(s.kernel.task p).queuedFlag || (s.kernel.task p).slice != 0 then (false, s)
    else
      match s.tasks p with
      | none => (false, s)
      | some tctx =>
        if tctx.lastRunAt = 0 ∨ tctx.runningCpu ≠ some cpu then (false, s)
        else if s.kernel.rulesSeq ≠ tctx.seenRulesSeq then (false, s)
        else if s.headDenies cfg cpu p tctx = true ∧ workConserving = false then (false, s)
        else
          match tctx.classId with
          | .latency => s.keepLatency cfg cpu p tctx workConserving
          | .batch => s.keepBatch cfg cpu p tctx workConserving
  | _, _ => (false, s)

/-- The class of the previous task, if it can go on running on the CPU. -/
def currentClass (s : Sched T) (cpu : Cpu) (prev : Option T) : Option WorkloadClass :=
  match prev with
  | none => none
  | some p =>
    if (s.kernel.task p).queuedFlag then
      (s.tasks p).bind fun tctx => if tctx.runningCpu = some cpu then some tctx.classId else none
    else none

/-- Tries the class queues of the CPU in order; says whether a task was moved and whether a claim
was busy. -/
def dispatchLocal (s : Sched T) (cpu : Cpu) :
    List (WorkloadClass × UInt64) → Bool × Bool × Sched T
  | [] => (false, false, s)
  | (k, maxSlice) :: rest =>
    match s.dispatchLocalClaimed cfg cpu k maxSlice with
    | (true, busy, s) => (true, busy, s)
    | (false, busy, s) =>
      let (moved, laterBusy, s) := s.dispatchLocal cpu rest
      (moved, busy || laterBusy, s)

/-- The attempts for the winner and the fallback of a decision, restricted to the classes that
`keep` admits. -/
def attempts (decision : ClassDecision) (keep : WorkloadClass → Bool) :
    List (WorkloadClass × UInt64) :=
  ((decision.winner.toList.map fun k => (k, decision.runForNs)) ++
    (decision.fallback.toList.map fun k => (k, u64Max))).filter fun attempt => keep attempt.1

/-- The queues of the CPU, once in the order of the decision and again for the classes that still
have work. -/
def dispatchOwn (s : Sched T) (cpu : Cpu) (decision : ClassDecision) : Bool × Bool × Sched T :=
  match s.dispatchLocal cfg cpu (attempts decision fun _ => true) with
  | (true, busy, s) => (true, busy, s)
  | (false, busy, s) =>
    let (moved, laterBusy, s) := s.dispatchLocal cfg cpu (attempts decision (s.localAvailable cpu))
    (moved, busy || laterBusy, s)

/-- Steals from the classes in order until a task was moved. -/
def stealAny (s : Sched T) (cpu : Cpu) : List WorkloadClass → Sched T
  | [] => s
  | k :: rest =>
    match s.gatedSteal cfg cpu k with
    | (true, s) => s
    | (false, s) => s.stealAny cpu rest

/-- The end of `dispatch`: keep the previous task, wait for a busy claim, or steal. -/
def dispatchRest (s : Sched T) (cpu : Cpu) (prev : Option T) (current : Option WorkloadClass)
    (claimBusy : Bool) : Sched T :=
  let (kept, s) := if current.isSome then s.tryKeepRunning cfg cpu prev true else (false, s)
  if kept then s
  else if s.localAvailable cpu .latency || s.localAvailable cpu .batch then
    if claimBusy then s.kickCpu cpu else s
  else
    let (first, second, s) := s.pickRemoteClass cfg cpu
    s.stealAny cfg cpu (first.toList ++ second.toList)

def dispatch (s : Sched T) (cpu : Cpu) (prev : Option T) : Sched T :=
  match s.lookupCpuCtx cpu with
  | none => s
  | some cpuc =>
    let current := s.currentClass cpu prev
    let available := fun k => s.localAvailable cpu k || current = some k
    let decision := decideClass cfg cpuc s.kernel.ktimeGetNs ⟨available, current⟩
    match decision.winner with
    | none => s.dispatchRest cfg cpu prev current false
    | some winner =>
      let (kept, s) := if current = some winner then s.tryKeepRunning cfg cpu prev false
        else (false, s)
      if kept then s
      else
        match s.dispatchOwn cfg cpu decision with
        | (true, _, s) => s
        | (false, busy, s) => s.dispatchRest cfg cpu prev current busy

def advanceTaskVtime (s : Sched T) (cpu : Cpu) (k : WorkloadClass) (taskVruntime : UInt64) :
    Sched T :=
  let frontier := match s.dsqHeadVruntime (.classDsq k cpu) with
    | some headVruntime => if timeBefore headVruntime taskVruntime then headVruntime else taskVruntime
    | none => taskVruntime
  s.updateEntity cpu k fun entity =>
    { entity with taskVtime := vtimeSetMax entity.taskVtime frontier }

/-- The slice a task starts its run with. -/
def startSlice (s : Sched T) (p : T) (cpu : Cpu) : Sched T :=
  match s.tasks p with
  | none => s
  | some tctx =>
    let current := (s.kernel.task p).slice
    match tctx.classId with
    | .batch =>
      let (grant, tctx) := batchStartEpoch cfg tctx (s.cpus cpu) true
      let s := s.updateTask p fun _ => tctx
      let slice := if grant = 0 then cfg.batchMinEpochNs else grant
      if current = 0 ∨ current > slice then s.taskSetSlice p slice else s
    | .latency => if current = 0 then s.taskSetSlice p cfg.latencySliceNs else s

/-- The records `running` makes of the task and its CPU. -/
def recordRunning (s : Sched T) (p : T) (cpu : Cpu) (k : WorkloadClass) : Sched T :=
  let now := s.kernel.ktimeGetNs
  let s := s.updateTask p fun tctx =>
    { tctx with
      lastMigrateAt := if tctx.lastCpu.any (· ≠ cpu) then now else tctx.lastMigrateAt
      homeCpu := if s.homeAllowed p tctx.homeCpu then tctx.homeCpu else some cpu
      lastCpu := some cpu
      runningCpu := some cpu
      queuedCpu := none
      state := .none
      lastRunAt := now }
  let vruntime := match s.tasks p with
    | some tctx => tctx.vruntime
    | none => 0
  let s := s.updateCpu cpu fun cpuc =>
    { cpuc.updateEntity k fun entity =>
        { entity with
          taskVtime := vtimeSetMax entity.taskVtime vruntime
          nrRunning := entity.nrRunning + 1 } with
      runningSince := now
      runningClass := some k }
  s.updateClass k fun cctx => { cctx with nrRunning := cctx.nrRunning + 1 }

def running (s : Sched T) (p : T) : Sched T :=
  match s.tasks p with
  | none => s
  | some tctx =>
    let k := tctx.classId
    let cpu := s.kernel.taskCpu p
    match s.lookupCpuCtx cpu with
    | none => s
    | some _ =>
      -- core scheduling may take a task out of a class queue without a dispatch
      let s := if tctx.queueOwned then s.taskQueueDec p else s
      let s := (s.rebaseTask cfg p cpu false).2
      let s := s.startSlice cfg p cpu
      let s := if (s.classes k).nrQueued = 0 ∧ (s.classes k).nrRunning = 0 then
          s.activateClass cfg k
        else s
      (s.recordRunning p cpu k).arbitrateLockedCpu cfg cpu (some p) none

/-- The end of `stopping`: the run is taken out of the counters and of the task. -/
def recordStopped (s : Sched T) (p : T) (cpu : Cpu) (k : WorkloadClass) : Sched T :=
  let s := (s.updateEntity cpu k fun entity =>
    { entity with nrRunning := entity.nrRunning - 1 }).noteUnderflow ((s.cpus cpu).entity k).nrRunning
  let s := (s.updateClass k fun cctx =>
    { cctx with nrRunning := cctx.nrRunning - 1 }).noteUnderflow (s.classes k).nrRunning
  s.updateTask p fun tctx => { tctx with lastRunAt := 0, runningCpu := none }

def stopping (s : Sched T) (p : T) (runnable : Bool) : Sched T :=
  match s.tasks p with
  | none => s
  | some tctx =>
    if tctx.lastRunAt = 0 then s
    else
      let k := tctx.classId
      match tctx.runningCpu.filter (· < s.nrCpuIds) with
      | none => s
      | some cpu =>
        let now := s.kernel.ktimeGetNs
        let runtime := if now > tctx.lastRunAt then now - tctx.lastRunAt else 1
        let s := s.updateCpu cpu fun cpuc => { cpuc with runningClass := none, runningSince := 0 }
        let s := (s.chargeRuntime cfg p cpu runtime runnable).2
        let vruntime := match s.tasks p with
          | some tctx => tctx.vruntime
          | none => 0
        let s := s.advanceTaskVtime cpu k vruntime
        let s := if k = .batch ∧ runnable = false then s.updateTask p (resetBatchEpoch cfg) else s
        s.recordStopped p cpu k

def runnable (s : Sched T) (p : T) (flags : EnqFlags) : Sched T :=
  match s.tasks p with
  | none => s
  | some _ =>
    let s := (s.refreshTaskClass cfg p true).2
    s.updateTask p fun tctx =>
      if tctx.classId = .latency ∧ flags.wakeup = true then { tctx with latencyBurstUsedNs := 0 }
      else tctx

/-- What `quiescent` keeps of a task that goes to sleep. -/
def sleepTask (s : Sched T) (p : TaskStruct) (tctx : TaskCtx) : TaskCtx :=
  match tctx.classId with
  | .latency => latencySaveSleepVlag cfg s p tctx
  | .batch => resetBatchEpoch cfg tctx

def quiescent (s : Sched T) (p : T) (flags : DeqFlags) : Sched T :=
  match s.tasks p with
  | none => s
  | some tctx =>
    let s := if tctx.state = .enqueued then s.taskQueueDec p else s
    let s := if flags.sleep then s.updateTask p (s.sleepTask cfg (s.kernel.task p)) else s
    s.updateTask p fun tctx => { tctx with state := .none, queuedCpu := none }

end Sched

/-- `reset_task_state`; the context it leaves does not depend on the one before. -/
def resetTaskState : TaskCtx where
  vruntime := 0
  lastRunAt := 0
  lastMigrateAt := 0
  latencyBurstUsedNs := 0
  batchEpochTargetNs := cfg.batchMinEpochNs
  batchEpochRemainingNs := 0
  sleepVlag := 0
  seenRulesSeq := u64Max
  classifiedComm := fun _ => 0
  lastCpu := none
  homeCpu := none
  vtimeCpu := none
  queuedCpu := none
  runningCpu := none
  classId := cfg.sanitizeClass cfg.defaultClass
  hasSleepVlag := false
  state := .none

namespace Sched

def enable (s : Sched T) (p : T) : Sched T :=
  match s.tasks p with
  | none => s
  | some tctx =>
    let s := if tctx.state = .enqueued then s.taskQueueDec p else s
    let s := s.updateTask p fun _ => resetTaskState cfg
    (s.refreshTaskClass cfg p true).2

def disable (s : Sched T) (p : T) : Sched T :=
  match s.tasks p with
  | none => s
  | some tctx =>
    let s := if tctx.state = .enqueued then s.taskQueueDec p else s
    s.updateTask p fun tctx =>
      { resetBatchEpoch cfg tctx with vtimeCpu := none, state := .none, queuedCpu := none }

/-- `init_task`; `created` says whether the kernel had memory for the context. -/
def initTask (s : Sched T) (p : T) (created : Bool) : Sched T :=
  if (s.tasks p).isNone && !created then s
  else
    let s := { s with tasks := Function.update s.tasks p (some (resetTaskState cfg)) }
    (s.refreshTaskClass cfg p true).2

end Sched

section Rules

variable {cfg : Config} {s : Sched T} {cpu : Cpu} {P : Sched T → Prop}

/-- What every move of `dispatch_from_cpu` keeps, and taking and giving back the claim for it. -/
structure KeptByMoves (cfg : Config) (cpu : Cpu) (P : Sched T → Prop) : Prop where
  cursor : ∀ {s} (cursor : UInt64), P s → P { s with stealCursor := cursor }
  acquired : ∀ {s s' srcCpu claim}, s.acquireSourceClaim srcCpu claim = some s' → P s → P s'
  released : ∀ {s} srcCpu claim, P s → P (s.releaseSourceClaim srcCpu claim)
  moved : ∀ {s} srcCpu k remote maxSlice, P s →
    P (s.dispatchFromCpu cfg cpu srcCpu k remote maxSlice).2

namespace KeptByMoves

variable (hP : KeptByMoves cfg cpu P)

include hP

theorem dispatchLocalClaimed (h : P s) (k : WorkloadClass) (maxSlice : UInt64) :
    P (s.dispatchLocalClaimed cfg cpu k maxSlice).2.2 := by
  unfold Sched.dispatchLocalClaimed
  split
  · exact h
  · split
    · exact h
    · rename_i hclaim
      exact hP.released _ _ (hP.moved _ _ _ _ (hP.acquired hclaim h))

theorem gatedSteal (h : P s) (k : WorkloadClass) : P (s.gatedSteal cfg cpu k).2 := by
  unfold Sched.gatedSteal
  split_ifs
  · exact h
  · exact h
  · dsimp only
    split
    · exact hP.cursor _ h
    · split
      · exact hP.cursor _ h
      · rename_i hclaim
        have hclaimed := hP.acquired hclaim (hP.cursor _ h)
        split_ifs
        · exact hP.released _ _ hclaimed
        · exact hP.released _ _ (hP.moved _ _ _ _ hclaimed)

theorem dispatchLocal (h : P s) (attempts : List (WorkloadClass × UInt64)) :
    P (s.dispatchLocal cfg cpu attempts).2.2 := by
  induction attempts generalizing s with
  | nil => exact h
  | cons attempt rest ih =>
    obtain ⟨k, maxSlice⟩ := attempt
    have hclaimed := hP.dispatchLocalClaimed h k maxSlice
    unfold Sched.dispatchLocal
    generalize s.dispatchLocalClaimed cfg cpu k maxSlice = claimed at hclaimed ⊢
    obtain ⟨moved, busy, s₁⟩ := claimed
    cases moved with
    | true => exact hclaimed
    | false => exact ih hclaimed

theorem dispatchOwn (h : P s) (decision : ClassDecision) :
    P (s.dispatchOwn cfg cpu decision).2.2 := by
  unfold Sched.dispatchOwn
  have hfirst := hP.dispatchLocal h (Sched.attempts decision fun _ => true)
  generalize s.dispatchLocal cfg cpu (Sched.attempts decision fun _ => true) = first at hfirst ⊢
  obtain ⟨moved, busy, s₁⟩ := first
  cases moved with
  | true => exact hfirst
  | false => exact hP.dispatchLocal hfirst _

theorem stealAny (h : P s) (classes : List WorkloadClass) : P (s.stealAny cfg cpu classes) := by
  induction classes generalizing s with
  | nil => exact h
  | cons k rest ih =>
    have hstolen := hP.gatedSteal h k
    unfold Sched.stealAny
    generalize s.gatedSteal cfg cpu k = stolen at hstolen ⊢
    obtain ⟨moved, s₁⟩ := stolen
    cases moved with
    | true => exact hstolen
    | false => exact ih hstolen

end KeptByMoves

end Rules

end ScxAgent.Scheduler
