import ScxAgent.Scheduler.QueueRecords

/-!
# Slices, dispatch and stealing

How a CPU arbitrates between its classes, caps the slice of its current task, and takes the next
task from its own class queues or from those of another CPU.
-/

namespace ScxAgent.Scheduler

variable {T : Type} [DecidableEq T] (cfg : Config)

namespace Sched

def topologyTier (s : Sched T) (dstCpu srcCpu : Cpu) : ℕ :=
  match s.lookupCpuTopology dstCpu, s.lookupCpuTopology srcCpu with
  | some dst, some src =>
    if dst.capacity = 0 ∨ src.capacity = 0 then 2
    else if dst.llcId = src.llcId then 0
    else if dst.nodeId = src.nodeId then 1
    else 2
  | _, _ => 2

def topologyMigrationCost (s : Sched T) (dstCpu srcCpu : Cpu) : UInt64 :=
  match s.topologyTier dstCpu srcCpu with
  | 0 => cfg.sameLlcMigrationCostNs
  | 1 => cfg.sameNodeMigrationCostNs
  | _ => cfg.remoteNodeMigrationCostNs

def capacityScaleLoad (s : Sched T) (cpu : Cpu) (load : UInt64) : UInt64 :=
  let capacity := match s.lookupCpuTopology cpu with
    | some topo => topo.capacity.toUInt64
    | none => 0
  let capacity := if capacity = 0 then 1024 else capacity
  if load > u64Max / 1024 then u64Max else load * 1024 / capacity

def dsqNrQueued (s : Sched T) (dsq : DsqId) : ℕ := (s.kernel.dsq dsq).length

def localAvailable (s : Sched T) (cpu : Cpu) (k : WorkloadClass) : Bool :=
  s.dsqNrQueued (.classDsq k cpu) > 0

/-- The class in progress on a CPU counts as available when `include_current` is set. -/
def inProgress (cpuc : CpuCtx) (k : WorkloadClass) : Bool :=
  cpuc.runningClass = some k && cpuc.runningSince != 0

def dsqHeadVruntime (s : Sched T) (dsq : DsqId) : Option UInt64 :=
  (s.kernel.dsq dsq).head?.map fun head => (s.kernel.task head).dsqVtime

def taskMatchesRun (s : Sched T) (cpuc : CpuCtx) (cpu : Cpu) (p : Option T) : Bool :=
  match p with
  | none => false
  | some p =>
    if (s.kernel.task p).idleFlag || cpuc.runningSince == 0 then false
    else match cpuc.runningClass, s.tasks p with
      | some k, some tctx => tctx.runningCpu = some cpu && tctx.classId = k
      | _, _ => false

/-- Whether the task matches the run in progress, whether its slice was shortened, and the state
afterwards. -/
def capTaskSlice (s : Sched T) (cpuc : CpuCtx) (cpu : Cpu) (curr : Option T)
    (maxRuntime : UInt64) : Bool × Bool × Sched T :=
  match curr with
  | none => (false, false, s)
  | some p =>
    if !s.taskMatchesRun cpuc cpu curr then (false, false, s)
    else if (s.kernel.task p).slice > maxRuntime then (true, true, s.taskSetSlice p maxRuntime)
    else (true, false, s)

def capCpuSlice (s : Sched T) (cpuc : CpuCtx) (cpu : Cpu) (curr : Option T)
    (maxRuntime : UInt64) : Bool × Sched T :=
  if maxRuntime = u64Max then (true, s)
  else
    let (valid, shortened, s) :=
      s.capTaskSlice cpuc cpu (curr.or (s.kernel.cpuCurr cpu)) maxRuntime
    if maxRuntime = 0 then (valid && shortened, if valid && shortened then s.kickCpu cpu else s)
    else (valid, s)

/-- The head of the batch queue, or the incoming batch task if it comes before the head. -/
def batchHead (s : Sched T) (cpu : Cpu) (incoming : Option (WorkloadClass × UInt64)) :
    Option UInt64 :=
  match s.dsqHeadVruntime (.classDsq .batch cpu), incoming with
  | none, some (.batch, vruntime) => some vruntime
  | some head, some (.batch, vruntime) => some (if timeBefore vruntime head then vruntime else head)
  | head, _ => head

def batchHandoffBudget (s : Sched T) (cpuc : CpuCtx) (cpu : Cpu) (now : UInt64)
    (incoming : Option (WorkloadClass × UInt64)) : UInt64 :=
  if cpuc.runningClass ≠ some .batch ∨ cpuc.runningSince = 0 then u64Max
  else
    match s.batchHead cpu incoming, s.kernel.cpuCurr cpu with
    | some headVruntime, some curr =>
      match s.tasks curr with
      | none => u64Max
      | some tctx =>
        let task := s.kernel.task curr
        if task.idleFlag = true ∨ tctx.classId ≠ .batch ∨ tctx.runningCpu ≠ some cpu then u64Max
        else
          let elapsed := if now > cpuc.runningSince then now - cpuc.runningSince else 0
          let currentVruntime := tctx.vruntime + task.scaleByTaskWeightInverse elapsed
          let granularity := task.scaleByTaskWeightInverse cfg.batchPreemptGranularityNs
          if (currentVruntime - headVruntime).toInt64 ≤ granularity.toInt64 then u64Max
          else if elapsed < cfg.batchMinRunNs then cfg.batchMinRunNs - elapsed
          else 0
    | _, _ => u64Max

/-- The continuation of `arbitrate_locked_cpu` when the current class has won. -/
def capWinner (s : Sched T) (cpuc : CpuCtx) (cpu : Cpu) (curr : Option T) (now : UInt64)
    (incoming : Option (WorkloadClass × UInt64)) (budget : UInt64) : Sched T :=
  if cpuc.runningClass = some .batch then
    let batchBudget := s.batchHandoffBudget cfg cpuc cpu now incoming
    if batchBudget = 0 then (s.capCpuSlice cpuc cpu curr 0).2
    else (s.capCpuSlice cpuc cpu curr (if batchBudget < budget then batchBudget else budget)).2
  else (s.capCpuSlice cpuc cpu curr budget).2

def arbitrateLockedCpu (s : Sched T) (cpu : Cpu) (curr : Option T)
    (incoming : Option (WorkloadClass × UInt64)) : Sched T :=
  match s.lookupCpuCtx cpu with
  | none => s
  | some cpuc =>
    let now := s.kernel.ktimeGetNs
    let available := fun k => s.localAvailable cpu k || inProgress cpuc k ||
      (incoming.map Prod.fst) = some k
    let decision := decideClass cfg cpuc now ⟨available, cpuc.runningClass⟩
    match decision.winner with
    | none => s
    | some winner =>
      if cpuc.runningClass ≠ some winner then (s.capCpuSlice cpuc cpu curr 0).2
      else s.capWinner cfg cpuc cpu curr now incoming decision.runForNs

def cpuHasLocalWork (s : Sched T) (cpu : Cpu) : Bool :=
  match s.lookupCpuCtx cpu with
  | none => true
  | some cpuc =>
    s.dsqNrQueued (.localOn cpu) > 0 ||
      (cpuc.entity .latency).nrQueued != 0 || (cpuc.entity .batch).nrQueued != 0 ||
      (cpuc.entity .latency).nrRunning != 0 || (cpuc.entity .batch).nrRunning != 0

/-- The checks `dispatch_from_cpu` makes of a queued task before it moves it. -/
def movable (s : Sched T) (dstCpu srcCpu : Cpu) (k : WorkloadClass) (remote : Bool) (p : T) : Bool :=
  s.kernel.taskFromPid p && (s.kernel.task p).cpusPtr dstCpu &&
    match s.tasks p with
    | none => false
    | some tctx =>
      tctx.classId = k && tctx.queuedCpu = some srcCpu && tctx.state = .enqueued &&
        !(remote && tctx.lastMigrateAt != 0 &&
          s.kernel.ktimeGetNs - tctx.lastMigrateAt < migrationCooldownNs)

/-- `scx_bpf_dsq_move` of a task to the local queue of a CPU, with the slice set for it. -/
def dsqMoveLocal (s : Sched T) (p : T) (src : DsqId) (dstCpu : Cpu) (slice : UInt64) : Sched T :=
  let s := s.taskSetSlice p slice
  let taken := Function.update s.kernel.dsq src ((s.kernel.dsq src).filter (· ≠ p))
  let dsq := Function.update taken (.localOn dstCpu) (s.kernel.dsq (.localOn dstCpu) ++ [p])
  { s with kernel := { s.kernel with dsq := dsq } }

/-- The slice a task is moved with; granting a batch epoch is recorded even if the move fails. -/
def dispatchSlice (s : Sched T) (p : T) (src : CpuCtx) (k : WorkloadClass) (maxSlice : UInt64) :
    UInt64 × Sched T :=
  let (slice, s) := match k, s.tasks p with
    | .batch, some tctx =>
      let (grant, tctx) := batchStartEpoch cfg tctx src false
      (grant, s.updateTask p fun _ => tctx)
    | _, _ => (cfg.latencySliceNs, s)
  let slice := if slice = 0 then cfg.classSlice k else slice
  (if maxSlice < slice then (if maxSlice = 0 then 1 else maxSlice) else slice, s)

/-- What `dispatch_from_cpu` records about a task it has moved. -/
def recordMoved (s : Sched T) (p : T) (dstCpu : Cpu) (k : WorkloadClass) (remote : Bool) :
    Sched T :=
  let s := s.taskQueueDec p
  let s := if remote then (s.rebaseTask cfg p dstCpu false).2 else s
  let vruntime := match s.tasks p with
    | some tctx => tctx.vruntime
    | none => 0
  let s := s.updateEntity dstCpu k fun entity =>
    { entity with taskVtime := vtimeSetMax entity.taskVtime vruntime }
  s.updateTask p fun tctx =>
    { tctx with homeCpu := if remote then some dstCpu else tctx.homeCpu, state := .dispatched }

def dispatchFromCpu (s : Sched T) (dstCpu srcCpu : Cpu) (k : WorkloadClass) (remote : Bool)
    (maxSlice : UInt64) : Bool × Sched T :=
  match s.lookupCpuCtx dstCpu, s.lookupCpuCtx srcCpu with
  | some _, some src =>
    match (s.kernel.dsq (.classDsq k srcCpu)).find? (s.movable dstCpu srcCpu k remote) with
    | none => (false, s)
    | some p =>
      let (slice, s) := s.dispatchSlice cfg p src k maxSlice
      if s.kernel.dsqMove p (.localOn dstCpu) then
        (true, (s.dsqMoveLocal p (.classDsq k srcCpu) dstCpu slice).recordMoved cfg p dstCpu k remote)
      else (false, s)
  | _, _ => (false, s)

def cpuQueuedLoad (cpuc : CpuCtx) : UInt64 :=
  (UInt64.ofNat (cpuc.entity .latency).nrQueued + UInt64.ofNat (cpuc.entity .latency).nrRunning) *
      cfg.latencySliceNs +
    (UInt64.ofNat (cpuc.entity .batch).nrQueued + UInt64.ofNat (cpuc.entity .batch).nrRunning) *
      cfg.batchMinEpochNs

/-- The load of a CPU relative to its capacity; a CPU without context is full. -/
def scaledLoad (s : Sched T) (cpu : Cpu) : UInt64 :=
  s.capacityScaleLoad cpu (match s.lookupCpuCtx cpu with
    | some cpuc => cpuQueuedLoad cfg cpuc
    | none => u64Max)

def cpuRunnableCount (cpuc : CpuCtx) : ℕ :=
  (cpuc.entity .latency).nrQueued + (cpuc.entity .latency).nrRunning +
    (cpuc.entity .batch).nrQueued + (cpuc.entity .batch).nrRunning

def localClaim (cpu : Cpu) : UInt64 := (UInt64.ofNat cpu + 1) <<< 32 ||| 1

def stealClaimOf (cpu : Cpu) : UInt64 := (UInt64.ofNat cpu + 1) <<< 32 ||| 2

/-- `acquire_source_claim`: `none` if somebody holds the claim. -/
def acquireSourceClaim (s : Sched T) (cpu : Cpu) (claim : UInt64) : Option (Sched T) :=
  if (s.cpus cpu).stealClaim = 0 then
    some (s.updateCpu cpu fun cpuc => { cpuc with stealClaim := claim })
  else none

def releaseSourceClaim (s : Sched T) (cpu : Cpu) (claim : UInt64) : Sched T :=
  if (s.cpus cpu).stealClaim = claim then
    s.updateCpu cpu fun cpuc => { cpuc with stealClaim := 0 }
  else s

/-- Whether a task was moved, whether the claim was busy, and the state afterwards. -/
def dispatchLocalClaimed (s : Sched T) (cpu : Cpu) (k : WorkloadClass) (maxSlice : UInt64) :
    Bool × Bool × Sched T :=
  match s.lookupCpuCtx cpu with
  | none => (false, false, s)
  | some _ =>
    match s.acquireSourceClaim cpu (localClaim cpu) with
    | none => (false, true, s)
    | some s =>
      let (moved, s) := s.dispatchFromCpu cfg cpu cpu k false maxSlice
      (moved, false, s.releaseSourceClaim cpu (localClaim cpu))

/-- The queue and load-gap tests `gated_steal` makes of a source, with the surplus they leave. -/
def stealSurplus (s : Sched T) (dstCpu srcCpu : Cpu) (k : WorkloadClass) : Option UInt64 :=
  match s.lookupCpuCtx srcCpu with
  | none => none
  | some src =>
    if (src.entity k).nrQueued = 0 ∨ cpuRunnableCount src < 2 then none
    else if s.dsqNrQueued (.classDsq k srcCpu) = 0 then none
    else
      let srcLoad := s.scaledLoad cfg srcCpu
      let dstLoad := s.scaledLoad cfg dstCpu
      let requiredGap := cfg.classSlice k + s.topologyMigrationCost cfg dstCpu srcCpu
      if srcLoad ≤ dstLoad ∨ srcLoad - dstLoad < requiredGap then none
      else some (srcLoad - dstLoad - requiredGap)

/-- The best source found so far: the CPU, its tier and its surplus. -/
abbrev StealChoice := Option (Cpu × ℕ × UInt64)

def scanSource (s : Sched T) (dstCpu : Cpu) (k : WorkloadClass) (best : StealChoice)
    (srcCpu : Cpu) : StealChoice :=
  let tier := s.topologyTier dstCpu srcCpu
  let bestTier := match best with
    | some (_, tier, _) => tier
    | none => 3
  if tier > bestTier then best
  else
    match s.stealSurplus cfg dstCpu srcCpu k, best with
    | none, _ => best
    | some surplus, none => some (srcCpu, tier, surplus)
    | some surplus, some (_, bestTier, bestSurplus) =>
      if tier < bestTier ∨ (tier = bestTier ∧ surplus > bestSurplus) then some (srcCpu, tier, surplus)
      else best

/-- The CPUs one scan visits, in order. -/
def scanned (s : Sched T) (dstCpu : Cpu) (cursor : UInt64) : List Cpu :=
  (List.range (min agentStealScanMax (min cfg.stealScan.toNat (s.nrCpuIds - 1)))).map fun i =>
    (dstCpu + 1 + ((cursor + UInt64.ofNat i) % UInt64.ofNat (s.nrCpuIds - 1)).toNat) % s.nrCpuIds

def gatedSteal (s : Sched T) (dstCpu : Cpu) (k : WorkloadClass) : Bool × Sched T :=
  if ¬ dstCpu < s.nrCpuIds ∨ s.nrCpuIds ≤ 1 ∨ cfg.stealScan = 0 then (false, s)
  else if s.cpuHasLocalWork dstCpu then (false, s)
  else
    let cursor := s.stealCursor
    let s := { s with stealCursor := cursor + 1 }
    match (s.scanned cfg dstCpu cursor).foldl (s.scanSource cfg dstCpu k) none with
    | none => (false, s)
    | some (bestCpu, _, _) =>
      match s.acquireSourceClaim bestCpu (stealClaimOf dstCpu) with
      | none => (false, s)
      | some s =>
        -- the sampled surplus is checked again under the claim
        if s.cpuHasLocalWork dstCpu ∨ s.stealSurplus cfg dstCpu bestCpu k = none then
          (false, s.releaseSourceClaim bestCpu (stealClaimOf dstCpu))
        else
          let (moved, s) := s.dispatchFromCpu cfg dstCpu bestCpu k true u64Max
          (moved, s.releaseSourceClaim bestCpu (stealClaimOf dstCpu))

/-- The class to steal first and the one to try after it. -/
def pickRemoteClass (s : Sched T) (cpu : Cpu) :
    Option WorkloadClass × Option WorkloadClass × Sched T :=
  let latQueued : Bool := (s.classes .latency).nrQueued > 0
  let batchQueued : Bool := (s.classes .batch).nrQueued > 0
  let first := classWinner cfg (s.classes .latency).vruntime (s.classes .batch).vruntime
  let s := if latQueued then s.updateCpu cpu (activateCpuClass cfg .latency) else s
  let s := if batchQueued then s.updateCpu cpu (activateCpuClass cfg .batch) else s
  match latQueued, batchQueued with
  | false, false => (none, none, s)
  | true, false => (some .latency, none, s)
  | false, true => (some .batch, none, s)
  | true, true => (some first, some first.other, s)

end Sched

end ScxAgent.Scheduler
