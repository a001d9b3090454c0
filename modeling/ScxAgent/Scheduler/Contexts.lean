import ScxAgent.Scheduler.Policy

/-!
# Scheduler state

The contexts the scheduler keeps for tasks, CPUs and classes, and the kernel it runs in: what the
`scx_bpf_*` helpers answer and the fields of `task_struct` that the callbacks read. A negative CPU
number of the source is `none`; a class field holds one of the two classes, since every write of
one goes through `sanitize_class`. Event counters that nothing reads are left out.
-/

namespace ScxAgent.Scheduler

abbrev Cpu := ℕ

/-- A command name of `AGENT_COMM_LEN` bytes. -/
abbrev RuleKey := Fin 16 → UInt8

inductive TaskState where
  | none
  | enqueued
  | dispatched
  deriving DecidableEq, Repr

structure TaskCtx where
  vruntime : UInt64
  lastRunAt : UInt64
  lastMigrateAt : UInt64
  latencyBurstUsedNs : UInt64
  batchEpochTargetNs : UInt64
  batchEpochRemainingNs : UInt64
  sleepVlag : Int64
  seenRulesSeq : UInt64
  classifiedComm : RuleKey
  lastCpu : Option Cpu
  homeCpu : Option Cpu
  vtimeCpu : Option Cpu
  queuedCpu : Option Cpu
  runningCpu : Option Cpu
  classId : WorkloadClass
  hasSleepVlag : Bool
  state : TaskState

/-- Task counts are natural numbers: there are fewer tasks than a 64-bit counter can hold. -/
structure ClassCtx where
  vruntime : UInt64
  nrQueued : ℕ
  nrRunning : ℕ

structure CpuClassCtx where
  vruntime : UInt64
  taskVtime : UInt64
  nrQueued : ℕ
  nrRunning : ℕ

structure CpuCtx where
  entity : WorkloadClass → CpuClassCtx
  classVtimeNow : UInt64
  stealClaim : UInt64
  runningSince : UInt64
  batchServiceSinceLatency : UInt64
  runningClass : Option WorkloadClass

def CpuCtx.updateEntity (cpuc : CpuCtx) (k : WorkloadClass) (f : CpuClassCtx → CpuClassCtx) :
    CpuCtx :=
  { cpuc with entity := Function.update cpuc.entity k (f (cpuc.entity k)) }

structure AgentCpuTopology where
  llcId : UInt32
  nodeId : UInt32
  capacity : UInt32

inductive DsqId where
  | classDsq (k : WorkloadClass) (cpu : Cpu)
  | localOn (cpu : Cpu)
  | localHere
  | global
  deriving DecidableEq

structure TaskStruct where
  comm : RuleKey
  cpusPtr : Cpu → Bool
  cpumaskFirst : Cpu
  nrCpusAllowed : ℕ
  migrationDisabled : Bool
  idleFlag : Bool
  queuedFlag : Bool
  slice : UInt64
  dsqVtime : UInt64
  scaleByTaskWeightInverse : UInt64 → UInt64

/-- The kernel as the callbacks see it: its tasks and dispatch queues, and the answers of its
helpers while one callback runs. -/
structure Kernel (T : Type) where
  task : T → TaskStruct
  dsq : DsqId → List T
  ktimeGetNs : UInt64
  taskCpu : T → Cpu
  taskRunning : T → Bool
  cpuCurr : Cpu → Option T
  smpProcessorId : Cpu
  hasSelectCpuAnd : Bool
  selectCpuAnd : T → Cpu → Option Cpu
  selectCpuDfl : T → Cpu → Cpu × Bool
  testAndClearCpuIdle : Cpu → Bool
  dsqInsert : T → DsqId → Bool
  dsqInsertVtime : T → DsqId → Bool
  dsqMove : T → DsqId → Bool
  taskFromPid : T → Bool
  topology : Cpu → AgentCpuTopology
  rulesSeq : UInt64
  /-- The generation as it is read again after a rule lookup. -/
  confirmedRulesSeq : UInt64
  rules : RuleKey → Option UInt32

structure Sched (T : Type) where
  kernel : Kernel T
  tasks : T → Option TaskCtx
  cpus : Cpu → CpuCtx
  classes : WorkloadClass → ClassCtx
  classVtimeNow : UInt64
  stealCursor : UInt64
  nrCpuIds : ℕ
  /-- CPUs kicked by `scx_bpf_kick_cpu`, in order. -/
  kicks : List Cpu
  /-- How often a decrement found its counter at zero. -/
  underflows : ℕ

variable {T : Type} [DecidableEq T]

namespace Sched

def updateTask (s : Sched T) (p : T) (f : TaskCtx → TaskCtx) : Sched T :=
  { s with tasks := Function.update s.tasks p ((s.tasks p).map f) }

def updateCpu (s : Sched T) (cpu : Cpu) (f : CpuCtx → CpuCtx) : Sched T :=
  { s with cpus := Function.update s.cpus cpu (f (s.cpus cpu)) }

def updateEntity (s : Sched T) (cpu : Cpu) (k : WorkloadClass) (f : CpuClassCtx → CpuClassCtx) :
    Sched T :=
  s.updateCpu cpu fun cpuc => cpuc.updateEntity k f

def updateClass (s : Sched T) (k : WorkloadClass) (f : ClassCtx → ClassCtx) : Sched T :=
  { s with classes := Function.update s.classes k (f (s.classes k)) }

def lookupCpuCtx (s : Sched T) (cpu : Cpu) : Option CpuCtx :=
  if cpu < s.nrCpuIds then some (s.cpus cpu) else none

def lookupCpuTopology (s : Sched T) (cpu : Cpu) : Option AgentCpuTopology :=
  if cpu < s.nrCpuIds then some (s.kernel.topology cpu) else none

def taskSetSlice (s : Sched T) (p : T) (slice : UInt64) : Sched T :=
  { s with kernel.task := Function.update s.kernel.task p { s.kernel.task p with slice := slice } }

def kickCpu (s : Sched T) (cpu : Cpu) : Sched T := { s with kicks := s.kicks ++ [cpu] }

end Sched

omit [DecidableEq T] in
theorem lookupCpuCtx_of_lt {s : Sched T} {cpu : Cpu} (h : cpu < s.nrCpuIds) :
    s.lookupCpuCtx cpu = some (s.cpus cpu) := if_pos h

end ScxAgent.Scheduler
