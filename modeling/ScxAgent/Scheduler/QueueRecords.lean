import ScxAgent.Scheduler.TaskTime

/-!
# Queue records and class changes

A task that sits in a class queue carries the CPU of the queue, and the queue counters of that CPU
and of the class count it. The functions here keep the two together, also when a task changes class.
-/

namespace ScxAgent.Scheduler

variable {T : Type} [DecidableEq T] (cfg : Config)

/-- Records that a `__sync_fetch_and_sub` found `old` in its counter; at zero the source adds the
one back, which is what truncated subtraction leaves. -/
def Sched.noteUnderflow (s : Sched T) (old : ℕ) : Sched T :=
  if old = 0 then { s with underflows := s.underflows + 1 } else s

def Sched.cpuQueueInc (s : Sched T) (cpu : Cpu) (k : WorkloadClass) : Sched T :=
  match s.lookupCpuCtx cpu with
  | none => s
  | some cpuc =>
    let s := s.updateEntity cpu k fun entity => { entity with nrQueued := entity.nrQueued + 1 }
    if (cpuc.entity k).nrQueued = 0 ∧ (cpuc.entity k).nrRunning = 0 then
      s.updateCpu cpu (activateCpuClass cfg k)
    else s

def Sched.cpuQueueDec (s : Sched T) (p : T) : Sched T :=
  match s.tasks p with
  | none => s
  | some tctx =>
    match tctx.queuedCpu with
    | none => s
    | some cpu =>
      let s := s.updateTask p fun tctx => { tctx with queuedCpu := none }
      match s.lookupCpuCtx cpu with
      | none => s
      | some cpuc =>
        (s.updateEntity cpu tctx.classId fun entity =>
          { entity with nrQueued := entity.nrQueued - 1 }).noteUnderflow
          (cpuc.entity tctx.classId).nrQueued

def Sched.classQueueDec (s : Sched T) (k : WorkloadClass) : Sched T :=
  (s.updateClass k fun cctx => { cctx with nrQueued := cctx.nrQueued - 1 }).noteUnderflow
    (s.classes k).nrQueued

def Sched.taskQueueDec (s : Sched T) (p : T) : Sched T :=
  match s.tasks p with
  | none => s
  | some tctx =>
    if tctx.queuedCpu.isNone then s else (s.classQueueDec tctx.classId).cpuQueueDec p

/-- Whether the records say that the task sits in a class queue. -/
def TaskCtx.queueOwned (tctx : TaskCtx) : Bool :=
  tctx.state = .enqueued || tctx.queuedCpu.isSome

def Sched.reconcileBeforeEnqueue (s : Sched T) (p : T) : Sched T :=
  match s.tasks p with
  | none => s
  | some tctx =>
    let s := if tctx.queueOwned then s.taskQueueDec p else s
    s.updateTask p fun tctx => { tctx with state := .none, queuedCpu := none }

inductive ClassRefreshResult where
  | unchanged
  | updated
  | deferred
  deriving DecidableEq, Repr

def Sched.classifyKey (s : Sched T) (key : RuleKey) : WorkloadClass :=
  match (s.kernel.rules key).bind classOfId with
  | some k => k
  | none => cfg.sanitizeClass cfg.defaultClass

/-- A task that runs is charged to its class when it stops, so its class is not changed before. -/
def TaskCtx.inRun (tctx : TaskCtx) : Bool := tctx.runningCpu.isSome || tctx.lastRunAt != 0

def Sched.transitionTaskClass (s : Sched T) (p : T) (k : WorkloadClass) (comm : RuleKey)
    (seq : UInt64) : ClassRefreshResult × Sched T :=
  match s.tasks p with
  | none => (.unchanged, s)
  | some tctx =>
    if tctx.inRun then (.deferred, s)
    else
      let s :=
        if k ≠ tctx.classId then
          let s := if tctx.queueOwned then s.taskQueueDec p else s
          s.updateTask p fun tctx =>
            { resetClassState cfg { tctx with state := .none, queuedCpu := none } with classId := k }
        else s
      (.updated, s.updateTask p fun tctx => { tctx with classifiedComm := comm, seenRulesSeq := seq })

/-- The generation is read before and after the rule lookup; user space may publish in between. -/
def Sched.refreshTaskClass (s : Sched T) (p : T) (checkComm : Bool) :
    ClassRefreshResult × Sched T :=
  match s.tasks p with
  | none => (.unchanged, s)
  | some tctx =>
    let seq := s.kernel.rulesSeq
    let comm := (s.kernel.task p).comm
    if checkComm = false ∧ seq = tctx.seenRulesSeq then (.unchanged, s)
    else if checkComm = true ∧ seq = tctx.seenRulesSeq ∧ comm = tctx.classifiedComm then
      (.unchanged, s)
    else if seq % 2 = 1 then (.deferred, s)
    else if tctx.inRun then (.deferred, s)
    else
      let k := s.classifyKey cfg comm
      let confirmedSeq := s.kernel.confirmedRulesSeq
      if seq ≠ confirmedSeq ∨ confirmedSeq % 2 = 1 then (.deferred, s)
      else s.transitionTaskClass cfg p k comm confirmedSeq

end ScxAgent.Scheduler
