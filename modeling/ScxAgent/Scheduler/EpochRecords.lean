import ScxAgent.Scheduler.Views

/-!
# What the scheduler does to the epochs of its tasks

The epoch of a batch task is a part of its context. Queue records, virtual times, slices and claims
leave it alone; it is granted, charged and reset by the functions at the end.
-/

set_option linter.unusedSectionVars false

namespace ScxAgent.Scheduler

open Sched

/-- What the epoch of a task depends on. -/
structure Epoch where
  classId : WorkloadClass
  lastRunAt : UInt64
  runningCpu : Option Cpu
  targetNs : UInt64
  remainingNs : UInt64

def TaskCtx.epoch (tctx : TaskCtx) : Epoch where
  classId := tctx.classId
  lastRunAt := tctx.lastRunAt
  runningCpu := tctx.runningCpu
  targetNs := tctx.batchEpochTargetNs
  remainingNs := tctx.batchEpochRemainingNs

structure Epochs (T : Type) where
  of : T → Option Epoch
  nrCpuIds : ℕ

variable {T : Type} [DecidableEq T] {cfg : Config} {s : Sched T} {p : T} {cpu : Cpu}
  {k : WorkloadClass}

def Sched.epochs (s : Sched T) : Epochs T where
  of p := (s.tasks p).map TaskCtx.epoch
  nrCpuIds := s.nrCpuIds

def Epochs.put (v : Epochs T) (p : T) (e : Epoch) : Epochs T :=
  { v with of := Function.update v.of p (some e) }

@[simp] theorem Epochs.put_of (v : Epochs T) (p : T) (e : Epoch) : (v.put p e).of p = some e := by
  simp [Epochs.put]

@[simp] theorem Epochs.put_put (v : Epochs T) (p : T) (e e' : Epoch) :
    (v.put p e).put p e' = v.put p e' := by
  simp [Epochs.put]

variable {e : Epoch}

theorem Epochs.put_self {v : Epochs T} (h : v.of p = some e) : v.put p e = v := by
  rw [Epochs.put, ← h, Function.update_eq_self]

variable {tctx : TaskCtx}

theorem epochs_of (htask : s.tasks p = some tctx) :
    s.epochs.of p = some tctx.epoch := congrArg (Option.map TaskCtx.epoch) htask

/-- The context of a task whose epoch is known. -/
theorem exists_task_of_epochs (h : s.epochs.of p = some e) :
    ∃ tctx, s.tasks p = some tctx ∧ tctx.epoch = e := by
  simpa [epochs, Option.map_eq_some_iff] using h

variable {f : TaskCtx → TaskCtx} {wakeup : Bool} {s' : Sched T}

section Frames

theorem epochs_updateTask (htask : s.tasks p = some tctx) :
    (s.updateTask p f).epochs = s.epochs.put p (f tctx).epoch := by
  have hof : (s.updateTask p f).epochs.of = (s.epochs.put p (f tctx).epoch).of := by
    funext t
    by_cases ht : t = p
    · subst ht
      simp [epochs, updateTask, Epochs.put, htask]
    · simp [epochs, updateTask, Epochs.put, ht]
  exact congrArg (Epochs.mk · s.nrCpuIds) hof

theorem epochs_updateTask_map (g : Epoch → Epoch) (h : s.epochs.of p = some e)
    (hf : ∀ tctx, (f tctx).epoch = g tctx.epoch) :
    (s.updateTask p f).epochs = s.epochs.put p (g e) := by
  obtain ⟨tctx, htask, rfl⟩ := exists_task_of_epochs h
  rw [epochs_updateTask htask, hf]

theorem epochs_updateTask_same (h : ∀ tctx, s.tasks p = some tctx → (f tctx).epoch = tctx.epoch) :
    (s.updateTask p f).epochs = s.epochs :=
  congrArg (Epochs.mk · s.nrCpuIds) (map_updateTask TaskCtx.epoch h)

theorem readsTasks_epochs : ReadsTasks (T := T) epochs TaskCtx.epoch :=
  fun _ _ _ => epochs_updateTask_same

theorem sliceFree_epochs : SliceFree (T := T) epochs := ⟨rfl, rfl⟩

theorem countFree_epochs : CountFree (T := T) epochs := ⟨rfl, rfl, rfl⟩

@[simp] theorem epochs_updateEntity {f : CpuClassCtx → CpuClassCtx} :
    (s.updateEntity cpu k f).epochs = s.epochs := rfl

@[simp] theorem epochs_updateClass {f : ClassCtx → ClassCtx} :
    (s.updateClass k f).epochs = s.epochs := rfl

@[simp] theorem epochs_taskSetSlice {slice : UInt64} : (s.taskSetSlice p slice).epochs = s.epochs := rfl

@[simp] theorem epochs_kickCpu : (s.kickCpu cpu).epochs = s.epochs := rfl

@[simp] theorem epochs_rebaseTask : (s.rebaseTask cfg p cpu wakeup).2.epochs = s.epochs :=
  readsTasks_epochs.rebaseTask fun _ _ _ => rfl

theorem epochs_rebased {done : Bool} (h : s.rebaseTask cfg p cpu wakeup = (done, s')) :
    s'.epochs = s.epochs := by
  have hepochs : (s.rebaseTask cfg p cpu wakeup).2.epochs = s.epochs := epochs_rebaseTask
  rwa [h] at hepochs

theorem epoch_latencySaveSleepVlag (task : TaskStruct) (tctx : TaskCtx) :
    (latencySaveSleepVlag cfg s task tctx).epoch = tctx.epoch := by
  unfold latencySaveSleepVlag
  split
  · rfl
  · split_ifs <;> rfl

end Frames

section Slices

variable {cpuc : CpuCtx} {curr : Option T} {incoming : Option (WorkloadClass × UInt64)}

@[simp] theorem epochs_arbitrateLockedCpu :
    (s.arbitrateLockedCpu cfg cpu curr incoming).epochs = s.epochs := sliceFree_epochs.arbitrateLockedCpu

@[simp] theorem epochs_keepLatency {workConserving : Bool} :
    (s.keepLatency cfg cpu p tctx workConserving).2.epochs = s.epochs := sliceFree_epochs.keepLatency

end Slices

section Queues

@[simp] theorem epochs_cpuQueueInc : (s.cpuQueueInc cfg cpu k).epochs = s.epochs := by
  unfold cpuQueueInc
  split
  · rfl
  · dsimp only
    split_ifs <;> rfl

@[simp] theorem epochs_taskQueueDec : (s.taskQueueDec p).epochs = s.epochs :=
  countFree_epochs.taskQueueDec readsTasks_epochs fun _ => rfl

@[simp] theorem epochs_reconcileBeforeEnqueue : (s.reconcileBeforeEnqueue p).epochs = s.epochs := by
  unfold reconcileBeforeEnqueue
  split
  · rfl
  · dsimp only
    rw [epochs_updateTask_same (by intro _ _; rfl)]
    split_ifs <;> simp

theorem epochs_taskHomeCpu (tctx : TaskCtx) (prevCpu : Cpu) :
    (s.taskHomeCpu p tctx prevCpu).2.epochs = s.epochs := by
  unfold taskHomeCpu
  split
  · rfl
  · dsimp only
    split_ifs <;> first | exact epochs_updateTask_same (by intro _ _; rfl) | rfl

@[simp] theorem epochs_selectCpu (prevCpu : Cpu) :
    (s.selectCpu cfg p prevCpu).2.epochs = s.epochs := by
  unfold selectCpu
  split
  · rfl
  · rename_i tctx htask
    have hhome := epochs_taskHomeCpu (s := s) (p := p) tctx prevCpu
    generalize s.taskHomeCpu p tctx prevCpu = home at hhome ⊢
    obtain ⟨prev, s₁⟩ := home
    dsimp only at hhome ⊢
    have hset (cpu : Cpu) : (s₁.updateTask p fun tctx => { tctx with homeCpu := some cpu }).epochs =
        s.epochs := (epochs_updateTask_same (by intro _ _; rfl)).trans hhome
    split
    · split_ifs
      · exact hset _
      · exact hhome
    · split
      · exact hhome
      · split_ifs
        · exact hset _
        · split
          · rename_i hrebase
            exact (epochs_rebased hrebase).trans (hset _)
          · rename_i s₂ hrebase
            have hrebased := (epochs_rebased hrebase).trans (hset _)
            split_ifs
            · exact (epochs_updateTask_same (by intro _ _; rfl)).trans hrebased
            · exact hrebased

@[simp] theorem epochs_latencyTryDirectDispatch {prevCpu : Cpu} {flags : EnqFlags} :
    (s.latencyTryDirectDispatch cfg p prevCpu flags).2.epochs = s.epochs := by
  unfold latencyTryDirectDispatch
  split
  · rfl
  · split
    · rename_i hrebase
      exact epochs_rebased hrebase
    · rename_i hrebase
      split_ifs
      · exact (epochs_updateTask_same (by intro _ _; rfl)).trans (epochs_rebased hrebase)
      · exact epochs_rebased hrebase

theorem epochs_prepareTaskEnqueue {key : Option (UInt64 × UInt64)}
    (h : s.prepareTaskEnqueue cfg p cpu wakeup = (key, s')) : s'.epochs = s.epochs := by
  unfold prepareTaskEnqueue at h
  split at h <;> rename_i hrebase <;> cases h <;> exact epochs_rebased hrebase

@[simp] theorem epochs_enqueueClass {flags : EnqFlags} :
    (s.enqueueClass cfg p k cpu flags).epochs = s.epochs := by
  unfold enqueueClass
  have hactive : (if (s.classes k).nrQueued = 0 ∧ (s.classes k).nrRunning = 0 then
      s.activateClass cfg k else s).epochs = s.epochs := by
    split_ifs <;> rfl
  dsimp only
  split
  · rename_i hprepare
    exact (epochs_prepareTaskEnqueue hprepare).trans hactive
  · rename_i s₁ hprepare
    have hepochs := (epochs_prepareTaskEnqueue hprepare).trans hactive
    have hqueued : (s₁.updateTask p fun tctx =>
        { tctx with state := .enqueued, queuedCpu := some cpu }).epochs = s.epochs :=
      (epochs_updateTask_same (by intro _ _; rfl)).trans hepochs
    split_ifs
    · simpa using hqueued
    · simpa using hqueued
    · rw [epochs_updateTask_same (by intro _ _; rfl)]
      simpa using hqueued

@[simp] theorem epochs_dequeue (flags : DeqFlags) : (s.dequeue p flags).epochs = s.epochs := by
  unfold dequeue
  split
  · rfl
  · split
    · exact (epochs_updateTask_same (by intro _ _; rfl)).trans epochs_taskQueueDec
    · split
      · exact epochs_updateTask_same (by intro _ _; rfl)
      · rfl

end Queues

section Moves

@[simp] theorem epochs_dsqMoveLocal {src : DsqId} {slice : UInt64} :
    (s.dsqMoveLocal p src cpu slice).epochs = s.epochs := rfl

@[simp] theorem epochs_recordMoved {remote : Bool} :
    (s.recordMoved cfg p cpu k remote).epochs = s.epochs :=
  countFree_epochs.recordMoved readsTasks_epochs (fun _ => rfl) (fun _ _ _ => rfl) fun _ _ => rfl

theorem epochs_acquireSourceClaim {claim : UInt64} (h : s.acquireSourceClaim cpu claim = some s') :
    s'.epochs = s.epochs := by
  unfold acquireSourceClaim at h
  split_ifs at h
  cases h
  rfl

@[simp] theorem epochs_releaseSourceClaim {claim : UInt64} :
    (s.releaseSourceClaim cpu claim).epochs = s.epochs := by
  unfold releaseSourceClaim
  split_ifs <;> rfl

@[simp] theorem epochs_pickRemoteClass : (s.pickRemoteClass cfg cpu).2.2.epochs = s.epochs := by
  simp only [pickRemoteClass]
  split_ifs <;> split <;> rfl

@[simp] theorem epochs_advanceTaskVtime {vruntime : UInt64} :
    (s.advanceTaskVtime cpu k vruntime).epochs = s.epochs := rfl

end Moves

end ScxAgent.Scheduler
