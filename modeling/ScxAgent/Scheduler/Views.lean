import ScxAgent.Scheduler.Callbacks

/-!
# Parts of the state

Most functions of the scheduler leave most parts of its state alone. A view reads one part; what a
function leaves alone follows from what the view reads of the contexts.
-/

namespace ScxAgent.Scheduler

open Sched

variable {T : Type} [DecidableEq T] {α β : Type} {cfg : Config} {s : Sched T} {p : T} {cpu : Cpu}
  {k : WorkloadClass}

section Contexts

theorem map_updateTask (read : TaskCtx → β) {f : TaskCtx → TaskCtx}
    (h : ∀ tctx, s.tasks p = some tctx → read (f tctx) = read tctx) :
    (fun q => ((s.updateTask p f).tasks q).map read) = fun q => (s.tasks q).map read := by
  funext q
  by_cases hq : q = p
  · subst hq
    simp only [updateTask, Function.update_self]
    cases htask : s.tasks q with
    | none => rfl
    | some tctx => simp [h tctx htask]
  · simp [updateTask, hq]

omit [DecidableEq T] in
theorem read_updateCpu (read : CpuCtx → β) {f : CpuCtx → CpuCtx}
    (h : read (f (s.cpus cpu)) = read (s.cpus cpu)) :
    (fun c => read ((s.updateCpu cpu f).cpus c)) = fun c => read (s.cpus c) := by
  funext c
  by_cases hc : c = cpu
  · subst hc
    simp [updateCpu, h]
  · simp [updateCpu, hc]

omit [DecidableEq T] in
/-- A rebase sets the times of a task. -/
theorem taskRebaseVruntime_times {task : TaskStruct} {tctx tctx' : TaskCtx} {wakeup : Bool}
    (h : taskRebaseVruntime cfg s task tctx cpu wakeup = some tctx') :
    ∃ vruntime vtimeCpu, tctx' =
      { tctx with vruntime := vruntime, vtimeCpu := vtimeCpu, hasSleepVlag := false } := by
  unfold taskRebaseVruntime at h
  split at h
  · cases h
  · split at h
    · cases h
      exact ⟨_, _, rfl⟩
    · split_ifs at h with hsleep
      · cases h
        exact ⟨_, _, rfl⟩
      · rw [Option.map_eq_some_iff] at h
        obtain ⟨moved, hmoved, rfl⟩ := h
        obtain ⟨vruntime, vtimeCpu, rfl⟩ : ∃ vruntime vtimeCpu, moved =
            { tctx with vruntime := vruntime, vtimeCpu := vtimeCpu } := by
          unfold migrateVruntime at hmoved
          split_ifs at hmoved
          · cases hmoved
            exact ⟨_, _, rfl⟩
          · rw [Option.map_eq_some_iff] at hmoved
            obtain ⟨src, -, rfl⟩ := hmoved
            exact ⟨_, _, rfl⟩
        simp only [limitWakeupCredit]
        split_ifs <;> exact ⟨_, _, rfl⟩

theorem batchStartEpoch_grants (cfg : Config) (tctx : TaskCtx) (cpuc : CpuCtx) (unaccounted : Bool) :
    ∃ target remaining, (batchStartEpoch cfg tctx cpuc unaccounted).2 =
      { tctx with batchEpochTargetNs := target, batchEpochRemainingNs := remaining } := by
  unfold batchStartEpoch
  split
  · exact ⟨_, _, rfl⟩
  · exact ⟨_, _, rfl⟩

end Contexts

/-- The view reads the context of a task through `read` only. -/
def ReadsTasks (view : Sched T → α) (read : TaskCtx → β) : Prop :=
  ∀ s p f, (∀ tctx, s.tasks p = some tctx → read (f tctx) = read tctx) →
    view (s.updateTask p f) = view s

/-- The view reads no slice and no kick. -/
structure SliceFree (view : Sched T → α) : Prop where
  slice : ∀ {s p slice}, view (s.taskSetSlice p slice) = view s
  kick : ∀ {s cpu}, view (s.kickCpu cpu) = view s

/-- The view reads no counter. -/
structure CountFree (view : Sched T → α) : Prop where
  entity : ∀ {s cpu k} {f : CpuClassCtx → CpuClassCtx}, view (s.updateEntity cpu k f) = view s
  total : ∀ {s k} {f : ClassCtx → ClassCtx}, view (s.updateClass k f) = view s
  underflow : ∀ {s : Sched T} {n}, view { s with underflows := n } = view s

variable {view : Sched T → α} {read : TaskCtx → β}

namespace ReadsTasks

variable (h : ReadsTasks view read)

include h

/-- A stored context is replaced by one that reads the same. -/
theorem replaced {tctx tctx' : TaskCtx} (htask : s.tasks p = some tctx)
    (hsame : read tctx' = read tctx) : view (s.updateTask p fun _ => tctx') = view s := by
  refine h _ _ _ fun found hfound => ?_
  obtain rfl : tctx = found := Option.some.inj (htask.symm.trans hfound)
  exact hsame

theorem rebaseTask (htimes : ∀ tctx vruntime vtimeCpu, read
      { tctx with vruntime := vruntime, vtimeCpu := vtimeCpu, hasSleepVlag := false } = read tctx)
    {wakeup : Bool} : view (s.rebaseTask cfg p cpu wakeup).2 = view s := by
  unfold Sched.rebaseTask
  split
  · rfl
  · rename_i tctx' hbind
    rw [Option.bind_eq_some_iff] at hbind
    obtain ⟨tctx, htask, hrebase⟩ := hbind
    obtain ⟨vruntime, vtimeCpu, rfl⟩ := taskRebaseVruntime_times hrebase
    exact h.replaced htask (htimes _ _ _)

theorem dispatchSlice (hepoch : ∀ tctx target remaining, read
      { tctx with batchEpochTargetNs := target, batchEpochRemainingNs := remaining } = read tctx)
    {src : CpuCtx} {maxSlice : UInt64} : view (s.dispatchSlice cfg p src k maxSlice).2 = view s := by
  unfold Sched.dispatchSlice
  dsimp only
  split
  · rename_i tctx htask
    obtain ⟨target, remaining, hstart⟩ := batchStartEpoch_grants cfg tctx src false
    rw [hstart]
    exact h.replaced htask (hepoch _ _ _)
  · rfl

end ReadsTasks

namespace SliceFree

variable (h : SliceFree view) {cpuc : CpuCtx} {curr : Option T}

include h

theorem capCpuSlice {maxRuntime : UInt64} :
    view (s.capCpuSlice cpuc cpu curr maxRuntime).2 = view s := by
  have hcap (curr : Option T) : view (s.capTaskSlice cpuc cpu curr maxRuntime).2.2 = view s := by
    unfold Sched.capTaskSlice
    split
    · rfl
    · split_ifs
      · rfl
      · exact h.slice
      · rfl
  simp only [Sched.capCpuSlice]
  split_ifs
  · rfl
  · exact h.kick.trans (hcap _)
  · exact hcap _
  · exact hcap _

theorem arbitrateLockedCpu {incoming : Option (WorkloadClass × UInt64)} :
    view (s.arbitrateLockedCpu cfg cpu curr incoming) = view s := by
  unfold Sched.arbitrateLockedCpu
  split
  · rfl
  · dsimp only
    split
    · rfl
    · simp only [capWinner]
      split_ifs <;> exact h.capCpuSlice

theorem keepLatency {tctx : TaskCtx} {workConserving : Bool} :
    view (s.keepLatency cfg cpu p tctx workConserving).2 = view s := by
  simp only [Sched.keepLatency]
  split_ifs <;> first | rfl | exact h.arbitrateLockedCpu.trans h.slice

end SliceFree

namespace CountFree

variable (h : CountFree view)

include h

omit [DecidableEq T] in
theorem noteUnderflow {old : ℕ} : view (s.noteUnderflow old) = view s := by
  unfold Sched.noteUnderflow
  split_ifs
  · exact h.underflow
  · rfl

variable (hreads : ReadsTasks view read)
  (hleft : ∀ tctx, read { tctx with queuedCpu := none } = read tctx)

include hreads hleft

theorem cpuQueueDec : view (s.cpuQueueDec p) = view s := by
  unfold Sched.cpuQueueDec
  split
  · rfl
  · split
    · rfl
    · dsimp only
      split
      · exact hreads _ _ _ fun tctx _ => hleft tctx
      · exact h.noteUnderflow.trans (h.entity.trans (hreads _ _ _ fun tctx _ => hleft tctx))

theorem taskQueueDec : view (s.taskQueueDec p) = view s := by
  unfold Sched.taskQueueDec
  split
  · rfl
  · split_ifs
    · rfl
    · exact (h.cpuQueueDec hreads hleft).trans (h.noteUnderflow.trans h.total)

theorem recordMoved (htimes : ∀ tctx vruntime vtimeCpu, read
      { tctx with vruntime := vruntime, vtimeCpu := vtimeCpu, hasSleepVlag := false } = read tctx)
    (hmoved : ∀ tctx homeCpu, read { tctx with homeCpu := homeCpu, state := .dispatched } = read tctx)
    {remote : Bool} : view (s.recordMoved cfg p cpu k remote) = view s := by
  simp only [Sched.recordMoved]
  refine (hreads _ _ _ fun tctx _ => hmoved tctx _).trans (h.entity.trans ?_)
  split_ifs
  · exact (hreads.rebaseTask htimes).trans (h.taskQueueDec hreads hleft)
  · exact h.taskQueueDec hreads hleft

end CountFree

end ScxAgent.Scheduler
