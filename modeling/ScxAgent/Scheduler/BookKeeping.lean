import ScxAgent.Scheduler.Books
import ScxAgent.Scheduler.Views

/-!
# What the scheduler does to its books

Virtual times, epochs, slices and kicks leave the books alone; the queue records act on them as the
operations of the books.
-/

set_option linter.unusedSectionVars false

namespace ScxAgent.Scheduler

open Option Function Sched

variable {T : Type} [DecidableEq T] {cfg : Config} {s : Sched T} {p : T} {cpu : Cpu}
  {k : WorkloadClass} {tctx : TaskCtx} {runtime : UInt64} {f : TaskCtx → TaskCtx}
  {task : TaskStruct}

section Frames

theorem books_updateTask (g : Entry → Entry)
    (h : ∀ tctx, s.tasks p = some tctx → (f tctx).entry = g tctx.entry) :
    (s.updateTask p f).books = s.books.revise p g := by
  have hentry : (s.updateTask p f).books.entry = (s.books.revise p g).entry := by
    funext t
    by_cases ht : t = p
    · subst ht
      simp only [books, updateTask, Books.revise, update_self]
      cases htask : s.tasks t with
      | none => rfl
      | some tctx => simp [h tctx htask]
    · simp [books, updateTask, Books.revise, ht]
  exact Books.ext hentry rfl rfl rfl rfl rfl rfl rfl

theorem books_updateTask_same (h : ∀ tctx, s.tasks p = some tctx → (f tctx).entry = tctx.entry) :
    (s.updateTask p f).books = s.books := by
  rw [books_updateTask id h]
  exact Books.revise_eq_self id fun _ _ => rfl

theorem books_updateCpu {f : CpuCtx → CpuCtx}
    (hqueued : ∀ k, ((f (s.cpus cpu)).entity k).nrQueued = ((s.cpus cpu).entity k).nrQueued)
    (hrunning : ∀ k, ((f (s.cpus cpu)).entity k).nrRunning = ((s.cpus cpu).entity k).nrRunning) :
    (s.updateCpu cpu f).books = s.books := by
  refine Books.ext rfl ?_ ?_ rfl rfl rfl rfl rfl
  · funext ⟨c, k⟩
    exact congrFun (read_updateCpu (fun cpuc => (cpuc.entity k).nrQueued) (hqueued k)) c
  · funext ⟨c, k⟩
    exact congrFun (read_updateCpu (fun cpuc => (cpuc.entity k).nrRunning) (hrunning k)) c

/-- A value read off the entities changes only at the updated one. -/
theorem updateEntity_read {α : Type} (read : CpuClassCtx → α) (f : CpuClassCtx → CpuClassCtx)
    (key : Cpu × WorkloadClass) :
    read (((s.updateEntity cpu k f).cpus key.1).entity key.2) =
      update (fun key : Cpu × WorkloadClass => read ((s.cpus key.1).entity key.2)) (cpu, k)
        (read (f ((s.cpus cpu).entity k))) key := by
  obtain ⟨c, k'⟩ := key
  by_cases hc : c = cpu
  · subst hc
    by_cases hk : k' = k
    · subst hk
      simp [updateEntity, updateCpu, CpuCtx.updateEntity]
    · simp [updateEntity, updateCpu, CpuCtx.updateEntity, hk]
  · simp [updateEntity, updateCpu, hc]

theorem books_updateEntity (f : CpuClassCtx → CpuClassCtx) :
    (s.updateEntity cpu k f).books =
      { s.books with
        queued := update s.books.queued (cpu, k) (f ((s.cpus cpu).entity k)).nrQueued
        running := update s.books.running (cpu, k)
          (f ((s.cpus cpu).entity k)).nrRunning } :=
  Books.ext rfl (funext fun key => updateEntity_read CpuClassCtx.nrQueued f key)
    (funext fun key => updateEntity_read CpuClassCtx.nrRunning f key) rfl rfl rfl rfl rfl

theorem books_updateEntity_same {f : CpuClassCtx → CpuClassCtx}
    (hqueued : ∀ entity, (f entity).nrQueued = entity.nrQueued)
    (hrunning : ∀ entity, (f entity).nrRunning = entity.nrRunning) :
    (s.updateEntity cpu k f).books = s.books := by
  rw [books_updateEntity, hqueued, hrunning]
  exact Books.ext rfl (update_eq_self _ _) (update_eq_self _ _) rfl rfl rfl rfl rfl

theorem books_updateClass (f : ClassCtx → ClassCtx) :
    (s.updateClass k f).books =
      { s.books with
        classQueued := update s.books.classQueued k (f (s.classes k)).nrQueued
        classRunning := update s.books.classRunning k (f (s.classes k)).nrRunning } := by
  refine Books.ext rfl rfl rfl ?_ ?_ rfl rfl rfl
  all_goals
    funext k'
    by_cases hk : k' = k
    · subst hk
      simp [books, updateClass]
    · simp [books, updateClass, hk]

theorem books_updateClass_same {f : ClassCtx → ClassCtx}
    (hqueued : ∀ cctx, (f cctx).nrQueued = cctx.nrQueued)
    (hrunning : ∀ cctx, (f cctx).nrRunning = cctx.nrRunning) :
    (s.updateClass k f).books = s.books := by
  rw [books_updateClass, hqueued, hrunning]
  exact Books.ext rfl rfl rfl (update_eq_self _ _) (update_eq_self _ _) rfl rfl rfl

/-- Only the counters of a CPU matter to the books; this is what an entity update keeps of them. -/
theorem updateEntity_counts (cpuc : CpuCtx) (f : CpuClassCtx → CpuClassCtx)
    (hqueued : ∀ entity, (f entity).nrQueued = entity.nrQueued)
    (hrunning : ∀ entity, (f entity).nrRunning = entity.nrRunning) (k' : WorkloadClass) :
    ((cpuc.updateEntity k f).entity k').nrQueued = (cpuc.entity k').nrQueued ∧
      ((cpuc.updateEntity k f).entity k').nrRunning = (cpuc.entity k').nrRunning := by
  by_cases hk : k' = k
  · subst hk
    simp [CpuCtx.updateEntity, hqueued, hrunning]
  · simp [CpuCtx.updateEntity, hk]

@[simp] theorem books_activateCpuClass :
    (s.updateCpu cpu (activateCpuClass cfg k)).books = s.books := by
  have hcounts (k' : WorkloadClass) := updateEntity_counts (s.cpus cpu) (k := k) (fun entity =>
    { entity with
      vruntime := vtimeSetMax entity.vruntime (wakeupFloor cfg k (s.cpus cpu).classVtimeNow) })
    (fun _ => rfl) (fun _ => rfl) k'
  exact books_updateCpu (fun k' => (hcounts k').1) fun k' => (hcounts k').2

@[simp] theorem books_activateClass : (s.activateClass cfg k).books = s.books :=
  books_updateClass_same (fun _ => rfl) fun _ => rfl

theorem readsTasks_books : ReadsTasks (T := T) books TaskCtx.entry :=
  fun _ _ _ => books_updateTask_same

theorem sliceFree_books : SliceFree (T := T) books := ⟨rfl, rfl⟩

@[simp] theorem books_rebaseTask {wakeup : Bool} :
    (s.rebaseTask cfg p cpu wakeup).2.books = s.books := readsTasks_books.rebaseTask fun _ _ _ => rfl

theorem entry_batchStartEpoch (tctx : TaskCtx) (cpuc : CpuCtx) (unaccounted : Bool) :
    (batchStartEpoch cfg tctx cpuc unaccounted).2.entry = tctx.entry := by
  unfold batchStartEpoch
  split_ifs <;> rfl

theorem entry_latencySaveSleepVlag (task : TaskStruct) (tctx : TaskCtx) :
    (latencySaveSleepVlag cfg s task tctx).entry = tctx.entry := by
  unfold latencySaveSleepVlag
  split
  · rfl
  · split_ifs <;> rfl

theorem entry_chargeTask (task : TaskStruct) (tctx : TaskCtx) (runtime : UInt64) (runnable : Bool) :
    (chargeTask cfg task tctx runtime runnable).entry = tctx.entry := by
  simp only [chargeTask]
  split
  · rfl
  · simp only [chargeEpoch]
    split_ifs <;> rfl

@[simp] theorem books_taskSetSlice {slice : UInt64} : (s.taskSetSlice p slice).books = s.books := rfl

@[simp] theorem books_kickCpu : (s.kickCpu cpu).books = s.books := rfl

theorem books_chargeClass :
    (s.updateCpu cpu fun cpuc => cpuc.chargeClass cfg k runtime).books = s.books := by
  have hcounts (k' : WorkloadClass) := updateEntity_counts (s.cpus cpu) (k := k) (fun entity =>
    { entity with vruntime := ((s.cpus cpu).entity k).vruntime + cfg.classVruntimeDelta k runtime })
    (fun _ => rfl) (fun _ => rfl) k'
  exact books_updateCpu (fun k' => (hcounts k').1) fun k' => (hcounts k').2

theorem books_chargeClassTotal : (s.chargeClassTotal cfg k runtime).books = s.books := by
  have hclass : (s.updateClass k fun cctx => { cctx with
      vruntime := (s.classes k).vruntime + cfg.classVruntimeDelta k runtime }).books = s.books :=
    books_updateClass_same (fun _ => rfl) fun _ => rfl
  exact hclass

@[simp] theorem books_chargeRuntime {runnable : Bool} :
    (s.chargeRuntime cfg p cpu runtime runnable).2.books = s.books := by
  unfold chargeRuntime
  split_ifs
  · rfl
  · split
    · dsimp only
      rw [books_chargeClass, books_chargeClassTotal]
      exact books_updateTask_same fun tctx _ => entry_chargeTask _ tctx runtime runnable
    · rfl

end Frames

variable {maxRuntime : UInt64}

section Slices

variable {cpuc : CpuCtx} {curr : Option T} {incoming : Option (WorkloadClass × UInt64)}

@[simp] theorem books_arbitrateLockedCpu :
    (s.arbitrateLockedCpu cfg cpu curr incoming).books = s.books := sliceFree_books.arbitrateLockedCpu

end Slices

section Queues

@[simp] theorem books_noteUnderflow {old : ℕ} :
    (s.noteUnderflow old).books = s.books.noteUnderflow old := by
  unfold noteUnderflow Books.noteUnderflow
  split_ifs <;> rfl

theorem books_entry (s : Sched T) (p : T) : s.books.entry p = (s.tasks p).map TaskCtx.entry := rfl

theorem classQueueDec_tasks : (s.classQueueDec k).tasks = s.tasks := by
  unfold classQueueDec noteUnderflow
  split_ifs <;> rfl

theorem books_classQueueDec : (s.classQueueDec k).books =
    ({ s.books with
      classQueued := update s.books.classQueued k (s.books.classQueued k - 1) } :
        Books T).noteUnderflow (s.books.classQueued k) := by
  unfold classQueueDec
  rw [books_noteUnderflow, books_updateClass]
  refine congrArg (Books.noteUnderflow · (s.books.classQueued k)) ?_
  exact Books.ext rfl rfl rfl rfl (update_eq_self _ _) rfl rfl rfl

/-- The CPU's part of leaving a queue. -/
theorem books_cpuQueueDec (htask : s.tasks p = some tctx) (hqueued : tctx.queuedCpu = some cpu) :
    (s.cpuQueueDec p).books =
      ({ s.books.revise p fun e => { e with queuedCpu := none } with
        queued := if cpu < s.books.nrCpuIds then
            update s.books.queued (cpu, tctx.classId)
              (s.books.queued (cpu, tctx.classId) - 1)
          else s.books.queued } : Books T).noteUnderflow
        (if cpu < s.books.nrCpuIds then s.books.queued (cpu, tctx.classId) else 1) := by
  have hrevise : (s.updateTask p fun tctx => { tctx with queuedCpu := none }).books =
      s.books.revise p fun e => { e with queuedCpu := none } := books_updateTask _ fun _ _ => rfl
  unfold cpuQueueDec lookupCpuCtx
  rw [htask]
  dsimp only
  rw [hqueued]
  dsimp only
  by_cases hcpu : cpu < s.books.nrCpuIds
  · have honline : cpu < (s.updateTask p fun tctx => { tctx with queuedCpu := none }).nrCpuIds := hcpu
    rw [if_pos honline, if_pos hcpu, if_pos hcpu]
    dsimp only
    rw [books_noteUnderflow, books_updateEntity, hrevise]
    refine congrArg (Books.noteUnderflow · _) ?_
    exact Books.ext rfl rfl (update_eq_self _ _) rfl rfl rfl rfl rfl
  · have hoffline : ¬ cpu < (s.updateTask p fun tctx =>
        { tctx with queuedCpu := none }).nrCpuIds := hcpu
    rw [if_neg hoffline, if_neg hcpu, if_neg hcpu]
    exact hrevise

/-- A task leaves its queue in the records as it does in the books. -/
theorem books_taskQueueDec : (s.taskQueueDec p).books = s.books.leaveQueue p := by
  unfold taskQueueDec Books.leaveQueue Books.queuedAt
  rw [books_entry]
  cases htask : s.tasks p with
  | none => rfl
  | some tctx =>
    cases hqueued : tctx.queuedCpu with
    | none => simp [TaskCtx.entry, hqueued]
    | some cpu =>
      have htask' : (s.classQueueDec tctx.classId).tasks p = some tctx := by
        rw [classQueueDec_tasks, htask]
      simp only [hqueued, isNone_some, Bool.false_eq_true, if_false, map_some,
        bind_some, TaskCtx.entry]
      rw [books_cpuQueueDec htask' hqueued, books_classQueueDec]
      rfl

/-- The records are consulted before a queue is left; without an owned queue there is none. -/
theorem books_reconciled (htask : s.tasks p = some tctx) :
    (if tctx.queueOwned then s.taskQueueDec p else s).books = s.books.leaveQueue p := by
  split_ifs with howned
  · exact books_taskQueueDec
  · have hfree : tctx.queuedCpu = none := by
      simp only [TaskCtx.queueOwned, Bool.or_eq_true, not_or] at howned
      simpa using howned.2
    simp [Books.leaveQueue, Books.queuedAt, books_entry, htask, TaskCtx.entry, hfree]

theorem books_reconcileBeforeEnqueue :
    (s.reconcileBeforeEnqueue p).books =
      (s.books.leaveQueue p).revise p fun e => { e with state := .none, queuedCpu := none } := by
  unfold reconcileBeforeEnqueue
  cases htask : s.tasks p with
  | none => simp [Books.leaveQueue, Books.queuedAt, Books.revise, htask, books]
  | some tctx =>
    dsimp only
    rw [books_updateTask (fun e => { e with state := .none, queuedCpu := none }) fun _ _ => rfl,
      books_reconciled htask]

/-- Whether a task runs, as its entry tells it. -/
theorem inRun_eq_false (h : tctx.inRun = false) :
    tctx.entry.runningCpu = none ∧ tctx.entry.timed = false := by
  simp only [TaskCtx.inRun, Bool.or_eq_false_iff] at h
  exact ⟨by simpa [TaskCtx.entry] using h.1, h.2⟩

theorem books_transitionTaskClass (cfg : Config) (s : Sched T) (p : T) (k : WorkloadClass)
    (comm : RuleKey) (seq : UInt64) :
    (s.transitionTaskClass cfg p k comm seq).2.books = s.books ∨
      (∀ e, s.books.entry p = some e → e.runningCpu = none) ∧
        (s.transitionTaskClass cfg p k comm seq).2.books = s.books.reclassify p k := by
  unfold transitionTaskClass
  cases htask : s.tasks p with
  | none => exact .inl rfl
  | some tctx =>
    dsimp only
    by_cases hrun : tctx.inRun
    · rw [if_pos hrun]
      exact .inl rfl
    · rw [if_neg hrun]
      by_cases hclass : k ≠ tctx.classId
      · rw [if_pos hclass]
        refine .inr ⟨?_, Eq.trans (books_updateTask_same ?_) ?_⟩
        · intro e he
          rw [books_entry, htask, map_some, some.injEq] at he
          rw [← he]
          exact (inRun_eq_false (by simpa using hrun)).1
        · intro _ _
          rfl
        · rw [books_updateTask (fun e => { e with state := .none, queuedCpu := none, classId := k })
            fun _ _ => rfl, books_reconciled htask]
          rfl
      · rw [if_neg hclass]
        refine .inl (books_updateTask_same ?_)
        intro _ _
        rfl

theorem books_refreshTaskClass (cfg : Config) (s : Sched T) (p : T) (checkComm : Bool) :
    (s.refreshTaskClass cfg p checkComm).2.books = s.books ∨
      (∀ e, s.books.entry p = some e → e.runningCpu = none) ∧
        ∃ k, (s.refreshTaskClass cfg p checkComm).2.books = s.books.reclassify p k := by
  unfold refreshTaskClass
  cases htask : s.tasks p with
  | none => exact .inl rfl
  | some tctx =>
    dsimp only
    split_ifs
    · exact .inl rfl
    · exact .inl rfl
    · exact .inl rfl
    · exact .inl rfl
    · exact .inl rfl
    · rcases books_transitionTaskClass cfg s p _ _ _ with h | ⟨hrun, h⟩
      · exact .inl h
      · exact .inr ⟨hrun, _, h⟩

theorem keeps_refreshTaskClass (cfg : Config) (p : T) (h : s.books.Sound) (checkComm : Bool) :
    Books.Keeps s.books (s.refreshTaskClass cfg p checkComm).2.books := by
  rcases books_refreshTaskClass cfg s p checkComm with hsame | ⟨hrun, k, hclass⟩
  · rw [hsame]
    exact h.keeps_self
  · rw [hclass]
    exact h.keeps_leave _ (fun _ => rfl) (fun _ _ => nofun) (fun _ _ => rfl) (fun _ _ => rfl)
      fun e he hne => absurd (hrun e he) hne

/-- A task that is in no queue is in none after its class was looked up again. -/
theorem refreshTaskClass_unqueued (cfg : Config) (checkComm : Bool)
    (h : ∀ e, s.books.entry p = some e → e.queuedCpu = none) :
    ∀ e, (s.refreshTaskClass cfg p checkComm).2.books.entry p = some e → e.queuedCpu = none := by
  intro e he
  rcases books_refreshTaskClass cfg s p checkComm with hsame | ⟨-, k, hclass⟩
  · rw [hsame] at he
    exact h e he
  · rw [hclass, Books.reclassify, Books.revise_entry_self, map_eq_some_iff] at he
    obtain ⟨e', -, rfl⟩ := he
    rfl

theorem books_cpuQueueInc (hcpu : cpu < s.nrCpuIds) :
    (s.cpuQueueInc cfg cpu k).books =
      { s.books with
        queued := update s.books.queued (cpu, k) (s.books.queued (cpu, k) + 1) } := by
  have hentity : (s.updateEntity cpu k fun entity =>
      { entity with nrQueued := entity.nrQueued + 1 }).books =
      { s.books with
        queued := update s.books.queued (cpu, k) (s.books.queued (cpu, k) + 1) } := by
    rw [books_updateEntity]
    exact Books.ext rfl rfl (update_eq_self _ _) rfl rfl rfl rfl rfl
  unfold cpuQueueInc lookupCpuCtx
  rw [if_pos hcpu]
  dsimp only
  split_ifs
  · rw [books_activateCpuClass, hentity]
  · exact hentity

/-- The three records of a task that is put into a queue. -/
theorem books_joinQueue (cfg : Config) (s : Sched T) (p : T) (k : WorkloadClass)
    (hcpu : cpu < s.nrCpuIds) :
    (((s.updateTask p fun tctx => { tctx with state := .enqueued, queuedCpu := some cpu }).updateClass
      k fun cctx => { cctx with nrQueued := cctx.nrQueued + 1 }).cpuQueueInc cfg cpu k).books =
      s.books.joinQueue p cpu k := by
  rw [books_cpuQueueInc (by exact hcpu), books_updateClass,
    books_updateTask (fun e => { e with state := .enqueued, queuedCpu := some cpu }) fun _ _ => rfl]
  exact Books.ext rfl rfl rfl rfl (update_eq_self _ _) rfl rfl rfl

end Queues

section Moves

@[simp] theorem books_dsqMoveLocal {src : DsqId} {slice : UInt64} :
    (s.dsqMoveLocal p src cpu slice).books = s.books := rfl

@[simp] theorem books_dispatchSlice {src : CpuCtx} {maxSlice : UInt64} :
    (s.dispatchSlice cfg p src k maxSlice).2.books = s.books :=
  readsTasks_books.dispatchSlice fun _ _ _ => rfl

@[simp] theorem books_setTaskVtime {vruntime : UInt64} :
    (s.updateEntity cpu k fun entity =>
      { entity with taskVtime := vtimeSetMax entity.taskVtime vruntime }).books = s.books :=
  books_updateEntity_same (by intro; rfl) (by intro; rfl)

theorem books_recordMoved {remote : Bool} :
    (s.recordMoved cfg p cpu k remote).books =
      (s.books.leaveQueue p).revise p fun e => { e with state := .dispatched } := by
  simp only [recordMoved]
  rw [books_updateTask (fun e => { e with state := .dispatched }) fun _ _ => rfl,
    books_setTaskVtime]
  cases remote with
  | true => rw [if_pos rfl, books_rebaseTask, books_taskQueueDec]
  | false => rw [if_neg (by decide), books_taskQueueDec]

theorem keeps_dispatchFromCpu (h : s.books.Sound) (srcCpu : Cpu) (remote : Bool)
    (maxSlice : UInt64) :
    Books.Keeps s.books (s.dispatchFromCpu cfg cpu srcCpu k remote maxSlice).2.books := by
  unfold dispatchFromCpu
  split
  · split
    · exact h.keeps_self
    · dsimp only
      split_ifs
      · rw [books_recordMoved, books_dsqMoveLocal, books_dispatchSlice]
        exact h.keeps_leave _ (fun _ => rfl) (fun _ _ => nofun) (fun _ _ => rfl) (fun _ _ => rfl)
          fun _ _ _ => rfl
      · rw [books_dispatchSlice]
        exact h.keeps_self
  · exact h.keeps_self

theorem books_acquireSourceClaim {s' : Sched T} {claim : UInt64}
    (h : s.acquireSourceClaim cpu claim = some s') : s'.books = s.books := by
  unfold acquireSourceClaim at h
  split_ifs at h
  cases h
  exact books_updateCpu (fun _ => rfl) fun _ => rfl

@[simp] theorem books_releaseSourceClaim {claim : UInt64} :
    (s.releaseSourceClaim cpu claim).books = s.books := by
  unfold releaseSourceClaim
  split_ifs
  · exact books_updateCpu (fun _ => rfl) fun _ => rfl
  · rfl

theorem keptByMoves_keeps (cfg : Config) (cpu : Cpu) (b : Books T) :
    KeptByMoves cfg cpu fun s => Books.Keeps b s.books where
  cursor _ h := h
  acquired hclaim h := by rwa [books_acquireSourceClaim hclaim]
  released _ _ h := by rwa [books_releaseSourceClaim]
  moved srcCpu _ remote maxSlice h := h.trans (keeps_dispatchFromCpu h.sound srcCpu remote maxSlice)

@[simp] theorem books_pickRemoteClass : (s.pickRemoteClass cfg cpu).2.2.books = s.books := by
  simp only [pickRemoteClass]
  split_ifs <;> split <;> simp

end Moves

end ScxAgent.Scheduler
