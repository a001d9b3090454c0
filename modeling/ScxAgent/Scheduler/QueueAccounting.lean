import ScxAgent.Scheduler.BookKeeping

/-!
# Queue accounting over whole runs

The kernel issues callbacks one after another and changes its own state, the rules included, in
between. After every callback the counters of the scheduler count its tasks, and a task keeps its
class while it runs.
-/

set_option linter.unusedSectionVars false

namespace ScxAgent.Scheduler

open Option Function Sched

variable {T : Type} [DecidableEq T] {cfg : Config} {s : Sched T} {p : T} {cpu : Cpu}
  {k : WorkloadClass} {s' : Sched T}

section Placement

theorem Books.Sound.keeps_of_eq {b b' : Books T} (h : b.Sound) (heq : b' = b) : Books.Keeps b b' :=
  heq ▸ h.keeps_self

theorem books_setHomeCpu (s : Sched T) (p : T) (cpu : Cpu) :
    (s.updateTask p fun tctx => { tctx with homeCpu := some cpu }).books = s.books :=
  books_updateTask_same (by intro _ _; rfl)

theorem books_taskHomeCpu (s : Sched T) (p : T) (tctx : TaskCtx) (prevCpu : Cpu) :
    (s.taskHomeCpu p tctx prevCpu).2.books = s.books := by
  unfold taskHomeCpu
  split
  · rfl
  · dsimp only
    split_ifs <;> first | exact books_setHomeCpu _ _ _ | rfl

theorem books_rebased {wakeup done : Bool} (h : s.rebaseTask cfg p cpu wakeup = (done, s')) :
    s'.books = s.books := by
  have hbooks : (s.rebaseTask cfg p cpu wakeup).2.books = s.books := books_rebaseTask
  rwa [h] at hbooks

/-- A task outside the queues is placed directly. -/
theorem keeps_placed (h : s.books.Sound)
    (hfree : ∀ e, s.books.entry p = some e → e.queuedCpu = none) (f : TaskCtx → TaskCtx)
    (hf : ∀ tctx, (f tctx).entry = { tctx.entry with state := .dispatched }) :
    Books.Keeps s.books (s.updateTask p f).books := by
  rw [books_updateTask (fun e => { e with state := .dispatched }) fun tctx _ => hf tctx]
  exact h.keeps_state (by decide) hfree

theorem keeps_selectCpu (h : s.books.Sound)
    (hfree : ∀ e, s.books.entry p = some e → e.queuedCpu = none) (prevCpu : Cpu) :
    Books.Keeps s.books (s.selectCpu cfg p prevCpu).2.books := by
  unfold selectCpu
  split
  · exact h.keeps_self
  · rename_i tctx htask
    have hhome := books_taskHomeCpu s p tctx prevCpu
    generalize s.taskHomeCpu p tctx prevCpu = home at hhome ⊢
    obtain ⟨prev, s₁⟩ := home
    dsimp only at hhome ⊢
    split
    · split_ifs
      · exact h.keeps_of_eq ((books_setHomeCpu _ _ _).trans hhome)
      · exact h.keeps_of_eq hhome
    · split
      · exact h.keeps_of_eq hhome
      · rename_i cpu _
        have hset := (books_setHomeCpu s₁ p cpu).trans hhome
        split_ifs
        · exact h.keeps_of_eq hset
        · split
          · rename_i hrebase
            exact h.keeps_of_eq ((books_rebased hrebase).trans hset)
          · rename_i s₂ hrebase
            have hbooks := (books_rebased hrebase).trans hset
            split_ifs
            · rw [← hbooks]
              exact keeps_placed (hbooks ▸ h) (hbooks ▸ hfree) _ fun _ => rfl
            · exact h.keeps_of_eq hbooks

theorem keeps_latencyTryDirectDispatch (h : s.books.Sound)
    (hfree : ∀ e, s.books.entry p = some e → e.queuedCpu = none) {prevCpu : Cpu} {flags : EnqFlags}
    {done : Bool} (hdirect : s.latencyTryDirectDispatch cfg p prevCpu flags = (done, s')) :
    if done then Books.Keeps s.books s'.books else s'.books = s.books := by
  unfold latencyTryDirectDispatch at hdirect
  split at hdirect
  · cases hdirect
    rfl
  · split at hdirect
    · rename_i hrebase
      cases hdirect
      exact books_rebased hrebase
    · rename_i s₁ hrebase
      have hbooks := books_rebased hrebase
      split_ifs at hdirect
      · cases hdirect
        rw [if_pos rfl, ← hbooks]
        exact keeps_placed (hbooks ▸ h) (hbooks ▸ hfree) _ fun _ => rfl
      · cases hdirect
        exact hbooks

theorem books_prepareTaskEnqueue {wakeup : Bool} {key : Option (UInt64 × UInt64)}
    (h : s.prepareTaskEnqueue cfg p cpu wakeup = (key, s')) : s'.books = s.books := by
  unfold prepareTaskEnqueue at h
  split at h <;> rename_i hrebase <;> cases h <;> exact books_rebased hrebase

theorem keeps_enqueueClass (h : s.books.Sound) {e : Entry} (he : s.books.entry p = some e)
    (hfree : e.queuedCpu = none) (hclass : e.classId = k) (hcpu : cpu < s.nrCpuIds)
    (flags : EnqFlags) : Books.Keeps s.books (s.enqueueClass cfg p k cpu flags).books := by
  unfold enqueueClass
  dsimp only
  generalize hs₁ : @ite _ _ (_) (s.activateClass cfg k) s = s₁
  have hactive : s₁.books = s.books := by
    rw [← hs₁]
    split_ifs <;> simp
  split
  · rename_i hprepare
    exact h.keeps_of_eq ((books_prepareTaskEnqueue hprepare).trans hactive)
  · rename_i s₂ hprepare
    have hbooks := (books_prepareTaskEnqueue hprepare).trans hactive
    have hnr : s₂.nrCpuIds = s.nrCpuIds := congrArg Books.nrCpuIds hbooks
    have hjoin := h.keeps_join he hfree hclass hcpu
    have hjoined : _ = s.books.joinQueue p cpu k :=
      hbooks ▸ books_joinQueue cfg s₂ p k (hnr ▸ hcpu)
    split_ifs
    · simpa only [books_kickCpu, books_arbitrateLockedCpu, hjoined] using hjoin
    · simpa only [books_arbitrateLockedCpu, hjoined] using hjoin
    · rw [books_updateTask (fun e => { e with state := .none }) fun _ _ => rfl, books_taskQueueDec,
        hjoined]
      refine hjoin.trans (hjoin.sound.keeps_leave _ (fun _ => rfl) (fun _ _ => nofun) (fun _ _ => rfl)
        (fun _ _ => rfl) fun _ _ _ => rfl)

theorem reconciled_unqueued (s : Sched T) (p : T) :
    ∀ e, (s.reconcileBeforeEnqueue p).books.entry p = some e → e.queuedCpu = none := by
  intro e he
  rw [books_reconcileBeforeEnqueue, Books.revise_entry_self, map_eq_some_iff] at he
  obtain ⟨e', -, rfl⟩ := he
  rfl

theorem keeps_enqueue (h : s.books.Sound) (flags : EnqFlags) :
    Books.Keeps s.books (s.enqueue cfg p flags).books := by
  unfold enqueue
  split
  · exact h.keeps_self
  · dsimp only
    have hreconciled : Books.Keeps s.books (s.reconcileBeforeEnqueue p).books := by
      rw [books_reconcileBeforeEnqueue]
      exact h.keeps_leave _ (fun _ => rfl) (fun _ _ => nofun) (fun _ _ => rfl) (fun _ _ => rfl)
        fun _ _ _ => rfl
    have hkeeps := hreconciled.trans (keeps_refreshTaskClass cfg p hreconciled.sound false)
    have hfree := refreshTaskClass_unqueued cfg false (reconciled_unqueued s p)
    generalize ((s.reconcileBeforeEnqueue p).refreshTaskClass cfg p false).2 = s₁ at hkeeps hfree ⊢
    split
    · exact hkeeps
    · rename_i tctx htask
      generalize hs₂ : @ite _ _ (_) (s₁.updateTask p _) s₁ = s₂
      have hhome : s₂.books = s₁.books := by
        rw [← hs₂]
        split_ifs
        · exact books_setHomeCpu _ _ _
        · rfl
      have hentry : s₂.books.entry p = some tctx.entry := by rw [hhome, books_entry, htask]; rfl
      have hsound : s₂.books.Sound := hhome ▸ hkeeps.sound
      have hunqueued : ∀ e, s₂.books.entry p = some e → e.queuedCpu = none := hhome ▸ hfree
      have hhomed : Books.Keeps s.books s₂.books := hhome ▸ hkeeps
      split_ifs with hallowed
      · exact hhomed
      · have hcpu : s₁.kernel.taskCpu p < s₂.nrCpuIds := by
          simp only [taskCpuAllowed, Bool.not_eq_true', Bool.not_eq_false,
            Bool.and_eq_true, decide_eq_true_eq] at hallowed
          exact hallowed.1
        split
        · rename_i hclass
          split
          · rename_i s₃ hdirect
            exact hhomed.trans (by
              simpa using keeps_latencyTryDirectDispatch hsound hunqueued hdirect)
          · rename_i s₃ hdirect
            have hbooks : s₃.books = s₂.books := by
              simpa using keeps_latencyTryDirectDispatch hsound hunqueued hdirect
            have hnr : s₃.nrCpuIds = s₂.nrCpuIds := congrArg Books.nrCpuIds hbooks
            rw [← hbooks] at hhomed hsound hentry hunqueued
            exact hhomed.trans (keeps_enqueueClass hsound hentry (hunqueued _ hentry) hclass
              (hnr ▸ hcpu) flags)
        · rename_i hclass
          exact hhomed.trans (keeps_enqueueClass hsound hentry (hunqueued _ hentry) hclass hcpu flags)

end Placement

variable {tctx : TaskCtx}

section Departure

theorem keeps_dequeue (h : s.books.Sound) (flags : DeqFlags) :
    Books.Keeps s.books (s.dequeue p flags).books := by
  unfold dequeue
  split
  · exact h.keeps_self
  · rename_i tctx htask
    have hsettled := h.settled p tctx.entry (by rw [books_entry, htask]; rfl)
    by_cases hstate : tctx.state = .enqueued
    · rw [if_pos hstate]
      rw [books_updateTask (fun e => { e with state :=
          if flags.sleep || flags.coreSchedExec || flags.schedChange then .none else .dispatched })
        fun _ _ => rfl, books_taskQueueDec]
      refine h.keeps_leave _ (fun _ => rfl) (fun _ _ => ?_) (fun _ _ => rfl) (fun _ _ => rfl)
        fun _ _ _ => rfl
      dsimp only
      split_ifs <;> decide
    · rw [if_neg hstate]
      split_ifs
      · rw [books_updateTask (fun e => { e with state := .none }) fun _ _ => rfl]
        refine h.keeps_state (by decide) fun e he => ?_
        rw [books_entry, htask, map_some, some.injEq] at he
        rw [← he]
        by_contra hqueued
        exact hstate (hsettled.enqueued.mpr hqueued)
      · exact h.keeps_self

/-- The state alone tells whether a task is in a queue. -/
theorem books_leftIfEnqueued (h : s.books.Sound) (htask : s.tasks p = some tctx) :
    (if tctx.state = .enqueued then s.taskQueueDec p else s).books = s.books.leaveQueue p := by
  have hsettled := h.settled p tctx.entry (by rw [books_entry, htask]; rfl)
  have howned : tctx.queueOwned = true ↔ tctx.state = .enqueued := by
    constructor
    · intro howned
      simp only [TaskCtx.queueOwned, Bool.or_eq_true, decide_eq_true_eq] at howned
      rcases howned with hstate | hqueued
      · exact hstate
      · exact hsettled.enqueued.mpr (isSome_iff_ne_none.mp hqueued)
    · intro hstate
      simp [TaskCtx.queueOwned, hstate]
  rw [← books_reconciled htask]
  by_cases hstate : tctx.state = .enqueued
  · rw [if_pos hstate, if_pos (howned.mpr hstate)]
  · rw [if_neg hstate, if_neg (mt howned.mp hstate)]

theorem keeps_quiescent (h : s.books.Sound) (flags : DeqFlags) :
    Books.Keeps s.books (s.quiescent cfg p flags).books := by
  unfold quiescent
  split
  · exact h.keeps_self
  · rename_i tctx htask
    have hleft := books_leftIfEnqueued h htask
    dsimp only
    generalize (if tctx.state = .enqueued then s.taskQueueDec p else s) = s₁ at hleft ⊢
    rw [books_updateTask (fun e => { e with state := .none, queuedCpu := none }) fun _ _ => rfl]
    have hslept : (if flags.sleep = true then
        s₁.updateTask p (s₁.sleepTask cfg (s₁.kernel.task p)) else s₁).books = s₁.books := by
      split_ifs
      · refine books_updateTask_same fun tctx _ => ?_
        unfold sleepTask
        split
        · exact entry_latencySaveSleepVlag _ _
        · rfl
      · rfl
    rw [hslept, hleft]
    exact h.keeps_leave _ (fun _ => rfl) (fun _ _ => nofun) (fun _ _ => rfl) (fun _ _ => rfl)
      fun _ _ _ => rfl

theorem keeps_disable (h : s.books.Sound) : Books.Keeps s.books (s.disable cfg p).books := by
  unfold disable
  split
  · exact h.keeps_self
  · rename_i tctx htask
    dsimp only
    rw [books_updateTask (fun e => { e with state := .none, queuedCpu := none }) fun _ _ => rfl,
      books_leftIfEnqueued h htask]
    exact h.keeps_leave _ (fun _ => rfl) (fun _ _ => nofun) (fun _ _ => rfl) (fun _ _ => rfl)
      fun _ _ _ => rfl

theorem keeps_runnable (h : s.books.Sound) (flags : EnqFlags) :
    Books.Keeps s.books (s.runnable cfg p flags).books := by
  unfold runnable
  split
  · exact h.keeps_self
  · have hkeeps := keeps_refreshTaskClass cfg p h true
    dsimp only
    rw [books_updateTask_same]
    · exact hkeeps
    · intro tctx _
      split_ifs <;> rfl

end Departure

section Dispatching

/-- A batch task that starts another epoch in place goes on being clocked. -/
theorem books_renewBatch (hclock : s.books.clock ≠ 0) (htask : s.tasks p = some tctx)
    (hrun : tctx.lastRunAt ≠ 0) (elapsed : UInt64) :
    (s.renewBatch cfg cpu p elapsed).2.books = s.books := by
  have hcharged : (s.chargeRuntime cfg p cpu elapsed true).2.books = s.books := books_chargeRuntime
  unfold renewBatch
  generalize s.chargeRuntime cfg p cpu elapsed true = charged at hcharged ⊢
  obtain ⟨done, s₁⟩ := charged
  cases done with
  | false => exact hcharged
  | true =>
    dsimp only at hcharged ⊢
    have hentry : s₁.books.entry p = some tctx.entry := by rw [hcharged, books_entry, htask]; rfl
    have htime : s₁.kernel.ktimeGetNs ≠ 0 := by
      have hsame : s₁.kernel.ktimeGetNs = s.kernel.ktimeGetNs := congrArg Books.clock hcharged
      rw [hsame]
      exact hclock
    have hsince : (s₁.updateCpu cpu fun cpuc =>
        { cpuc with runningSince := s₁.kernel.ktimeGetNs }).books = s₁.books :=
      books_updateCpu (fun _ => rfl) fun _ => rfl
    generalize hs₂ : (s₁.updateCpu cpu _).updateTask p _ = s₂
    have hclocked : s₂.books = s.books := by
      rw [← hs₂]
      refine (books_updateTask_same fun found hfound => ?_).trans (hsince.trans hcharged)
      have hsame : found.entry = tctx.entry := by
        have hfound' : s₁.books.entry p = some found.entry := by
          rw [books_entry]
          exact congrArg (Option.map TaskCtx.entry) hfound
        exact Option.some.inj (hfound'.symm.trans hentry)
      have hold : (found.lastRunAt != 0) = true := by
        have htimed : (found.lastRunAt != 0) = (tctx.lastRunAt != 0) := congrArg Entry.timed hsame
        rw [htimed]
        simpa using hrun
      have hnew : (s₁.kernel.ktimeGetNs != 0) = true := by simpa using htime
      simp only [TaskCtx.entry, hold, hnew]
    split
    · exact hclocked
    · rename_i tctx₂ htask₂
      have hgranted (cpuc : CpuCtx) : ((s₂.updateEntity cpu .batch fun entity =>
          { entity with taskVtime := vtimeSetMax entity.taskVtime tctx₂.vruntime }).updateTask p
          fun _ => (batchStartEpoch cfg tctx₂ cpuc false).2).books = s.books := by
        refine (books_updateTask_same fun found hfound => ?_).trans
          (books_setTaskVtime.trans hclocked)
        obtain rfl : tctx₂ = found := some.inj (htask₂.symm.trans hfound)
        exact entry_batchStartEpoch tctx₂ cpuc false
      split_ifs
      · exact hgranted _
      · rw [books_arbitrateLockedCpu, books_taskSetSlice]
        exact hgranted _

theorem books_tryKeepRunning (hclock : s.books.clock ≠ 0) (prev : Option T)
    (workConserving : Bool) :
    (s.tryKeepRunning cfg cpu prev workConserving).2.books = s.books := by
  unfold tryKeepRunning
  split
  · split_ifs
    · rfl
    · split
      · rfl
      · rename_i tctx htask
        split_ifs with hrun
        · rfl
        · rfl
        · rfl
        · split
          · simp only [keepLatency]
            split_ifs <;> simp
          · simp only [keepBatch]
            split_ifs
            · simp
            · rfl
            · exact books_renewBatch hclock htask (fun h0 => hrun (.inl h0)) _
  · rfl

theorem keeps_dispatchRest (h : s.books.Sound) (hclock : s.books.clock ≠ 0) (prev : Option T)
    (current : Option WorkloadClass) (busy : Bool) :
    Books.Keeps s.books (s.dispatchRest cfg cpu prev current busy).books := by
  unfold dispatchRest
  generalize hs₁ : @ite _ _ (_) (s.tryKeepRunning cfg cpu prev true) (false, s) = kept
  have hkept : kept.2.books = s.books := by
    rw [← hs₁]
    split_ifs
    · exact books_tryKeepRunning hclock prev true
    · rfl
  obtain ⟨kept, s₁⟩ := kept
  dsimp only at hkept ⊢
  split_ifs
  · exact h.keeps_of_eq hkept
  · rw [books_kickCpu]
    exact h.keeps_of_eq hkept
  · exact h.keeps_of_eq hkept
  · have hpicked : (s₁.pickRemoteClass cfg cpu).2.2.books = s.books :=
      books_pickRemoteClass.trans hkept
    rw [← hpicked] at h ⊢
    exact (keptByMoves_keeps cfg cpu _).stealAny h.keeps_self _

theorem keeps_dispatch (h : s.books.Sound) (hclock : s.books.clock ≠ 0) (prev : Option T) :
    Books.Keeps s.books (s.dispatch cfg cpu prev).books := by
  unfold dispatch
  split
  · exact h.keeps_self
  · rename_i cpuc hcpu
    dsimp only
    generalize decideClass cfg cpuc s.kernel.ktimeGetNs _ = decision
    split
    · exact keeps_dispatchRest h hclock prev _ false
    · rename_i winner hwinner
      generalize hs₁ : @ite _ _ (_) (s.tryKeepRunning cfg cpu prev false) (false, s) = kept
      have hkept : kept.2.books = s.books := by
        rw [← hs₁]
        split_ifs
        · exact books_tryKeepRunning hclock prev false
        · rfl
      obtain ⟨kept, s₁⟩ := kept
      dsimp only at hkept ⊢
      split_ifs
      · exact h.keeps_of_eq hkept
      · rw [← hkept] at h ⊢
        have hown : Books.Keeps s₁.books (s₁.dispatchOwn cfg cpu decision).2.2.books :=
          (keptByMoves_keeps cfg cpu _).dispatchOwn h.keeps_self decision
        have hclock' : (s₁.dispatchOwn cfg cpu decision).2.2.books.clock ≠ 0 := by
          rw [hown.clock, hkept]
          exact hclock
        generalize s₁.dispatchOwn cfg cpu decision = own at hown hclock' ⊢
        obtain ⟨moved, busy, s₂⟩ := own
        cases moved with
        | true => exact hown
        | false => exact hown.trans (keeps_dispatchRest hown.sound hclock' prev _ busy)

end Dispatching

section Running

theorem books_startSlice (s : Sched T) (p : T) (cpu : Cpu) :
    (s.startSlice cfg p cpu).books = s.books := by
  unfold startSlice
  split
  · rfl
  · rename_i tctx htask
    split
    · dsimp only
      have hgranted : (s.updateTask p fun _ => (batchStartEpoch cfg tctx (s.cpus cpu) true).2).books =
          s.books := by
        refine books_updateTask_same fun found hfound => ?_
        obtain rfl : tctx = found := some.inj (htask.symm.trans hfound)
        exact entry_batchStartEpoch tctx _ true
      split_ifs
      · exact hgranted
      · exact hgranted
      · exact hgranted
      · exact hgranted
    · dsimp only
      split_ifs <;> rfl

theorem books_updateCpu_congr {f g : CpuCtx → CpuCtx}
    (h : (f (s.cpus cpu)).entity = (g (s.cpus cpu)).entity) :
    (s.updateCpu cpu f).books = (s.updateCpu cpu g).books := by
  refine Books.ext rfl ?_ ?_ rfl rfl rfl rfl rfl
  all_goals
    funext ⟨c, k⟩
    by_cases hc : c = cpu
    · subst hc
      simp [books, updateCpu, h]
    · simp [books, updateCpu, hc]

theorem books_recordRunning (s : Sched T) (p : T) (cpu : Cpu) (k : WorkloadClass) :
    (s.recordRunning p cpu k).books = s.books.startRun p cpu k := by
  have hentity (s : Sched T) (now vruntime : UInt64) : (s.updateCpu cpu fun cpuc =>
      { cpuc.updateEntity k fun entity =>
          { entity with
            taskVtime := vtimeSetMax entity.taskVtime vruntime
            nrRunning := entity.nrRunning + 1 } with
        runningSince := now
        runningClass := some k }).books =
      { s.books with
        running := update s.books.running (cpu, k) (s.books.running (cpu, k) + 1) } := by
    refine (books_updateCpu_congr (g := fun cpuc => cpuc.updateEntity k fun entity =>
      { entity with
        taskVtime := vtimeSetMax entity.taskVtime vruntime
        nrRunning := entity.nrRunning + 1 }) rfl).trans ?_
    refine (books_updateEntity _).trans ?_
    exact Books.ext rfl (update_eq_self _ _) rfl rfl rfl rfl rfl rfl
  unfold recordRunning
  dsimp only
  rw [books_updateClass, hentity, books_updateTask (fun e => { e with
    runningCpu := some cpu, queuedCpu := none, state := .none, timed := s.books.clock != 0 })
    fun _ _ => rfl]
  exact Books.ext rfl rfl rfl (update_eq_self _ _) rfl rfl rfl rfl

theorem books_recordStopped (s : Sched T) (p : T) (cpu : Cpu) (k : WorkloadClass) :
    (s.recordStopped p cpu k).books = s.books.stopRun p cpu k := by
  unfold recordStopped
  dsimp only
  rw [books_updateTask (fun e => { e with runningCpu := none, timed := false }) fun _ _ => rfl,
    books_noteUnderflow, books_updateClass, books_noteUnderflow, books_updateEntity]
  have hclasses : ((s.updateEntity cpu k fun entity =>
      { entity with nrRunning := entity.nrRunning - 1 }).noteUnderflow
        ((s.cpus cpu).entity k).nrRunning).classes = s.classes := by
    unfold noteUnderflow
    split_ifs <;> rfl
  rw [hclasses]
  exact Books.ext rfl (update_eq_self _ _) rfl (update_eq_self _ _) rfl rfl rfl rfl

/-- A task that starts to run leaves the queue it may be in. -/
theorem books_running (htask : s.tasks p = some tctx) (hcpu : s.kernel.taskCpu p < s.nrCpuIds) :
    (s.running cfg p).books =
      (s.books.leaveQueue p).startRun p (s.kernel.taskCpu p) tctx.classId := by
  unfold running lookupCpuCtx
  rw [htask]
  dsimp only
  rw [if_pos hcpu]
  dsimp only
  rw [books_arbitrateLockedCpu, books_recordRunning]
  have hactive (s' : Sched T) (k : WorkloadClass) :
      (if (s'.classes k).nrQueued = 0 ∧ (s'.classes k).nrRunning = 0 then s'.activateClass cfg k
        else s').books = s'.books := by
    split_ifs <;> simp
  rw [hactive, books_startSlice, books_rebaseTask, books_reconciled htask]

theorem books_stopping (htask : s.tasks p = some tctx) (htimed : tctx.lastRunAt ≠ 0)
    (hrunning : tctx.runningCpu = some cpu) (hcpu : cpu < s.nrCpuIds) (runnable : Bool) :
    (s.stopping cfg p runnable).books = s.books.stopRun p cpu tctx.classId := by
  unfold stopping
  rw [htask]
  dsimp only
  rw [if_neg htimed, hrunning, filter_some_pos (by simpa using hcpu)]
  dsimp only
  rw [books_recordStopped]
  congr 1
  have hreset (s' : Sched T) : (if tctx.classId = .batch ∧ runnable = false then
      s'.updateTask p (resetBatchEpoch cfg) else s').books = s'.books := by
    split_ifs
    · exact books_updateTask_same (by intro _ _; rfl)
    · rfl
  rw [hreset]
  unfold advanceTaskVtime
  dsimp only
  rw [books_setTaskVtime, books_chargeRuntime]
  exact books_updateCpu (fun _ => rfl) fun _ => rfl

end Running

section Lifecycle

theorem resetTaskState_settled (cfg : Config) : (resetTaskState cfg).entry.Settled :=
  ⟨⟨nofun, fun h => absurd rfl h⟩, ⟨nofun, fun h => absurd rfl h⟩⟩

theorem keeps_enable (h : s.books.Sound)
    (hfree : ∀ e, s.books.entry p = some e → e.runningCpu = none) :
    Books.Keeps s.books (s.enable cfg p).books := by
  unfold enable
  split
  · exact h.keeps_self
  · rename_i tctx htask
    dsimp only
    have hreset : ((if tctx.state = .enqueued then s.taskQueueDec p else s).updateTask p
        fun _ => resetTaskState cfg).books =
        (s.books.leaveQueue p).revise p fun _ => (resetTaskState cfg).entry := by
      rw [books_updateTask (fun _ => (resetTaskState cfg).entry) fun _ _ => rfl,
        books_leftIfEnqueued h htask]
    have hkeeps : Books.Keeps s.books ((s.books.leaveQueue p).revise p
        fun _ => (resetTaskState cfg).entry) := by
      refine h.keeps_leave _ (fun _ => rfl) (fun _ _ => nofun) (fun e he => ?_)
        (fun e he => (hfree e he).symm) fun e he hne => absurd (hfree e he) hne
      have htimed := (h.settled p e he).timed
      rw [hfree e he] at htimed
      simpa [resetTaskState, TaskCtx.entry] using htimed.symm
    rw [← hreset] at hkeeps
    exact hkeeps.trans (keeps_refreshTaskClass cfg p hkeeps.sound true)

/-- A context of its own for `p`, in its initial state. -/
theorem books_admitted (s : Sched T) (p : T) (tctx : TaskCtx) :
    ({ s with tasks := update s.tasks p (some tctx) } : Sched T).books =
      { s.books with entry := update s.books.entry p (some tctx.entry) } := by
  refine Books.ext ?_ rfl rfl rfl rfl rfl rfl rfl
  funext t
  by_cases ht : t = p
  · subst ht
    simp [books]
  · simp [books, ht]

end Lifecycle

variable {p : T}

section Runs

inductive Callback (T : Type) where
  | selectCpu (p : T) (prevCpu : Cpu)
  | enqueue (p : T) (flags : EnqFlags)
  | dequeue (p : T) (flags : DeqFlags)
  | dispatch (cpu : Cpu) (prev : Option T)
  | running (p : T)
  | stopping (p : T) (runnable : Bool)
  | runnable (p : T) (flags : EnqFlags)
  | quiescent (p : T) (flags : DeqFlags)
  | enable (p : T)
  | disable (p : T)
  | initTask (p : T) (created : Bool)

def Callback.run (cfg : Config) (s : Sched T) : Callback T → Sched T
  | .selectCpu p prevCpu => (s.selectCpu cfg p prevCpu).2
  | .enqueue p flags => s.enqueue cfg p flags
  | .dequeue p flags => s.dequeue p flags
  | .dispatch cpu prev => s.dispatch cfg cpu prev
  | .running p => s.running cfg p
  | .stopping p again => s.stopping cfg p again
  | .runnable p flags => s.runnable cfg p flags
  | .quiescent p flags => s.quiescent cfg p flags
  | .enable p => s.enable cfg p
  | .disable p => s.disable cfg p
  | .initTask p created => s.initTask cfg p created

/-- The scheduler and the kernel's own view of which task runs where. -/
structure Host (T : Type) where
  sched : Sched T
  onCpu : T → Option Cpu

/-- Only `running` and `stopping` report that a task starts or stops. -/
def Host.moved (h : Host T) : Callback T → T → Option Cpu
  | .running p => Function.update h.onCpu p (some (h.sched.kernel.taskCpu p))
  | .stopping p _ => Function.update h.onCpu p none
  | _ => h.onCpu

/-- When the kernel issues a callback: a CPU is selected only for a task that is not queued, running
and stopping alternate, and a task is initialised or enabled only while it does not run. -/
def Host.Issues (h : Host T) : Callback T → Prop
  | .selectCpu p _ => ∀ tctx, h.sched.tasks p = some tctx → tctx.state ≠ .enqueued
  | .running p => h.onCpu p = none ∧ h.sched.kernel.taskCpu p < h.sched.nrCpuIds
  | .stopping p _ => h.onCpu p ≠ none
  | .enable p => h.onCpu p = none
  | .initTask p _ => h.onCpu p = none ∧ ∀ tctx, h.sched.tasks p = some tctx → tctx.state ≠ .enqueued
  | _ => True

/-- The host after the kernel has issued a callback. -/
def Host.after (cfg : Config) (h : Host T) (c : Callback T) : Host T where
  sched := c.run cfg h.sched
  onCpu := h.moved c

/-- One callback at a time, at a time after boot; between callbacks the kernel and the rules change
freely. -/
inductive Host.Next (cfg : Config) (h : Host T) : Host T → Prop
  | callback (c : Callback T) (hissues : h.Issues c) (hclock : h.sched.kernel.ktimeGetNs ≠ 0) :
      Host.Next cfg h (h.after cfg c)
  | kernel (kernel : Kernel T) :
      Host.Next cfg h { h with sched := { h.sched with kernel := kernel } }

/-- The scheduler after `init`: no task and every counter at zero. -/
structure Host.Fresh (h : Host T) : Prop where
  tasks : ∀ p, h.sched.tasks p = none
  cpus : ∀ cpu k, ((h.sched.cpus cpu).entity k).nrQueued = 0 ∧
    ((h.sched.cpus cpu).entity k).nrRunning = 0
  classes : ∀ k, (h.sched.classes k).nrQueued = 0 ∧ (h.sched.classes k).nrRunning = 0
  underflows : h.sched.underflows = 0
  onCpu : ∀ p, h.onCpu p = none

def Sched.classOf (s : Sched T) (p : T) : Option WorkloadClass := (s.tasks p).map TaskCtx.classId

/-- The tasks recorded as queued on a CPU in a class. -/
def Host.queuedOn (h : Host T) (cpu : Cpu) (k : WorkloadClass) : Set T :=
  {p | ∃ tctx, h.sched.tasks p = some tctx ∧ tctx.queuedCpu = some cpu ∧ tctx.classId = k}

/-- The tasks of a class that run on a CPU. -/
def Host.runningOn (h : Host T) (cpu : Cpu) (k : WorkloadClass) : Set T :=
  {p | ∃ tctx, h.sched.tasks p = some tctx ∧ h.onCpu p = some cpu ∧ tctx.classId = k}

/-- What the counters are to say of the tasks. -/
structure Host.Accounted (h : Host T) : Prop where
  queued : ∀ cpu k, (h.queuedOn cpu k).Finite ∧
    ((h.sched.cpus cpu).entity k).nrQueued = (h.queuedOn cpu k).ncard
  total : ∀ k, (h.sched.classes k).nrQueued =
    ∑ cpu ∈ Finset.range h.sched.nrCpuIds, ((h.sched.cpus cpu).entity k).nrQueued
  enqueued : ∀ p tctx, h.sched.tasks p = some tctx →
    (tctx.state = .enqueued ↔ tctx.queuedCpu ≠ none)
  running : ∀ cpu k, (h.runningOn cpu k).Finite ∧
    ((h.sched.cpus cpu).entity k).nrRunning = (h.runningOn cpu k).ncard
  underflows : h.sched.underflows = 0

structure Host.Sound (h : Host T) : Prop where
  books : h.sched.books.Sound
  runs : ∀ p e, h.sched.books.entry p = some e → e.runningCpu = h.onCpu p

variable {h h' : Host T}

theorem Host.Fresh.sound (hfresh : h.Fresh) : h.Sound := by
  have hentry (p : T) : h.sched.books.entry p = none := by simp [books_entry, hfresh.tasks p]
  have hnone : (∀ p e, h.sched.books.entry p = some e → False) := fun p e he => by
    rw [hentry p] at he
    cases he
  have hqueued (key : Cpu × WorkloadClass) : h.sched.books.queued key = 0 :=
    (hfresh.cpus key.1 key.2).1
  have hrunning (key : Cpu × WorkloadClass) : h.sched.books.running key = 0 :=
    (hfresh.cpus key.1 key.2).2
  refine ⟨⟨⟨?_, ?_, ?_, ?_, ?_, ?_, hfresh.underflows⟩, fun p e he => (hnone p e he).elim⟩,
    fun p e he => (hnone p e he).elim⟩
  · exact Tallies.empty.congr (fun p => by simp [Books.queuedAt, hentry p]) hqueued
  · exact Tallies.empty.congr (fun p => by simp [Books.runningAt, hentry p]) hrunning
  · intro k
    rw [Finset.sum_eq_zero fun key _ => hqueued key]
    exact (hfresh.classes k).1
  · intro k
    rw [Finset.sum_eq_zero fun key _ => hrunning key]
    exact (hfresh.classes k).2
  · exact fun p e _ he => (hnone p e he).elim
  · exact fun p e _ he => (hnone p e he).elim

/-- What the records say of a task that is not in state enqueued. -/
theorem Host.Sound.unqueued (hsound : h.Sound)
    (hstate : ∀ tctx, h.sched.tasks p = some tctx → tctx.state ≠ .enqueued) :
    ∀ e, h.sched.books.entry p = some e → e.queuedCpu = none := by
  intro e he
  have hsettled := hsound.books.settled p e he
  rw [books_entry, map_eq_some_iff] at he
  obtain ⟨tctx, htask, rfl⟩ := he
  by_contra hqueued
  exact hstate tctx htask (hsettled.enqueued.mpr hqueued)

/-- What a step leaves behind: the books are sound, and a task that ran has its class. -/
structure Host.Keeps (h h' : Host T) : Prop where
  sound : h'.Sound
  classes : ∀ p, h.onCpu p ≠ none → h'.sched.classOf p = h.sched.classOf p

/-- Two schedulers whose entries for a task agree on the class. -/
theorem classOf_congr
    (h : (s'.books.entry p).map Entry.classId = (s.books.entry p).map Entry.classId) :
    s'.classOf p = s.classOf p := by
  simpa [books_entry, classOf, map_map, comp_def, TaskCtx.entry] using h

section Sound

variable (hsound : h.Sound)
include hsound

/-- Callbacks that start and stop nobody. -/
theorem Host.Sound.kept (hkeeps : Books.Keeps h.sched.books s'.books) :
    Host.Keeps h { h with sched := s' } where
  sound := by
    refine ⟨hkeeps.sound, fun p e he => ?_⟩
    cases hentry : h.sched.books.entry p with
    | none =>
      rw [hkeeps.unknown p hentry] at he
      cases he
    | some e₀ =>
      obtain ⟨e', he', hrun, -⟩ := hkeeps.known p e₀ hentry
      obtain rfl : e = e' := some.inj (he.symm.trans he')
      exact hrun.trans (hsound.runs p e₀ hentry)
  classes p hruns := by
    refine classOf_congr ?_
    cases hentry : h.sched.books.entry p with
    | none => rw [hkeeps.unknown p hentry]
    | some e₀ =>
      obtain ⟨e', he', -, hclass⟩ := hkeeps.known p e₀ hentry
      rw [he', map_some, hclass (by rwa [hsound.runs p e₀ hentry]), map_some]

/-- Callbacks that start or stop one task. -/
theorem Host.Sound.placed {place : Option Cpu} (hbooks : s'.books.Sound) (f : Entry → Entry)
    (hentry : s'.books.entry = (h.sched.books.revise p f).entry)
    (hplace : ∀ e, (f e).runningCpu = place) (hclass : ∀ e, (f e).classId = e.classId) :
    Host.Keeps h { sched := s', onCpu := update h.onCpu p place } where
  sound := by
    refine ⟨hbooks, fun t e he => ?_⟩
    dsimp only at he ⊢
    rw [hentry] at he
    by_cases ht : t = p
    · subst ht
      rw [Books.revise_entry_self, map_eq_some_iff] at he
      obtain ⟨e', -, rfl⟩ := he
      rw [update_self, hplace]
    · rw [Books.revise_entry_of_ne f ht] at he
      rw [update_of_ne ht]
      exact hsound.runs t e he
  classes t _ := by
    refine classOf_congr ?_
    dsimp only
    rw [hentry]
    by_cases ht : t = p
    · subst ht
      rw [Books.revise_entry_self, map_map]
      exact congrArg (Option.map · _) (funext hclass)
    · rw [Books.revise_entry_of_ne f ht]

/-- A task without a context is not accounted for. -/
theorem Host.Sound.unplaced (htask : h.sched.tasks p = none) (place : Option Cpu)
    : Host.Keeps h { h with onCpu := update h.onCpu p place } := by
  have hentry : h.sched.books.entry p = none := by rw [books_entry, htask]; rfl
  refine ⟨⟨hsound.books, fun t e he => ?_⟩, fun _ _ => rfl⟩
  have ht : t ≠ p := by
    rintro rfl
    cases hentry.symm.trans he
  exact (hsound.runs t e he).trans (update_of_ne ht _ _).symm

theorem Host.Sound.running (hclock : h.sched.kernel.ktimeGetNs ≠ 0)
    (hissues : h.Issues (.running p)) :
    Host.Keeps h { sched := h.sched.running cfg p, onCpu := h.moved (.running p) } := by
  obtain ⟨hfree, hcpu⟩ := hissues
  cases htask : h.sched.tasks p with
  | none =>
    have hsame : h.sched.running cfg p = h.sched := by simp [Sched.running, htask]
    rw [hsame]
    exact hsound.unplaced htask _
  | some tctx =>
    have hentry : h.sched.books.entry p = some tctx.entry := by rw [books_entry, htask]; rfl
    have hbooks : (h.sched.running cfg p).books = _ := books_running htask hcpu
    have hstart : (h.sched.running cfg p).books.Sound := by
      rw [hbooks]
      exact hsound.books.start hclock hentry ((hsound.runs p _ hentry).trans hfree) rfl hcpu
    refine hsound.placed hstart (fun e => { e with
      runningCpu := some (h.sched.kernel.taskCpu p)
      queuedCpu := none
      state := .none
      timed := (h.sched.books.leaveQueue p).clock != 0 }) ?_ (fun _ => rfl) fun _ => rfl
    rw [hbooks]
    exact Books.leaveQueue_revise_entry _

theorem Host.Sound.stopping (again : Bool) (hissues : h.Issues (.stopping p again)) :
    Host.Keeps h { sched := h.sched.stopping cfg p again, onCpu := h.moved (.stopping p again) } := by
  cases htask : h.sched.tasks p with
  | none =>
    have hsame : h.sched.stopping cfg p again = h.sched := by simp [Sched.stopping, htask]
    rw [hsame]
    exact hsound.unplaced htask _
  | some tctx =>
    have hentry : h.sched.books.entry p = some tctx.entry := by rw [books_entry, htask]; rfl
    have hruns : tctx.runningCpu = h.onCpu p := hsound.runs p _ hentry
    obtain ⟨cpu, hcpu⟩ := ne_none_iff_exists'.mp hissues
    rw [hcpu] at hruns
    have htimed : tctx.lastRunAt ≠ 0 := by
      have hclocked := (hsound.books.settled p _ hentry).timed.mpr (by simp [TaskCtx.entry, hruns])
      simpa [TaskCtx.entry] using hclocked
    have honline : cpu < h.sched.nrCpuIds := hsound.books.balanced.runningOnline p _ cpu hentry hruns
    have hbooks : (h.sched.stopping cfg p again).books = _ :=
      books_stopping htask htimed hruns honline again
    have hstop : (h.sched.stopping cfg p again).books.Sound := by
      rw [hbooks]
      exact hsound.books.stop hentry hruns rfl
    refine hsound.placed hstop (fun e => { e with runningCpu := none, timed := false }) ?_
      (fun _ => rfl) fun _ => rfl
    rw [hbooks]
    rfl

theorem Host.Sound.initTask (created : Bool) (hissues : h.Issues (.initTask p created)) :
    Host.Keeps h { h with sched := h.sched.initTask cfg p created } := by
  obtain ⟨hfree, hstate⟩ := hissues
  unfold Sched.initTask
  split_ifs with hmemory
  · exact hsound.kept hsound.books.keeps_self
  · dsimp only
    have hadmitted := books_admitted h.sched p (resetTaskState cfg)
    have hbooks := hsound.books.admit
      (fun e he => ⟨hsound.unqueued hstate e he, (hsound.runs p e he).trans hfree⟩)
      (e := (resetTaskState cfg).entry) rfl rfl (resetTaskState_settled cfg)
    rw [← hadmitted] at hbooks
    have hother {t : T} (ht : t ≠ p) :
        ({ h.sched with tasks := update h.sched.tasks p (some (resetTaskState cfg)) } :
          Sched T).books.entry t = h.sched.books.entry t := by
      rw [hadmitted]
      exact update_of_ne ht _ _
    have hreset : Host.Sound { h with sched :=
        { h.sched with tasks := update h.sched.tasks p (some (resetTaskState cfg)) } } := by
      refine ⟨hbooks, fun t e he => ?_⟩
      by_cases ht : t = p
      · subst ht
        rw [hadmitted] at he
        obtain rfl : (resetTaskState cfg).entry = e := by simpa using he
        exact hfree.symm
      · exact hsound.runs t e ((hother ht).symm.trans he)
    have hkept := hreset.kept (keeps_refreshTaskClass cfg p hbooks true)
    refine ⟨hkept.sound, fun t hruns => (hkept.classes t hruns).trans (classOf_congr ?_)⟩
    have ht : t ≠ p := by
      rintro rfl
      exact hruns hfree
    rw [hother ht]

/-- Every step keeps the books. -/
theorem Host.Sound.next (hnext : h.Next cfg h') : h.Keeps h' := by
  cases hnext with
  | kernel kernel =>
    refine ⟨⟨⟨?_, hsound.books.settled⟩, hsound.runs⟩, fun _ _ => rfl⟩
    have hbalanced := hsound.books.balanced
    exact ⟨hbalanced.queued, hbalanced.running, hbalanced.queuedTotal, hbalanced.runningTotal,
      hbalanced.queuedOnline, hbalanced.runningOnline, hbalanced.underflows⟩
  | callback c hissues hclock =>
    have hfree {p : T} (hp : h.onCpu p = none) (e : Entry)
        (he : h.sched.books.entry p = some e) : e.runningCpu = none := (hsound.runs p e he).trans hp
    cases c with
    | selectCpu p prevCpu =>
      exact hsound.kept (keeps_selectCpu hsound.books (hsound.unqueued hissues) prevCpu)
    | enqueue p flags => exact hsound.kept (keeps_enqueue hsound.books flags)
    | dequeue p flags => exact hsound.kept (keeps_dequeue hsound.books flags)
    | dispatch cpu prev => exact hsound.kept (keeps_dispatch hsound.books hclock prev)
    | running p => exact hsound.running hclock hissues
    | stopping p again => exact hsound.stopping again hissues
    | runnable p flags => exact hsound.kept (keeps_runnable hsound.books flags)
    | quiescent p flags => exact hsound.kept (keeps_quiescent hsound.books flags)
    | enable p => exact hsound.kept (keeps_enable hsound.books (hfree hissues))
    | disable p => exact hsound.kept (keeps_disable hsound.books)
    | initTask p created => exact hsound.initTask created hissues

theorem Host.Sound.run (hrun : Relation.ReflTransGen (Host.Next cfg) h h') : h'.Sound := by
  induction hrun with
  | refl => exact hsound
  | tail _ hnext ih => exact (ih.next hnext).sound

theorem Host.Sound.accounted : h.Accounted := by
  have hbalanced := hsound.books.balanced
  have hqueued (cpu : Cpu) (k : WorkloadClass) :
      h.queuedOn cpu k = {p | h.sched.books.queuedAt p = some (cpu, k)} := by
    ext p
    simp only [Host.queuedOn, Books.queuedAt, books_entry, Set.mem_ofPred_eq]
    cases h.sched.tasks p <;> simp [TaskCtx.entry]
  have hrunning (cpu : Cpu) (k : WorkloadClass) :
      h.runningOn cpu k = {p | h.sched.books.runningAt p = some (cpu, k)} := by
    ext p
    simp only [Host.runningOn, Books.runningAt, Set.mem_ofPred_eq]
    cases htask : h.sched.tasks p with
    | none => simp [books_entry, htask]
    | some tctx =>
      have hentry : h.sched.books.entry p = some tctx.entry := by rw [books_entry, htask]; rfl
      have hruns : tctx.runningCpu = h.onCpu p := hsound.runs p _ hentry
      simp [hentry, TaskCtx.entry, hruns]
  have htotal (count : Cpu × WorkloadClass → ℕ) (k : WorkloadClass) :
      ∑ key ∈ h.sched.books.keysOf k, count key =
        ∑ cpu ∈ Finset.range h.sched.nrCpuIds, count (cpu, k) := by
    rw [Books.keysOf, Finset.sum_product]
    exact Finset.sum_congr rfl fun cpu _ => Finset.sum_singleton _ _
  constructor
  · intro cpu k
    rw [hqueued]
    exact ⟨hbalanced.queued.finite _, hbalanced.queued.count_eq (cpu, k)⟩
  · intro k
    exact (hbalanced.queuedTotal k).trans (htotal _ k)
  · intro p tctx htask
    exact (hsound.books.settled p tctx.entry (by rw [books_entry, htask]; rfl)).enqueued
  · intro cpu k
    rw [hrunning]
    exact ⟨hbalanced.running.finite _, hbalanced.running.count_eq (cpu, k)⟩
  · exact hbalanced.underflows

end Sound

theorem queue_accounting {h₀ : Host T} (hfresh : h₀.Fresh)
    (hrun : Relation.ReflTransGen (Host.Next cfg) h₀ h) :
    h.Accounted ∧ ∀ h', h.Next cfg h' → ∀ p, h.onCpu p ≠ none →
      h'.sched.classOf p = h.sched.classOf p := by
  have hsound := hfresh.sound.run hrun
  exact ⟨hsound.accounted, fun h' hnext => (hsound.next hnext).classes⟩

end Runs

section TwoTasks

/-- Two CPUs, no rule, and every insertion succeeds. -/
def quietKernel : Kernel ℕ where
  task _ :=
    { comm := fun _ => 0, cpusPtr := fun _ => true, cpumaskFirst := 0, nrCpusAllowed := 2,
      migrationDisabled := false, idleFlag := false, queuedFlag := false, slice := 0, dsqVtime := 0,
      scaleByTaskWeightInverse := id }
  dsq _ := []
  ktimeGetNs := 1
  taskCpu p := p
  taskRunning _ := false
  cpuCurr _ := none
  smpProcessorId := 0
  hasSelectCpuAnd := false
  selectCpuAnd _ _ := none
  selectCpuDfl _ prevCpu := (prevCpu, false)
  testAndClearCpuIdle _ := false
  dsqInsert _ _ := true
  dsqInsertVtime _ _ := true
  dsqMove _ _ := true
  taskFromPid _ := true
  topology _ := { llcId := 0, nodeId := 0, capacity := 1024 }
  rulesSeq := 0
  confirmedRulesSeq := 0
  rules _ := none

def quietHost : Host ℕ where
  sched :=
    { kernel := quietKernel
      tasks := fun _ => none
      cpus := fun _ =>
        { entity := fun _ => { vruntime := 0, taskVtime := 0, nrQueued := 0, nrRunning := 0 }
          classVtimeNow := 0, stealClaim := 0, runningSince := 0, batchServiceSinceLatency := 0
          runningClass := none }
      classes := fun _ => { vruntime := 0, nrQueued := 0, nrRunning := 0 }
      classVtimeNow := 0
      stealCursor := 0
      nrCpuIds := 2
      kicks := []
      underflows := 0 }
  onCpu _ := none

theorem quietHost_fresh : quietHost.Fresh :=
  ⟨fun _ => rfl, fun _ _ => ⟨rfl, rfl⟩, fun _ => ⟨rfl, rfl⟩, rfl, fun _ => rfl⟩

/-- Task 0 runs on CPU 0 while task 1 waits on CPU 1. -/
def twoPlaced : List (Callback ℕ) :=
  [.initTask 0 true, .initTask 1 true, .enqueue 0 ⟨true, false, false⟩, .running 0,
    .enqueue 1 ⟨true, false, false⟩]

theorem queue_accounting_two_tasks :
    let h := twoPlaced.foldl (Host.after .initial) quietHost
    ((h.sched.cpus 0).entity .batch).nrRunning = 1 ∧
      ((h.sched.cpus 1).entity .batch).nrQueued = 1 ∧ h.Accounted := by
  have hrun : Relation.ReflTransGen (Host.Next .initial) quietHost
      (twoPlaced.foldl (Host.after .initial) quietHost) := by
    refine .head (.callback (.initTask 0 true) ⟨rfl, fun _ => nofun⟩ (by decide)) ?_
    refine .head (.callback (.initTask 1 true) ⟨rfl, fun _ => nofun⟩ (by decide)) ?_
    refine .head (.callback (.enqueue 0 ⟨true, false, false⟩) trivial (by decide)) ?_
    refine .head (.callback (.running 0) ⟨rfl, by decide⟩ (by decide +kernel)) ?_
    exact .head (.callback (.enqueue 1 ⟨true, false, false⟩) trivial (by decide +kernel)) .refl
  exact ⟨by decide +kernel, by decide +kernel, (queue_accounting quietHost_fresh hrun).1⟩

end TwoTasks

end ScxAgent.Scheduler
