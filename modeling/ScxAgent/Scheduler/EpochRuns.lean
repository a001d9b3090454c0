import ScxAgent.Scheduler.BatchEpochs
import ScxAgent.Scheduler.QueueAccounting

/-!
# Batch epochs over whole runs

The kernel starts and stops the runs of a task by turns and enables, disables or puts it to sleep
only in between. The count of used epochs starts again whenever a callback resets the epoch.
-/

namespace ScxAgent.Scheduler

open Option Function Sched

variable {T : Type} [DecidableEq T] {cfg : Config} {s : Sched T} {p : T} {cpu : Cpu}

section Classes

/-- The epochs after a class was looked up: nothing happened, or an idle task took another class and
its epoch was reset. -/
def Reclassified (cfg : Config) (p : T) (v v' : Epochs T) : Prop :=
  v' = v ∨ ∃ e e', v.of p = some e ∧ v' = v.put p e' ∧ e'.classId ≠ e.classId ∧
    e'.lastRunAt = 0 ∧ e'.targetNs = cfg.batchMinEpochNs ∧ e'.remainingNs = 0

theorem reclassified_transitionTaskClass (k : WorkloadClass) (comm : RuleKey) (seq : UInt64) :
    Reclassified cfg p s.epochs (s.transitionTaskClass cfg p k comm seq).2.epochs := by
  unfold transitionTaskClass
  cases htask : s.tasks p with
  | none => exact .inl rfl
  | some tctx =>
    dsimp only
    by_cases hrun : tctx.inRun
    · rw [if_pos hrun]
      exact .inl rfl
    · rw [if_neg hrun]
      dsimp only
      rw [epochs_updateTask_same (by intro _ _; rfl)]
      by_cases hclass : k ≠ tctx.classId
      · rw [if_pos hclass]
        have hleft : (if tctx.queueOwned = true then s.taskQueueDec p else s).epochs = s.epochs := by
          split_ifs <;> simp
        generalize (if tctx.queueOwned = true then s.taskQueueDec p else s) = s₁ at hleft ⊢
        obtain ⟨tctx₁, htask₁, hepoch₁⟩ := exists_task_of_epochs (hleft ▸ epochs_of htask)
        have hidle : tctx₁.lastRunAt = 0 := by
          have hout : tctx.runningCpu = none ∧ tctx.lastRunAt = 0 := by simpa [TaskCtx.inRun] using hrun
          exact (congrArg Epoch.lastRunAt hepoch₁).trans hout.2
        rw [epochs_updateTask htask₁, hleft]
        exact .inr ⟨tctx.epoch, _, epochs_of htask, rfl, hclass, hidle, rfl, rfl⟩
      · rw [if_neg hclass]
        exact .inl rfl

theorem reclassified_refreshTaskClass (cfg : Config) (s : Sched T) (p : T) (checkComm : Bool) :
    Reclassified cfg p s.epochs (s.refreshTaskClass cfg p checkComm).2.epochs := by
  unfold refreshTaskClass
  cases s.tasks p with
  | none => exact .inl rfl
  | some tctx =>
    dsimp only
    split_ifs
    · exact .inl rfl
    · exact .inl rfl
    · exact .inl rfl
    · exact .inl rfl
    · exact .inl rfl
    · exact reclassified_transitionTaskClass _ _ _

theorem reclassified_enqueue (cfg : Config) (p : T) (flags : EnqFlags) :
    Reclassified cfg p s.epochs (s.enqueue cfg p flags).epochs := by
  have hrefresh : Reclassified cfg p s.epochs
      ((s.reconcileBeforeEnqueue p).refreshTaskClass cfg p false).2.epochs := by
    have h := reclassified_refreshTaskClass cfg (s.reconcileBeforeEnqueue p) p false
    rwa [epochs_reconcileBeforeEnqueue] at h
  unfold enqueue
  cases s.tasks p with
  | none => exact .inl rfl
  | some _ =>
    dsimp only
    generalize ((s.reconcileBeforeEnqueue p).refreshTaskClass cfg p false).2 = s₁ at hrefresh ⊢
    cases s₁.tasks p with
    | none => exact hrefresh
    | some tctx =>
      dsimp only
      generalize hs₂ : @ite _ _ (_) (s₁.updateTask p _) s₁ = s₂
      have hhome : s₂.epochs = s₁.epochs := by
        rw [← hs₂]
        split_ifs
        · exact epochs_updateTask_same (by intro _ _; rfl)
        · rfl
      rw [← hhome] at hrefresh
      split_ifs
      · exact hrefresh
      · cases tctx.classId with
        | latency =>
          dsimp only
          have hdirect : (s₂.latencyTryDirectDispatch cfg p (s₁.kernel.taskCpu p) flags).2.epochs =
              s₂.epochs := epochs_latencyTryDirectDispatch
          generalize s₂.latencyTryDirectDispatch cfg p (s₁.kernel.taskCpu p) flags = direct at hdirect ⊢
          obtain ⟨done, s₃⟩ := direct
          cases done with
          | true => exact hdirect.symm ▸ hrefresh
          | false =>
            dsimp only
            rw [epochs_enqueueClass]
            exact hdirect.symm ▸ hrefresh
        | batch =>
          dsimp only
          rw [epochs_enqueueClass]
          exact hrefresh

theorem reclassified_runnable (cfg : Config) (p : T) (flags : EnqFlags) :
    Reclassified cfg p s.epochs (s.runnable cfg p flags).epochs := by
  unfold runnable
  cases s.tasks p with
  | none => exact .inl rfl
  | some tctx =>
    dsimp only
    rw [epochs_updateTask_same]
    · exact reclassified_refreshTaskClass cfg _ p true
    · intro tctx _
      split_ifs <;> rfl

end Classes

section Counting

/-- The charges that a callback makes. -/
def Callback.charges (cfg : Config) (s : Sched T) : Callback T → List (Charge T)
  | .stopping p again => (s.stoppingCharge p again).toList
  | .dispatch cpu prev => attemptCharges cfg cpu prev (s.keepAttempts cfg cpu prev)
  | _ => []

/-- Whether a callback resets the epoch of a task. -/
def Callback.resets (cfg : Config) (s : Sched T) (p : T) : Callback T → Bool
  | .stopping q again => q = p && !again &&
      (s.tasks p).any fun tctx => tctx.lastRunAt != 0 && tctx.classId = .batch
  | .quiescent q flags => q = p && flags.sleep && s.classOf p = some .batch
  | .enable q => q = p
  | .disable q => q = p
  | .initTask q _ => q = p
  | .enqueue q flags => (s.enqueue cfg q flags).classOf p ≠ s.classOf p
  | .runnable q flags => (s.runnable cfg q flags).classOf p ≠ s.classOf p
  | _ => false

end Counting

variable {e : Epoch}

section Running

variable {place place' : T → Option Cpu} {n n' : T → ℕ} (hpolicy : EpochPolicy cfg)

omit [DecidableEq T] in
/-- A task without context has no epoch to keep in order. -/
theorem EpochsOk.absent (h : EpochsOk cfg place n s.epochs) (htask : s.tasks p = none)
    (hplace : ∀ q, q ≠ p → place' q = place q) (hcount : ∀ q, q ≠ p → n' q = n q) :
    EpochsOk cfg place' n' s.epochs := by
  intro q e he
  have hq : q ≠ p := by
    rintro rfl
    simp [epochs, htask] at he
  rw [hplace q hq, hcount q hq]
  exact h q e he

theorem epochs_recordRunning (he : s.epochs.of p = some e) (k : WorkloadClass) :
    (s.recordRunning p cpu k).epochs = s.epochs.put p
      { e with lastRunAt := s.kernel.ktimeGetNs, runningCpu := some cpu } :=
  epochs_updateTask_map (f := fun tctx =>
    { tctx with
      lastMigrateAt := if tctx.lastCpu.any (· ≠ cpu) then s.kernel.ktimeGetNs else tctx.lastMigrateAt
      homeCpu := if s.homeAllowed p tctx.homeCpu then tctx.homeCpu else some cpu
      lastCpu := some cpu
      runningCpu := some cpu
      queuedCpu := none
      state := .none
      lastRunAt := s.kernel.ktimeGetNs })
    (fun e => { e with lastRunAt := s.kernel.ktimeGetNs, runningCpu := some cpu }) he fun _ => rfl

theorem epochs_recordStopped (he : s.epochs.of p = some e) (k : WorkloadClass) :
    (s.recordStopped p cpu k).epochs = s.epochs.put p { e with lastRunAt := 0, runningCpu := none } := by
  have hcounted {s₁ : Sched T} (h₁ : s₁.epochs = s.epochs) :
      (s₁.updateTask p fun tctx => { tctx with lastRunAt := 0, runningCpu := none }).epochs =
        s.epochs.put p { e with lastRunAt := 0, runningCpu := none } := by
    rw [← h₁] at he ⊢
    exact epochs_updateTask_map (fun e => { e with lastRunAt := 0, runningCpu := none }) he fun _ => rfl
  unfold recordStopped
  apply hcounted
  simp [countFree_epochs.noteUnderflow]

include hpolicy

/-- A batch task starts its run with an epoch. -/
theorem epochs_startSlice {nrCpuIds m : ℕ} {place : Option Cpu} (he : s.epochs.of p = some e)
    (h : EpochOk cfg nrCpuIds place m e) (cpu : Cpu) :
    ∃ remaining : UInt64, remaining.toNat ≤ cfg.batchMaxEpochNs.toNat ∧
      (e.classId = .batch → remaining ≠ 0) ∧
      (s.startSlice cfg p cpu).epochs = s.epochs.put p { e with remainingNs := remaining } := by
  obtain ⟨tctx, htask, rfl⟩ := exists_task_of_epochs he
  unfold startSlice
  rw [htask]
  dsimp only
  cases hclass : tctx.classId with
  | latency =>
    have hepoch : tctx.epoch.classId ≠ .batch := by
      rw [TaskCtx.epoch, hclass]
      nofun
    refine ⟨tctx.batchEpochRemainingNs, h.remaining, fun hbatch => absurd hbatch hepoch, ?_⟩
    have hsame : s.epochs.put p { tctx.epoch with remainingNs := tctx.batchEpochRemainingNs } = s.epochs :=
      Epochs.put_self he
    rw [hsame]
    dsimp only
    split_ifs <;> rfl
  | batch =>
    obtain ⟨remaining, hpos, hle, heq⟩ :=
      batchStartEpoch_eq hpolicy h.target h.remaining (s.cpus cpu) true
    refine ⟨remaining, hle, fun _ => hpos, ?_⟩
    dsimp only
    rw [heq]
    have hput := epochs_updateTask (f := fun _ => { tctx with batchEpochRemainingNs := remaining }) htask
    split_ifs
    all_goals exact hput

theorem epochsOk_running (h : EpochsOk cfg place n s.epochs)
    (honline : s.kernel.taskCpu p < s.nrCpuIds) :
    EpochsOk cfg (update place p (some (s.kernel.taskCpu p))) n (s.running cfg p).epochs := by
  unfold running
  cases htask : s.tasks p with
  | none => exact h.absent htask (fun q hq => update_of_ne hq _ _) fun _ _ => rfl
  | some tctx =>
    dsimp only
    rw [lookupCpuCtx, if_pos honline]
    dsimp only
    generalize hs₁ : (rebaseTask cfg (@ite _ _ (_) _ s) p _ false).2 = s₁
    have hrebased : s₁.epochs = s.epochs := by
      rw [← hs₁, epochs_rebaseTask]
      split_ifs <;> simp
    have hok := h.task htask
    obtain ⟨remaining, hle, hpos, hstart⟩ := epochs_startSlice hpolicy (s := s₁)
      (hrebased ▸ epochs_of htask) hok (s.kernel.taskCpu p)
    generalize hs₂ : @ite _ _ (_) _ (s₁.startSlice cfg p (s.kernel.taskCpu p)) = s₂
    have hactive : s₂.epochs = s.epochs.put p { tctx.epoch with remainingNs := remaining } := by
      rw [← hs₂, ← hrebased, ← hstart]
      split_ifs <;> rfl
    have hof : s₂.epochs.of p = some { tctx.epoch with remainingNs := remaining } := by
      rw [hactive, Epochs.put_of]
    rw [epochs_arbitrateLockedCpu, epochs_recordRunning hof, hactive, Epochs.put_put]
    refine h.put (fun q hq => update_of_ne hq _ _) (fun _ _ => rfl) ?_
    refine ⟨hok.target, hle, fun hidle => ?_, fun _ => ⟨_, rfl, honline⟩, fun _ => hpos⟩
    rw [update_self] at hidle
    cases hidle

theorem epochsOk_stopping (h : EpochsOk cfg place n s.epochs) (runnable : Bool) :
    EpochsOk cfg (update place p none)
      (fun q => if (Callback.stopping p runnable).resets cfg s q then 0
        else n q + exhaustions (s.stoppingCharge p runnable).toList q)
      (s.stopping cfg p runnable).epochs := by
  have hothers (q : T) (hq : q ≠ p) : (Callback.stopping p runnable).resets cfg s q = false := by
    simp [Callback.resets, hq.symm]
  unfold stopping stoppingCharge
  cases htask : s.tasks p with
  | none =>
    refine h.absent htask (fun q hq => update_of_ne hq _ _) fun q hq => ?_
    rw [hothers q hq]
    rfl
  | some tctx =>
    have hok := h.task htask
    dsimp only
    by_cases hrun : tctx.lastRunAt = 0
    · rw [if_pos hrun, if_pos hrun, ← Epochs.put_self (epochs_of htask)]
      refine h.put (fun q hq => update_of_ne hq _ _) (fun q hq => ?_) ?_
      · rw [hothers q hq]
        rfl
      · have hkept : (Callback.stopping p runnable).resets cfg s p = false := by
          simp [Callback.resets, htask, hrun]
        rw [hkept]
        exact ⟨hok.target, hok.remaining, fun _ => hrun, hok.online, hok.granted⟩
    · obtain ⟨cpu, hcpu, honline⟩ := hok.online hrun
      have hfilter : tctx.runningCpu.filter (· < s.nrCpuIds) = some cpu := by
        have hrunning : tctx.runningCpu = some cpu := hcpu
        simp [hrunning, honline]
      rw [if_neg hrun, if_neg hrun, hfilter]
      dsimp only [map_some]
      generalize hruntime : (if s.kernel.ktimeGetNs > tctx.lastRunAt then
        s.kernel.ktimeGetNs - tctx.lastRunAt else 1) = runtime
      have hpos : runtime ≠ 0 := by
        rw [← hruntime]
        split_ifs with hlater
        · intro hzero
          rw [gt_iff_lt, UInt64.lt_iff_toNat_lt, sub_eq_zero.mp hzero] at hlater
          omega
        · decide
      have hidle : (s.updateCpu cpu fun cpuc =>
          { cpuc with runningClass := none, runningSince := 0 }).epochs = s.epochs := rfl
      obtain ⟨s₁, hcharge, -, hepochs₁⟩ := epochs_chargeRuntime cfg
        (s := s.updateCpu cpu fun cpuc => { cpuc with runningClass := none, runningSince := 0 })
        htask honline hpos runnable
      obtain ⟨target, remaining, hcharged, htarget, hremaining⟩ :=
        hok.charged hpolicy p hrun (s.kernel.task p) runtime runnable
      rw [hcharge]
      dsimp only
      generalize hs₂ : s₁.advanceTaskVtime cpu tctx.classId _ = s₂
      have hepochs₂ : s₂.epochs = s.epochs.put p
          { tctx.epoch with targetNs := target, remainingNs := remaining } := by
        rw [← hs₂, epochs_advanceTaskVtime, hepochs₁, hidle]
        exact congrArg (s.epochs.put p) hcharged
      have hof₂ : s₂.epochs.of p = some { tctx.epoch with targetNs := target, remainingNs := remaining } := by
        rw [hepochs₂, Epochs.put_of]
      have hplace (q : T) (hq : q ≠ p) : update place p none q = place q :=
        update_of_ne hq _ _
      have hcount (q : T) (hq : q ≠ p) : (if (Callback.stopping p runnable).resets cfg s q then 0
          else n q + exhaustions (some (Charge.mk p tctx runtime runnable)).toList q) = n q := by
        rw [hothers q hq]
        exact congrArg (n q + ·) (exhaustions_of_ne hq)
      by_cases hreset : tctx.classId = .batch ∧ runnable = false
      · have hresets : (Callback.stopping p runnable).resets cfg s p = true := by
          simp [Callback.resets, htask, hrun, hreset.1, hreset.2]
        have hof₃ := epochs_updateTask_map (f := resetBatchEpoch cfg)
          (fun e => { e with targetNs := cfg.batchMinEpochNs, remainingNs := 0 }) hof₂ fun _ => rfl
        rw [if_pos hreset, epochs_recordStopped (hof₃ ▸ Epochs.put_of _ _ _), hof₃, hepochs₂,
          Epochs.put_put, Epochs.put_put]
        refine h.put hplace hcount ?_
        rw [if_pos hresets]
        exact EpochOk.reset hpolicy rfl rfl rfl
      · have hresets : (Callback.stopping p runnable).resets cfg s p = false := by
          simp [Callback.resets, htask]
          tauto
        rw [if_neg hreset, epochs_recordStopped hof₂, hepochs₂, Epochs.put_put]
        refine h.put hplace hcount ?_
        rw [if_neg (by simp [hresets])]
        exact ⟨htarget, hremaining, fun _ => rfl, fun hzero => absurd rfl hzero,
          fun hzero => absurd rfl hzero⟩

omit hpolicy in
theorem epochs_leftIfEnqueued (state : TaskState) :
    (if state = .enqueued then s.taskQueueDec p else s).epochs = s.epochs := by
  split_ifs <;> simp

theorem epochsOk_quiescent (h : EpochsOk cfg place n s.epochs) (hidle : place p = none)
    (flags : DeqFlags) :
    EpochsOk cfg place (fun q => if (Callback.quiescent p flags).resets cfg s q then 0 else n q)
      (s.quiescent cfg p flags).epochs := by
  have hothers (q : T) (hq : q ≠ p) : (Callback.quiescent p flags).resets cfg s q = false := by
    simp [Callback.resets, hq.symm]
  unfold quiescent
  cases htask : s.tasks p with
  | none =>
    refine h.absent htask (fun _ _ => rfl) fun q hq => ?_
    rw [hothers q hq]
    rfl
  | some tctx =>
    have hok := h.task htask
    have hleft := epochs_leftIfEnqueued (s := s) (p := p) tctx.state
    dsimp only
    rw [epochs_updateTask_same (by intro _ _; rfl)]
    generalize (if tctx.state = .enqueued then s.taskQueueDec p else s) = s₁ at hleft ⊢
    have hof : s₁.epochs.of p = some tctx.epoch := hleft ▸ epochs_of htask
    by_cases hreset : flags.sleep = true ∧ tctx.classId = .batch
    · have hresets : (Callback.quiescent p flags).resets cfg s p = true := by
        simp [Callback.resets, classOf, htask, hreset]
      obtain ⟨tctx₁, htask₁, hepoch₁⟩ := exists_task_of_epochs hof
      have hclass₁ : tctx₁.classId = .batch := (congrArg Epoch.classId hepoch₁).trans hreset.2
      rw [if_pos hreset.1, epochs_updateTask htask₁, hleft]
      refine h.put (fun _ _ => rfl) (fun q hq => ?_) ?_
      · rw [hothers q hq]
        rfl
      · rw [if_pos hresets, sleepTask, hclass₁]
        exact EpochOk.reset hpolicy rfl rfl
          ((congrArg Epoch.lastRunAt hepoch₁).trans (hok.idle hidle))
    · have hresets : (Callback.quiescent p flags).resets cfg s p = false := by
        simp only [Callback.resets, classOf, htask]
        simp
        tauto
      have hsame : (if flags.sleep = true then s₁.updateTask p (s₁.sleepTask cfg (s₁.kernel.task p))
          else s₁).epochs = s.epochs := by
        rw [← hleft]
        split_ifs with hsleep
        · refine epochs_updateTask_same fun tctx₁ htask₁ => ?_
          have hepoch₁ : tctx₁.epoch = tctx.epoch := some.inj ((epochs_of htask₁).symm.trans hof)
          have hclass₁ : tctx₁.classId = tctx.classId := congrArg Epoch.classId hepoch₁
          cases hclass : tctx₁.classId with
          | latency =>
            rw [sleepTask, hclass]
            exact epoch_latencySaveSleepVlag _ _
          | batch => exact absurd ⟨hsleep, hclass₁.symm.trans hclass⟩ hreset
        · rfl
      have hcount : (fun q => if (Callback.quiescent p flags).resets cfg s q then 0 else n q) = n := by
        funext q
        by_cases hq : q = p
        · rw [hq, hresets]
          rfl
        · rw [hothers q hq]
          rfl
      rw [hsame, hcount]
      exact h

omit hpolicy in
/-- A callback that resets one task leaves the counts of the others. -/
theorem count_of_ne {q : T} (hq : q ≠ p) : (if decide (p = q) then 0 else n q) = n q := by
  rw [decide_eq_false hq.symm]
  rfl

omit hpolicy in
theorem count_self : (if decide (p = p) then 0 else n p) = 0 := by
  rw [decide_eq_true rfl]
  rfl

theorem epochsOk_disable (h : EpochsOk cfg place n s.epochs) (hidle : place p = none) :
    EpochsOk cfg place (fun q => if (Callback.disable p).resets cfg s q then 0 else n q)
      (s.disable cfg p).epochs := by
  unfold disable
  cases htask : s.tasks p with
  | none => exact h.absent htask (fun _ _ => rfl) fun _ hq => count_of_ne hq
  | some tctx =>
    have hleft := epochs_leftIfEnqueued (s := s) (p := p) tctx.state
    dsimp only
    generalize (if tctx.state = .enqueued then s.taskQueueDec p else s) = s₁ at hleft ⊢
    rw [epochs_updateTask_map (fun e => { e with targetNs := cfg.batchMinEpochNs, remainingNs := 0 })
      (hleft ▸ epochs_of htask) fun _ => rfl, hleft]
    refine h.put (fun _ _ => rfl) (fun _ hq => count_of_ne hq) ?_
    rw [Callback.resets, count_self]
    exact EpochOk.reset hpolicy rfl rfl ((h.task htask).idle hidle)

/-- Looking up the class of a task that has used up no epoch. -/
theorem EpochsOk.reclassified {v v' : Epochs T} (h : EpochsOk cfg place n v) (hzero : n p = 0)
    (hclass : Reclassified cfg p v v') : EpochsOk cfg place n v' := by
  rcases hclass with rfl | ⟨e, e', -, rfl, -, hidle, htarget, hremaining⟩
  · exact h
  · refine h.put (fun _ _ => rfl) (fun _ _ => rfl) ?_
    rw [hzero]
    exact EpochOk.reset hpolicy htarget hremaining hidle

theorem epochsOk_resetTaskState {v : Epochs T} (h : EpochsOk cfg place n v) :
    EpochsOk cfg place (fun q => if decide (p = q) then 0 else n q)
      (v.put p (resetTaskState cfg).epoch) := by
  refine h.put (fun _ _ => rfl) (fun _ hq => count_of_ne hq) ?_
  rw [count_self]
  exact EpochOk.reset hpolicy rfl rfl rfl

theorem epochsOk_enable (h : EpochsOk cfg place n s.epochs) :
    EpochsOk cfg place (fun q => if (Callback.enable p).resets cfg s q then 0 else n q)
      (s.enable cfg p).epochs := by
  unfold enable
  cases htask : s.tasks p with
  | none => exact h.absent htask (fun _ _ => rfl) fun _ hq => count_of_ne hq
  | some tctx =>
    have hleft := epochs_leftIfEnqueued (s := s) (p := p) tctx.state
    dsimp only
    generalize (if tctx.state = .enqueued then s.taskQueueDec p else s) = s₁ at hleft ⊢
    have hreset : (s₁.updateTask p fun _ => resetTaskState cfg).epochs =
        s.epochs.put p (resetTaskState cfg).epoch := by
      rw [epochs_updateTask_map (fun _ => (resetTaskState cfg).epoch) (hleft ▸ epochs_of htask)
        fun _ => rfl, hleft]
    have hok := epochsOk_resetTaskState (p := p) hpolicy h
    rw [← hreset] at hok
    exact hok.reclassified hpolicy count_self (reclassified_refreshTaskClass cfg _ p true)

theorem epochsOk_initTask (h : EpochsOk cfg place n s.epochs) (created : Bool) :
    EpochsOk cfg place (fun q => if (Callback.initTask p created).resets cfg s q then 0 else n q)
      (s.initTask cfg p created).epochs := by
  unfold initTask
  split_ifs with hnone
  · have htask : s.tasks p = none := by simpa using (Bool.and_eq_true_iff.mp hnone).1
    exact h.absent htask (fun _ _ => rfl) fun _ hq => count_of_ne hq
  · have hreset : ({ s with tasks := update s.tasks p (some (resetTaskState cfg)) } :
        Sched T).epochs = s.epochs.put p (resetTaskState cfg).epoch := by
      refine congrArg (Epochs.mk · s.nrCpuIds) (funext fun q => ?_)
      by_cases hq : q = p
      · subst hq
        simp
      · simp [epochs, hq]
    have hok := epochsOk_resetTaskState (p := p) hpolicy h
    rw [← hreset] at hok
    exact hok.reclassified hpolicy count_self (reclassified_refreshTaskClass cfg _ p true)

omit hpolicy [DecidableEq T] in
theorem classOf_epochs (s : Sched T) (q : T) : s.classOf q = (s.epochs.of q).map Epoch.classId := by
  simp only [classOf, epochs, map_map]
  rfl

/-- A change of class resets the epoch. -/
theorem EpochsOk.changed {s' : Sched T} (h : EpochsOk cfg place n s.epochs)
    (hclass : Reclassified cfg p s.epochs s'.epochs) :
    EpochsOk cfg place (fun q => if s'.classOf q ≠ s.classOf q then 0 else n q) s'.epochs := by
  simp only [classOf_epochs]
  rcases hclass with hsame | ⟨e, e', he, heq, hne, hidle, htarget, hremaining⟩
  · rw [hsame]
    simpa using h
  · rw [heq]
    refine h.put (fun _ _ => rfl) (fun q hq => ?_) ?_
    · simp [Epochs.put, hq]
    · rw [if_pos (by simpa [Epochs.put, he] using hne)]
      exact EpochOk.reset hpolicy htarget hremaining hidle

end Running

variable {charge : Charge T}

section Runs

/-- A host with the number of epochs that every task has used up since its epoch was last reset. -/
structure Watched (T : Type) extends Host T where
  used : T → ℕ

/-- When the kernel issues a callback. -/
def Watched.Issues (w : Watched T) : Callback T → Prop
  | .running p => w.onCpu p = none ∧ w.sched.kernel.taskCpu p < w.sched.nrCpuIds
  | .stopping p _ => w.onCpu p ≠ none
  | .quiescent p _ => w.onCpu p = none
  | .enable p => w.onCpu p = none
  | .disable p => w.onCpu p = none
  | .initTask p _ => w.onCpu p = none
  | _ => True

def Watched.after (cfg : Config) (w : Watched T) (c : Callback T) : Watched T where
  toHost := w.toHost.after cfg c
  used p := if c.resets cfg w.sched p then 0 else w.used p + exhaustions (c.charges cfg w.sched) p

inductive Watched.Next (cfg : Config) (w : Watched T) : Watched T → Prop
  | callback (c : Callback T) (hissues : w.Issues c) : w.Next cfg (w.after cfg c)
  | kernel (kernel : Kernel T) : w.Next cfg { w with sched := { w.sched with kernel := kernel } }

structure Watched.Fresh (w : Watched T) : Prop where
  tasks : ∀ p, w.sched.tasks p = none
  onCpu : ∀ p, w.onCpu p = none
  used : ∀ p, w.used p = 0

variable {w w' w₀ : Watched T}

theorem epochsOk_next (hpolicy : EpochPolicy cfg) (h : EpochsOk cfg w.onCpu w.used w.sched.epochs)
    (hnext : w.Next cfg w') : EpochsOk cfg w'.onCpu w'.used w'.sched.epochs := by
  cases hnext with
  | kernel kernel => exact h
  | callback c hissues =>
    cases c with
    | selectCpu p prevCpu =>
      have hsame : (w.sched.selectCpu cfg p prevCpu).2.epochs = w.sched.epochs := epochs_selectCpu prevCpu
      exact hsame.symm ▸ h
    | enqueue p flags =>
      have hchanged := h.changed hpolicy (reclassified_enqueue cfg p flags)
      simpa [Watched.after, Host.after, Host.moved, Callback.run, Callback.resets, Callback.charges,
        exhaustions] using hchanged
    | dequeue p flags =>
      have hsame : (w.sched.dequeue p flags).epochs = w.sched.epochs := epochs_dequeue flags
      exact hsame.symm ▸ h
    | dispatch cpu prev => exact (epochsOk_dispatch hpolicy h prev).1
    | running p => exact epochsOk_running hpolicy h hissues.2
    | stopping p again => exact epochsOk_stopping hpolicy h again
    | runnable p flags =>
      have hchanged := h.changed hpolicy (reclassified_runnable cfg p flags)
      simpa [Watched.after, Host.after, Host.moved, Callback.run, Callback.resets, Callback.charges,
        exhaustions] using hchanged
    | quiescent p flags => exact epochsOk_quiescent hpolicy h hissues flags
    | enable p => exact epochsOk_enable hpolicy h
    | disable p => exact epochsOk_disable hpolicy h hissues
    | initTask p created => exact epochsOk_initTask hpolicy h created

theorem epochsOk_run (hpolicy : EpochPolicy cfg) (hfresh : w₀.Fresh)
    (hrun : Relation.ReflTransGen (Watched.Next cfg) w₀ w) :
    EpochsOk cfg w.onCpu w.used w.sched.epochs := by
  induction hrun with
  | refl =>
    intro p e he
    simp [epochs, hfresh.tasks p] at he
  | tail _ hnext ih => exact epochsOk_next hpolicy ih hnext

omit [DecidableEq T] in
theorem of_stoppingCharge {runnable : Bool} (h : s.stoppingCharge p runnable = some charge) :
    s.tasks charge.task = some charge.tctx ∧ charge.tctx.lastRunAt ≠ 0 := by
  unfold stoppingCharge at h
  cases htask : s.tasks p with
  | none => simp [htask] at h
  | some tctx =>
    rw [htask] at h
    by_cases hrun : tctx.lastRunAt = 0
    · simp [hrun] at h
    · dsimp only at h
      rw [if_neg hrun, map_eq_some_iff] at h
      obtain ⟨cpu, -, rfl⟩ := h
      exact ⟨htask, hrun⟩

omit [DecidableEq T] in
theorem of_keepCharge {prev : Option T} {workConserving : Bool}
    (h : s.keepCharge cfg cpu prev workConserving = some charge) :
    s.tasks charge.task = some charge.tctx ∧ charge.tctx.lastRunAt ≠ 0 := by
  unfold keepCharge at h
  split at h
  · rename_i p _
    split_ifs at h
    split at h
    · cases h
    · rename_i tctx htask
      by_cases hrun : tctx.lastRunAt = 0 ∨ tctx.runningCpu ≠ some cpu
      · rw [if_pos hrun] at h
        cases h
      · rw [if_neg hrun] at h
        cases hclass : tctx.classId with
        | latency =>
          rw [hclass] at h
          split_ifs at h
        | batch =>
          rw [hclass] at h
          split_ifs at h
          cases h
          exact ⟨htask, fun hzero => hrun (.inl hzero)⟩
  · cases h

theorem charged_with_epoch (hpolicy : EpochPolicy cfg)
    (h : EpochsOk cfg w.onCpu w.used w.sched.epochs) (c : Callback T)
    (hcharge : charge ∈ c.charges cfg w.sched) (hbatch : charge.tctx.classId = .batch) :
    charge.tctx.batchEpochRemainingNs ≠ 0 := by
  cases c with
  | stopping p again =>
    rw [Callback.charges, mem_toList] at hcharge
    obtain ⟨htask, hrun⟩ := of_stoppingCharge hcharge
    exact (h.task htask).granted hrun hbatch
  | dispatch cpu prev =>
    rw [Callback.charges, attemptCharges, List.mem_flatMap] at hcharge
    obtain ⟨attempt, hattempt, hcharge⟩ := hcharge
    rw [mem_toList] at hcharge
    obtain ⟨htask, hrun⟩ := of_keepCharge hcharge
    obtain ⟨n, hok⟩ := (epochsOk_dispatch hpolicy h prev).2 attempt hattempt
    exact (hok.task htask).granted hrun hbatch
  | _ => cases hcharge

theorem batch_epochs_within_policy (hcfg : cfg.admitted = true) (hfresh : w₀.Fresh)
    (hrun : Relation.ReflTransGen (Watched.Next cfg) w₀ w) :
    (∀ p tctx, w.sched.tasks p = some tctx →
      cfg.batchMinEpochNs ≤ tctx.batchEpochTargetNs ∧ tctx.batchEpochTargetNs ≤ cfg.batchMaxEpochNs ∧
      tctx.batchEpochRemainingNs ≤ cfg.batchMaxEpochNs ∧
      tctx.batchEpochTargetNs.toNat =
        min (cfg.batchMinEpochNs.toNat * 2 ^ w.used p) cfg.batchMaxEpochNs.toNat) ∧
    (∀ c, w.Issues c → ∀ charge ∈ c.charges cfg w.sched, charge.tctx.classId = .batch →
      charge.tctx.batchEpochRemainingNs ≠ 0) ∧
    ∀ (tctx : TaskCtx) (cpuc : CpuCtx) (currentUnaccounted : Bool),
      tctx.batchEpochRemainingNs = 0 →
      cfg.batchMinEpochNs ≤ (batchStartEpoch cfg tctx cpuc currentUnaccounted).1 ∧
      (batchStartEpoch cfg tctx cpuc currentUnaccounted).1 ≤ cfg.batchMaxEpochNs := by
  have hpolicy := epochPolicy_of_admitted hcfg
  have hok := epochsOk_run hpolicy hfresh hrun
  refine ⟨?_, ?_, ?_⟩
  · intro p tctx htask
    obtain ⟨htarget, hremaining, -, -, -⟩ := hok.task htask
    have hbounds := grownTarget_bounds hpolicy (w.used p)
    rw [← htarget] at hbounds
    exact ⟨UInt64.le_iff_toNat_le.mpr hbounds.1, UInt64.le_iff_toNat_le.mpr hbounds.2,
      UInt64.le_iff_toNat_le.mpr hremaining, htarget⟩
  · intro c _ charge hcharge hbatch
    exact charged_with_epoch hpolicy hok c hcharge hbatch
  · intro tctx cpuc currentUnaccounted hspent
    exact batchStartEpoch_grant hpolicy hspent cpuc currentUnaccounted

/-- Task 0 is created and runs for one millisecond, which is all of its first epoch. -/
def oneEpoch : Watched ℕ :=
  let fresh : Watched ℕ := { quietHost with used := fun _ => 0 }
  let started := (fresh.after .initial (.initTask 0 true)).after .initial (.running 0)
  let later : Watched ℕ :=
    { started with sched := { started.sched with kernel := { quietKernel with ktimeGetNs := 1000001 } } }
  later.after .initial (.stopping 0 true)

theorem batch_epochs_within_policy_one_epoch :
    (oneEpoch.sched.tasks 0).map TaskCtx.batchEpochTargetNs = some 2000000 ∧ oneEpoch.used 0 = 1 ∧
      ∀ tctx, oneEpoch.sched.tasks 0 = some tctx →
        tctx.batchEpochTargetNs.toNat = min (1000000 * 2 ^ oneEpoch.used 0) 8000000 := by
  have hfresh : ({ quietHost with used := fun _ => 0 } : Watched ℕ).Fresh :=
    ⟨fun _ => rfl, fun _ => rfl, fun _ => rfl⟩
  have hrun : Relation.ReflTransGen (Watched.Next .initial)
      ({ quietHost with used := fun _ => 0 } : Watched ℕ) oneEpoch := by
    refine .head (.callback (.initTask 0 true) rfl) ?_
    refine .head (.callback (.running 0) ⟨rfl, by decide⟩) ?_
    refine .head (.kernel { quietKernel with ktimeGetNs := 1000001 }) ?_
    exact .head (.callback (.stopping 0 true) (some_ne_none 0)) .refl
  refine ⟨by decide +kernel, by decide +kernel, fun tctx htask => ?_⟩
  exact ((batch_epochs_within_policy (by decide) hfresh hrun).1 0 tctx htask).2.2.2

end Runs

end ScxAgent.Scheduler
