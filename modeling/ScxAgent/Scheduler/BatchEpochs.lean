import ScxAgent.Scheduler.EpochRecords

/-!
# Batch epochs

A batch task is granted epochs that start at the minimum and double with every epoch it uses up
while it stays runnable, up to the maximum. Beside the state, a count follows the epochs a task has
used up; the charges of a dispatch raise it.
-/

namespace ScxAgent.Scheduler

open UInt64

variable {T : Type} [DecidableEq T] {cfg : Config} {s : Sched T} {p : T} {cpu : Cpu}
  {tctx : TaskCtx}

section Policy

/-- What `agent_classed_init` guarantees of the epochs. -/
structure EpochPolicy (cfg : Config) : Prop where
  pos : 0 < cfg.batchMinEpochNs.toNat
  le : cfg.batchMinEpochNs.toNat ≤ cfg.batchMaxEpochNs.toNat

theorem epochPolicy_of_admitted (h : cfg.admitted = true) : EpochPolicy cfg := by
  simp only [Config.admitted, Bool.not_eq_true', Bool.or_eq_false_iff, beq_eq_false_iff_ne,
    decide_eq_false_iff_not] at h
  have hmin : cfg.batchMinEpochNs ≠ 0 := by tauto
  have hmax : ¬ cfg.batchMaxEpochNs < cfg.batchMinEpochNs := by tauto
  rw [lt_iff_toNat_lt] at hmax
  refine ⟨Nat.pos_of_ne_zero fun hzero => hmin (UInt64.toNat_inj.mp hzero), by omega⟩

/-- The target after `n` epochs were used up. -/
def grownTarget (cfg : Config) (n : ℕ) : ℕ :=
  min (cfg.batchMinEpochNs.toNat * 2 ^ n) cfg.batchMaxEpochNs.toNat

variable (hpolicy : EpochPolicy cfg) {n : ℕ}

include hpolicy

theorem grownTarget_bounds (n : ℕ) :
    cfg.batchMinEpochNs.toNat ≤ grownTarget cfg n ∧ grownTarget cfg n ≤ cfg.batchMaxEpochNs.toNat := by
  have hgrow : cfg.batchMinEpochNs.toNat ≤ cfg.batchMinEpochNs.toNat * 2 ^ n :=
    Nat.le_mul_of_pos_right _ (by positivity)
  have hle := hpolicy.le
  unfold grownTarget
  omega

theorem nextBatchEpoch_grown (h : tctx.batchEpochTargetNs.toNat = grownTarget cfg n) :
    (nextBatchEpoch cfg tctx).toNat = grownTarget cfg (n + 1) := by
  have hbounds := grownTarget_bounds hpolicy n
  have hmax := toNat_lt cfg.batchMaxEpochNs
  have htwo : (2 : UInt64).toNat = 2 := rfl
  have hdouble : cfg.batchMinEpochNs.toNat * 2 ^ (n + 1) = 2 * (cfg.batchMinEpochNs.toNat * 2 ^ n) := by
    ring
  have hinside : ¬ (tctx.batchEpochTargetNs < cfg.batchMinEpochNs ∨
      tctx.batchEpochTargetNs > cfg.batchMaxEpochNs) := by
    rw [gt_iff_lt, lt_iff_toNat_lt, lt_iff_toNat_lt]
    omega
  unfold nextBatchEpoch
  dsimp only
  rw [if_neg hinside]
  unfold grownTarget at h ⊢
  rw [hdouble]
  split_ifs with hcapped hhalf
  · rw [ge_iff_le, le_iff_toNat_le] at hcapped
    omega
  · rw [gt_iff_lt, UInt64.lt_iff_toNat_lt, UInt64.toNat_div, htwo] at hhalf
    omega
  · rw [ge_iff_le, UInt64.le_iff_toNat_le] at hcapped
    rw [gt_iff_lt, UInt64.lt_iff_toNat_lt, UInt64.toNat_div, htwo] at hhalf
    rw [UInt64.toNat_mul, htwo]
    omega

theorem batchStartEpoch_grant (hspent : tctx.batchEpochRemainingNs = 0) (cpuc : CpuCtx)
    (unaccounted : Bool) :
    cfg.batchMinEpochNs ≤ (batchStartEpoch cfg tctx cpuc unaccounted).1 ∧
      (batchStartEpoch cfg tctx cpuc unaccounted).1 ≤ cfg.batchMaxEpochNs := by
  have hle := hpolicy.le
  unfold batchStartEpoch
  rw [if_neg (by simpa using hspent)]
  dsimp only
  generalize cfg.batchRoundNs / _ = cap
  simp only [gt_iff_lt, lt_iff_toNat_lt, le_iff_toNat_le]
  split_ifs <;> omega

/-- A task with a target in range gets an epoch unless it has one. -/
theorem batchStartEpoch_eq (htarget : tctx.batchEpochTargetNs.toNat = grownTarget cfg n)
    (hremaining : tctx.batchEpochRemainingNs.toNat ≤ cfg.batchMaxEpochNs.toNat) (cpuc : CpuCtx)
    (unaccounted : Bool) :
    ∃ remaining : UInt64, remaining ≠ 0 ∧ remaining.toNat ≤ cfg.batchMaxEpochNs.toNat ∧
      batchStartEpoch cfg tctx cpuc unaccounted =
        (remaining, { tctx with batchEpochRemainingNs := remaining }) := by
  by_cases hspent : tctx.batchEpochRemainingNs = 0
  · have hgrant := batchStartEpoch_grant hpolicy hspent cpuc unaccounted
    have hpos := hpolicy.pos
    have hbounds := grownTarget_bounds hpolicy n
    have hinside : ¬ (tctx.batchEpochTargetNs < cfg.batchMinEpochNs ∨
        tctx.batchEpochTargetNs > cfg.batchMaxEpochNs) := by
      rw [gt_iff_lt, lt_iff_toNat_lt, lt_iff_toNat_lt]
      omega
    rw [le_iff_toNat_le, le_iff_toNat_le] at hgrant
    refine ⟨(batchStartEpoch cfg tctx cpuc unaccounted).1, ?_, hgrant.2, ?_⟩
    · intro hzero
      rw [hzero, UInt64.toNat_zero] at hgrant
      omega
    · unfold batchStartEpoch
      rw [if_neg (by simpa using hspent)]
      dsimp only
      rw [if_neg hinside]
  · refine ⟨tctx.batchEpochRemainingNs, hspent, hremaining, ?_⟩
    exact if_pos hspent

end Policy

variable {nrCpuIds : ℕ}

section Invariant

/-- The epoch of a task after `n` of its epochs were used up; `place` is the CPU on which it runs. -/
structure EpochOk (cfg : Config) (nrCpuIds : ℕ) (place : Option Cpu) (n : ℕ) (e : Epoch) : Prop where
  target : e.targetNs.toNat = grownTarget cfg n
  remaining : e.remainingNs.toNat ≤ cfg.batchMaxEpochNs.toNat
  idle : place = none → e.lastRunAt = 0
  online : e.lastRunAt ≠ 0 → ∃ cpu, e.runningCpu = some cpu ∧ cpu < nrCpuIds
  granted : e.lastRunAt ≠ 0 → e.classId = .batch → e.remainingNs ≠ 0

/-- Every task has its epoch in order. -/
def EpochsOk (cfg : Config) (place : T → Option Cpu) (n : T → ℕ) (v : Epochs T) : Prop :=
  ∀ p e, v.of p = some e → EpochOk cfg v.nrCpuIds (place p) (n p) e

variable {place place' : T → Option Cpu} {n n' : T → ℕ} {e : Epoch}

theorem EpochOk.reset {cpu : Option Cpu} (hpolicy : EpochPolicy cfg)
    (htarget : e.targetNs = cfg.batchMinEpochNs) (hremaining : e.remainingNs = 0)
    (hidle : e.lastRunAt = 0) :
    EpochOk cfg nrCpuIds cpu 0 e where
  target := by
    have hle := hpolicy.le
    rw [htarget, grownTarget]
    omega
  remaining := by
    rw [hremaining]
    exact Nat.zero_le _
  idle _ := hidle
  online h := absurd hidle h
  granted h := absurd hidle h

theorem EpochsOk.task (h : EpochsOk cfg place n s.epochs) (htask : s.tasks p = some tctx) :
    EpochOk cfg s.nrCpuIds (place p) (n p) tctx.epoch :=
  h p tctx.epoch (epochs_of htask)

theorem EpochsOk.put {v : Epochs T} (h : EpochsOk cfg place n v)
    (hplace : ∀ q, q ≠ p → place' q = place q) (hcount : ∀ q, q ≠ p → n' q = n q)
    (he : EpochOk cfg v.nrCpuIds (place' p) (n' p) e) : EpochsOk cfg place' n' (v.put p e) := by
  intro q e' he'
  by_cases hq : q = p
  · subst hq
    simp only [Epochs.put, Function.update_self, Option.some.injEq] at he'
    exact he' ▸ he
  · simp only [Epochs.put, Function.update_of_ne hq] at he'
    rw [hplace q hq, hcount q hq]
    exact h q e' he'

end Invariant

section Charges

/-- A call of `charge_runtime`: the task, its context at the call, and the arguments. -/
structure Charge (T : Type) where
  task : T
  tctx : TaskCtx
  runtime : UInt64
  runnable : Bool

/-- Whether the charge uses up an epoch of the task while the task is runnable. -/
def Charge.exhausts (charge : Charge T) (p : T) : Bool :=
  charge.task = p && charge.tctx.classId = .batch && charge.runnable &&
    charge.tctx.batchEpochRemainingNs != 0 && charge.runtime ≥ charge.tctx.batchEpochRemainingNs

def exhaustions (charges : List (Charge T)) (p : T) : ℕ := charges.countP (·.exhausts p)

theorem exhaustions_of_ne {charge : Charge T} (h : p ≠ charge.task) : exhaustions [charge] p = 0 := by
  simp [exhaustions, Charge.exhausts, h.symm]

namespace Sched

/-- The charge that `stopping` makes. -/
def stoppingCharge (s : Sched T) (p : T) (runnable : Bool) : Option (Charge T) :=
  match s.tasks p with
  | none => none
  | some tctx =>
    if tctx.lastRunAt = 0 then none
    else (tctx.runningCpu.filter (· < s.nrCpuIds)).map fun _ =>
      let now := s.kernel.ktimeGetNs
      ⟨p, tctx, if now > tctx.lastRunAt then now - tctx.lastRunAt else 1, runnable⟩

/-- The charge that `try_keep_running` makes. -/
def keepCharge (cfg : Config) (s : Sched T) (cpu : Cpu) (prev : Option T) (workConserving : Bool) :
    Option (Charge T) :=
  match s.lookupCpuCtx cpu, prev with
  | some _, some p =>
    if !(s.kernel.task p).queuedFlag || (s.kernel.task p).slice != 0 then none
    else
      match s.tasks p with
      | none => none
      | some tctx =>
        if tctx.lastRunAt = 0 ∨ tctx.runningCpu ≠ some cpu then none
        else if s.kernel.rulesSeq ≠ tctx.seenRulesSeq then none
        else if s.headDenies cfg cpu p tctx = true ∧ workConserving = false then none
        else
          match tctx.classId with
          | .latency => none
          | .batch =>
            if tctx.batchEpochRemainingNs > s.elapsedRun tctx then none
            else if (s.dsqHeadVruntime (.classDsq tctx.classId cpu)).isSome = true ∧
                workConserving = false then none
            else some ⟨p, tctx, s.elapsedRun tctx, true⟩
  | _, _ => none

/-- The calls of `try_keep_running` that the end of `dispatch` makes: the state of each and its
`work_conserving` argument. -/
def restAttempts (s : Sched T) (current : Option WorkloadClass) : List (Sched T × Bool) :=
  if current.isSome then [(s, true)] else []

/-- The calls of `try_keep_running` that `dispatch` makes. -/
def keepAttempts (cfg : Config) (s : Sched T) (cpu : Cpu) (prev : Option T) :
    List (Sched T × Bool) :=
  match s.lookupCpuCtx cpu with
  | none => []
  | some cpuc =>
    let current := s.currentClass cpu prev
    let available := fun k => s.localAvailable cpu k || current = some k
    let decision := decideClass cfg cpuc s.kernel.ktimeGetNs ⟨available, current⟩
    match decision.winner with
    | none => s.restAttempts current
    | some winner =>
      let first := if current = some winner then [(s, false)] else []
      let (kept, s) := if current = some winner then s.tryKeepRunning cfg cpu prev false
        else (false, s)
      if kept then first
      else
        match s.dispatchOwn cfg cpu decision with
        | (true, _, _) => first
        | (false, _, s) => first ++ s.restAttempts current

end Sched

end Charges

section Moves

variable {place : T → Option Cpu} {n : T → ℕ} (hpolicy : EpochPolicy cfg)

include hpolicy

/-- A grant keeps the epoch in order. -/
theorem EpochOk.start {m : ℕ} {place : Option Cpu} (h : EpochOk cfg nrCpuIds place m tctx.epoch)
    (cpuc : CpuCtx) (unaccounted : Bool) :
    EpochOk cfg nrCpuIds place m (batchStartEpoch cfg tctx cpuc unaccounted).2.epoch := by
  obtain ⟨remaining, hpos, hle, heq⟩ :=
    batchStartEpoch_eq hpolicy h.target h.remaining cpuc unaccounted
  rw [heq]
  exact ⟨h.target, hle, h.idle, h.online, fun _ _ => hpos⟩

theorem epochsOk_dispatchSlice (h : EpochsOk cfg place n s.epochs) (src : CpuCtx) (k : WorkloadClass)
    (maxSlice : UInt64) : EpochsOk cfg place n (s.dispatchSlice cfg p src k maxSlice).2.epochs := by
  cases k with
  | latency => exact h
  | batch =>
    simp only [Sched.dispatchSlice]
    cases htask : s.tasks p with
    | none => exact h
    | some tctx =>
      dsimp only
      rw [epochs_updateTask htask]
      exact h.put (fun _ _ => rfl) (fun _ _ => rfl) ((h.task htask).start hpolicy src false)

theorem epochsOk_dispatchFromCpu (h : EpochsOk cfg place n s.epochs) (srcCpu : Cpu)
    (k : WorkloadClass) (remote : Bool) (maxSlice : UInt64) :
    EpochsOk cfg place n (s.dispatchFromCpu cfg cpu srcCpu k remote maxSlice).2.epochs := by
  unfold Sched.dispatchFromCpu
  split
  · split
    · exact h
    · dsimp only
      split_ifs
      · rw [epochs_recordMoved, epochs_dsqMoveLocal]
        exact epochsOk_dispatchSlice hpolicy h _ k maxSlice
      · exact epochsOk_dispatchSlice hpolicy h _ k maxSlice
  · exact h

theorem keptByMoves_epochsOk (cpu : Cpu) :
    KeptByMoves cfg cpu fun s : Sched T => EpochsOk cfg place n s.epochs where
  cursor _ h := h
  acquired hclaim h := by rwa [epochs_acquireSourceClaim hclaim]
  released _ _ h := by rwa [epochs_releaseSourceClaim]
  moved srcCpu k remote maxSlice h := epochsOk_dispatchFromCpu hpolicy h srcCpu k remote maxSlice

end Moves

section Charging

variable {place : T → Option Cpu} {n : T → ℕ} (hpolicy : EpochPolicy cfg)

theorem epoch_chargeTask_latency (hclass : tctx.classId = .latency) (task : TaskStruct)
    (runtime : UInt64) (runnable : Bool) :
    (chargeTask cfg task tctx runtime runnable).epoch = tctx.epoch := by
  simp only [chargeTask]
  split
  · rfl
  · rename_i hbatch
    exact absurd (hclass.symm.trans hbatch) nofun

theorem epoch_chargeTask_batch (hclass : tctx.classId = .batch) (task : TaskStruct)
    (runtime : UInt64) (runnable : Bool) :
    (chargeTask cfg task tctx runtime runnable).epoch = (chargeEpoch cfg tctx runtime runnable).epoch := by
  simp only [chargeTask]
  split
  · rename_i hlatency
    exact absurd (hclass.symm.trans hlatency) nofun
  · simp only [chargeEpoch]
    split_ifs <;> rfl

theorem epochs_chargeRuntime (cfg : Config) {runtime : UInt64} (htask : s.tasks p = some tctx)
    (hcpu : cpu < s.nrCpuIds) (hruntime : runtime ≠ 0) (runnable : Bool) :
    ∃ s', s.chargeRuntime cfg p cpu runtime runnable = (true, s') ∧
      s'.tasks p = some (chargeTask cfg (s.kernel.task p) tctx runtime runnable) ∧
      s'.epochs = s.epochs.put p (chargeTask cfg (s.kernel.task p) tctx runtime runnable).epoch := by
  unfold Sched.chargeRuntime
  rw [if_neg hruntime, htask, Sched.lookupCpuCtx, if_pos hcpu]
  refine ⟨_, rfl, ?_, ?_⟩
  · simp [Sched.updateTask, Sched.chargeClassTotal, Sched.updateClass, Sched.updateCpu, htask]
  · have hcharged := epochs_updateTask
      (f := fun tctx => chargeTask cfg (s.kernel.task p) tctx runtime runnable) htask
    exact hcharged

include hpolicy

/-- A charge leaves everything but the epoch alone, and counts the epoch if it uses it up. -/
theorem EpochOk.charged {m : ℕ} {place : Option Cpu} (p : T)
    (h : EpochOk cfg nrCpuIds place m tctx.epoch) (hrun : tctx.lastRunAt ≠ 0) (task : TaskStruct)
    (runtime : UInt64) (runnable : Bool) :
    ∃ target remaining : UInt64,
      (chargeTask cfg task tctx runtime runnable).epoch =
        { tctx.epoch with targetNs := target, remainingNs := remaining } ∧
      target.toNat = grownTarget cfg (m + exhaustions [⟨p, tctx, runtime, runnable⟩] p) ∧
      remaining.toNat ≤ cfg.batchMaxEpochNs.toNat := by
  cases hclass : tctx.classId with
  | latency =>
    have hnone : exhaustions [⟨p, tctx, runtime, runnable⟩] p = 0 := by
      simp [exhaustions, Charge.exhausts, hclass]
    refine ⟨tctx.batchEpochTargetNs, tctx.batchEpochRemainingNs, ?_, ?_, h.remaining⟩
    · exact epoch_chargeTask_latency hclass task runtime runnable
    · rw [hnone]
      exact h.target
  | batch =>
    have hgranted : tctx.batchEpochRemainingNs ≠ 0 := h.granted hrun hclass
    by_cases hspent : runtime ≥ tctx.batchEpochRemainingNs
    · refine ⟨if runnable then nextBatchEpoch cfg tctx else tctx.batchEpochTargetNs, 0, ?_, ?_,
        Nat.zero_le _⟩
      · rw [epoch_chargeTask_batch hclass]
        simp only [chargeEpoch]
        rw [if_pos ⟨hgranted, hspent⟩]
        rfl
      · cases runnable with
        | true =>
          have hone : exhaustions [⟨p, tctx, runtime, true⟩] p = 1 := by
            simp [exhaustions, Charge.exhausts, hclass, hgranted, hspent]
          rw [hone]
          exact nextBatchEpoch_grown hpolicy h.target
        | false =>
          have hnone : exhaustions [⟨p, tctx, runtime, false⟩] p = 0 := by
            simp [exhaustions, Charge.exhausts]
          rw [hnone]
          exact h.target
    · have hnone : exhaustions [⟨p, tctx, runtime, runnable⟩] p = 0 := by
        simp [exhaustions, Charge.exhausts, hspent]
      have hless : runtime.toNat < tctx.batchEpochRemainingNs.toNat := by
        rw [ge_iff_le, le_iff_toNat_le] at hspent
        omega
      refine ⟨tctx.batchEpochTargetNs, tctx.batchEpochRemainingNs - runtime, ?_, ?_, ?_⟩
      · rw [epoch_chargeTask_batch hclass]
        simp only [chargeEpoch]
        rw [if_neg fun h => hspent h.2, if_pos hgranted]
        rfl
      · rw [hnone]
        exact h.target
      · have hremaining : tctx.batchEpochRemainingNs.toNat ≤ _ := h.remaining
        rw [UInt64.toNat_sub_of_le _ _ (UInt64.le_iff_toNat_le.mpr hless.le)]
        omega

/-- The epoch that a batch task starts in place comes after the one it has used up. -/
theorem epochsOk_renewBatch (h : EpochsOk cfg place n s.epochs) (htask : s.tasks p = some tctx)
    (hbatch : tctx.classId = .batch) (hrun : tctx.lastRunAt ≠ 0) (hcpu : cpu < s.nrCpuIds)
    {elapsed : UInt64} (hspent : ¬ tctx.batchEpochRemainingNs > elapsed) :
    EpochsOk cfg place (fun q => n q + exhaustions [⟨p, tctx, elapsed, true⟩] q)
      (s.renewBatch cfg cpu p elapsed).2.epochs := by
  have hok := h.task htask
  have hgranted : tctx.batchEpochRemainingNs ≠ 0 := hok.granted hrun hbatch
  have helapsed : elapsed ≠ 0 := by
    rintro rfl
    rw [gt_iff_lt, UInt64.not_lt, UInt64.le_iff_toNat_le, UInt64.toNat_zero] at hspent
    exact hgranted (UInt64.toNat_inj.mp (by rw [UInt64.toNat_zero]; omega))
  obtain ⟨s₁, hcharge, htask₁, hepochs₁⟩ :=
    epochs_chargeRuntime cfg htask hcpu helapsed true
  obtain ⟨target, remaining, hcharged, htarget, hremaining⟩ :=
    hok.charged hpolicy p hrun (s.kernel.task p) elapsed true
  unfold Sched.renewBatch
  rw [hcharge]
  dsimp only
  generalize hclocked : { chargeTask cfg (s.kernel.task p) tctx elapsed true with
    lastRunAt := s₁.kernel.ktimeGetNs } = clocked
  generalize hs₂ : ((s₁.updateCpu cpu fun cpuc =>
    { cpuc with runningSince := s₁.kernel.ktimeGetNs }).updateTask p fun tctx =>
      { tctx with lastRunAt := s₁.kernel.ktimeGetNs }) = s₂
  have htask₂ : s₂.tasks p = some clocked := by
    rw [← hs₂, ← hclocked]
    simp [Sched.updateTask, Sched.updateCpu, htask₁]
  have hepochs₂ : s₂.epochs = s₁.epochs.put p clocked.epoch := by
    rw [← hs₂, ← hclocked]
    exact epochs_updateTask (s := s₁.updateCpu cpu _) htask₁
  have hgrant (cpuc : CpuCtx) : EpochOk cfg s.nrCpuIds (place p)
      (n p + exhaustions [⟨p, tctx, elapsed, true⟩] p)
      (batchStartEpoch cfg clocked cpuc false).2.epoch := by
    have hepoch : clocked.epoch = { tctx.epoch with
        lastRunAt := s₁.kernel.ktimeGetNs, targetNs := target, remainingNs := remaining } := by
      rw [← hclocked]
      exact congrArg (fun e => { e with lastRunAt := s₁.kernel.ktimeGetNs }) hcharged
    obtain ⟨granted, hpos, hle, heq⟩ := batchStartEpoch_eq hpolicy
      ((congrArg (UInt64.toNat ∘ Epoch.targetNs) hepoch).trans htarget)
      ((congrArg (UInt64.toNat ∘ Epoch.remainingNs) hepoch).trans_le hremaining) cpuc false
    have hgranted : ({ clocked with batchEpochRemainingNs := granted } : TaskCtx).epoch =
        { tctx.epoch with
          lastRunAt := s₁.kernel.ktimeGetNs, targetNs := target, remainingNs := granted } :=
      congrArg (fun e => { e with remainingNs := granted }) hepoch
    rw [heq, hgranted]
    exact ⟨htarget, hle, fun hidle => absurd (hok.idle hidle) hrun, fun _ => hok.online hrun,
      fun _ _ => hpos⟩
  have hput (cpuc : CpuCtx) (f : CpuClassCtx → CpuClassCtx) :
      EpochsOk cfg place (fun q => n q + exhaustions [⟨p, tctx, elapsed, true⟩] q)
        ((s₂.updateEntity cpu .batch f).updateTask p fun _ =>
          (batchStartEpoch cfg clocked cpuc false).2).epochs := by
    rw [epochs_updateTask (s := s₂.updateEntity cpu .batch f) htask₂, epochs_updateEntity, hepochs₂,
      hepochs₁, Epochs.put_put, Epochs.put_put]
    refine h.put (fun _ _ => rfl) (fun q hq => ?_) (hgrant cpuc)
    rw [exhaustions_of_ne hq, Nat.add_zero]
  rw [htask₂]
  dsimp only
  split_ifs
  · exact hput _ _
  · rw [epochs_arbitrateLockedCpu, epochs_taskSetSlice]
    exact hput _ _

theorem epochsOk_tryKeepRunning (cpu : Cpu) (h : EpochsOk cfg place n s.epochs) (prev : Option T)
    (workConserving : Bool) :
    EpochsOk cfg place
      (fun q => n q + exhaustions (s.keepCharge cfg cpu prev workConserving).toList q)
      (s.tryKeepRunning cfg cpu prev workConserving).2.epochs := by
  unfold Sched.tryKeepRunning Sched.keepCharge
  by_cases hcpu : cpu < s.nrCpuIds
  · cases prev with
    | none =>
      rw [Sched.lookupCpuCtx, if_pos hcpu]
      exact h
    | some p =>
      rw [Sched.lookupCpuCtx, if_pos hcpu]
      dsimp only
      split_ifs
      · exact h
      · cases htask : s.tasks p with
        | none => exact h
        | some tctx =>
          dsimp only
          cases hclass : tctx.classId with
          | latency =>
            dsimp only
            split_ifs
            · exact h
            · exact h
            · exact h
            · rw [epochs_keepLatency]
              exact h
          | batch =>
            dsimp only
            split_ifs with hrun hseq hdenied hmore hhead
            · exact h
            · exact h
            · exact h
            · rw [Sched.keepBatch, if_pos hmore, epochs_arbitrateLockedCpu, epochs_taskSetSlice]
              exact h
            · rw [Sched.keepBatch, if_neg hmore, hclass, if_pos hhead]
              exact h
            · rw [Sched.keepBatch, if_neg hmore, hclass, if_neg hhead]
              exact epochsOk_renewBatch hpolicy h htask hclass (fun hzero => hrun (.inl hzero)) hcpu hmore
  · rw [Sched.lookupCpuCtx, if_neg hcpu]
    exact h

end Charging

section Dispatching

/-- The charges of the calls of `try_keep_running`. -/
def attemptCharges (cfg : Config) (cpu : Cpu) (prev : Option T) (attempts : List (Sched T × Bool)) :
    List (Charge T) :=
  attempts.flatMap fun attempt => (attempt.1.keepCharge cfg cpu prev attempt.2).toList

theorem exhaustions_append_attempts {prev : Option T} (first second : List (Sched T × Bool)) (q : T) :
    exhaustions (attemptCharges cfg cpu prev (first ++ second)) q =
      exhaustions (attemptCharges cfg cpu prev first) q +
        exhaustions (attemptCharges cfg cpu prev second) q := by
  simp only [exhaustions, attemptCharges, List.flatMap_append, List.countP_append]

variable {place : T → Option Cpu} {n : T → ℕ} (hpolicy : EpochPolicy cfg)

include hpolicy

theorem epochsOk_attempt (cpu : Cpu) (h : EpochsOk cfg place n s.epochs) (prev : Option T) (attempted : Prop)
    [Decidable attempted] (workConserving : Bool) :
    EpochsOk cfg place
      (fun q => n q + exhaustions (attemptCharges cfg cpu prev
        (if attempted then [(s, workConserving)] else [])) q)
      (if attempted then s.tryKeepRunning cfg cpu prev workConserving else (false, s)).2.epochs := by
  split_ifs
  · have hkept := epochsOk_tryKeepRunning hpolicy cpu h prev workConserving
    simpa [attemptCharges] using hkept
  · exact h

theorem epochsOk_dispatchRest (cpu : Cpu) (h : EpochsOk cfg place n s.epochs) (prev : Option T)
    (current : Option WorkloadClass) (claimBusy : Bool) :
    EpochsOk cfg place
      (fun q => n q + exhaustions (attemptCharges cfg cpu prev (s.restAttempts current)) q)
      (s.dispatchRest cfg cpu prev current claimBusy).epochs := by
  have hkept : EpochsOk cfg place
      (fun q => n q + exhaustions (attemptCharges cfg cpu prev (s.restAttempts current)) q)
      (if current.isSome = true then s.tryKeepRunning cfg cpu prev true else (false, s)).2.epochs :=
    epochsOk_attempt hpolicy cpu h prev (current.isSome = true) true
  unfold Sched.dispatchRest
  generalize (if current.isSome = true then s.tryKeepRunning cfg cpu prev true
      else (false, s)) = kept at hkept ⊢
  obtain ⟨kept, s₁⟩ := kept
  dsimp only at hkept ⊢
  split_ifs
  · exact hkept
  · rw [epochs_kickCpu]
    exact hkept
  · exact hkept
  · refine (keptByMoves_epochsOk hpolicy cpu).stealAny ?_ _
    rw [epochs_pickRemoteClass]
    exact hkept

theorem epochsOk_dispatch (h : EpochsOk cfg place n s.epochs) (prev : Option T) :
    EpochsOk cfg place
        (fun q => n q + exhaustions (attemptCharges cfg cpu prev (s.keepAttempts cfg cpu prev)) q)
        (s.dispatch cfg cpu prev).epochs ∧
      ∀ attempt ∈ s.keepAttempts cfg cpu prev, ∃ n', EpochsOk cfg place n' attempt.1.epochs := by
  have hattempts {s₁ : Sched T} {n₁ : T → ℕ} (h₁ : EpochsOk cfg place n₁ s₁.epochs) (attempted : Prop)
      [Decidable attempted] (workConserving : Bool) :
      ∀ attempt ∈ (if attempted then [(s₁, workConserving)] else []),
        ∃ n', EpochsOk cfg place n' attempt.1.epochs := by
    intro attempt hattempt
    split_ifs at hattempt
    · rw [List.mem_singleton] at hattempt
      exact ⟨n₁, hattempt ▸ h₁⟩
    · cases hattempt
  unfold Sched.dispatch Sched.keepAttempts
  cases s.lookupCpuCtx cpu with
  | none => exact ⟨h, nofun⟩
  | some cpuc =>
    dsimp only
    generalize decideClass cfg cpuc s.kernel.ktimeGetNs _ = decision
    cases decision.winner with
    | none => exact ⟨epochsOk_dispatchRest hpolicy cpu h prev _ false, hattempts h _ true⟩
    | some winner =>
      dsimp only
      have hkept := epochsOk_attempt hpolicy cpu h prev
        (s.currentClass cpu prev = some winner) false
      have hfirst := hattempts h (s.currentClass cpu prev = some winner) false
      generalize (if s.currentClass cpu prev = some winner then [(s, false)] else []) = first
        at hkept hfirst ⊢
      generalize (if s.currentClass cpu prev = some winner then
          s.tryKeepRunning cfg cpu prev false else (false, s)) = kept at hkept ⊢
      obtain ⟨kept, s₁⟩ := kept
      dsimp only at hkept ⊢
      split_ifs
      · exact ⟨hkept, hfirst⟩
      · have hown := (keptByMoves_epochsOk hpolicy cpu).dispatchOwn hkept decision
        generalize s₁.dispatchOwn cfg cpu decision = own at hown ⊢
        obtain ⟨moved, busy, s₂⟩ := own
        cases moved with
        | true => exact ⟨hown, hfirst⟩
        | false =>
          have hend := epochsOk_dispatchRest hpolicy cpu hown prev
            (s.currentClass cpu prev) busy
          refine ⟨?_, ?_⟩
          · simp only [exhaustions_append_attempts, ← Nat.add_assoc]
            exact hend
          · intro attempt hattempt
            rcases List.mem_append.mp hattempt with hattempt | hattempt
            · exact hfirst attempt hattempt
            · exact hattempts hown _ true attempt hattempt

end Dispatching

end ScxAgent.Scheduler
