import ScxAgent.MachineWords
import ScxAgent.Scheduler.QueueAccounting

/-!
# The lag of a task across CPUs

The lag of a task is the clock of its class on a CPU minus its vruntime. `task_rebase_vruntime`
carries it over to another CPU within the bounds of `clamp_task_vlag`, as long as no operation wraps
or saturates.
-/

namespace ScxAgent.Scheduler

open MachineWords UInt64

variable {T : Type} {cfg : Config} {s : Sched T} {p : TaskStruct} {k : WorkloadClass}

def creditBound (cfg : Config) (p : TaskStruct) (k : WorkloadClass) : ℤ :=
  (p.scaleByTaskWeightInverse (creditNs cfg k)).toNat

def debtBound (cfg : Config) (p : TaskStruct) (k : WorkloadClass) : ℤ :=
  (p.scaleByTaskWeightInverse (debtNs cfg k)).toNat

def clampLag (cfg : Config) (p : TaskStruct) (k : WorkloadClass) (lag : ℤ) : ℤ :=
  max (-debtBound cfg p k) (min (creditBound cfg p k) lag)

/-- The bounds of the lag are not negative as signed words. -/
structure BoundsFit (cfg : Config) (p : TaskStruct) (k : WorkloadClass) : Prop where
  credit_high : creditBound cfg p k < 2 ^ 63
  debt_high : debtBound cfg p k < 2 ^ 63

/-- A task with this lag behind the clock has a vruntime. -/
def Placeable (vtime : UInt64) (lag : ℤ) : Prop :=
  0 ≤ vtime.toNat - lag ∧ vtime.toNat - lag < 2 ^ 64

instance (vtime : UInt64) (lag : ℤ) : Decidable (Placeable vtime lag) :=
  inferInstanceAs (Decidable (_ ∧ _))

theorem toNat_applyVlag {vtime : UInt64} {vlag : Int64} (h : Placeable vtime vlag.toInt) :
    ((applyVlag vtime vlag).toNat : ℤ) = vtime.toNat - vlag.toInt := by
  obtain ⟨hlow, hhigh⟩ := h
  have hvtime := toNat_lt vtime
  have hvlag := vlag.toInt_lt
  have hvlag' := vlag.le_toInt
  have hsign : 0 ≤ vlag ↔ 0 ≤ vlag.toInt := by
    rw [Int64.le_iff_toInt_le]
    rfl
  unfold applyVlag
  by_cases hcredit : 0 ≤ vlag.toInt
  · have hamount : (vlag.toUInt64.toNat : ℤ) = vlag.toInt := by
      rw [toNat_toUInt64]
      omega
    rw [if_pos (hsign.mpr hcredit)]
    dsimp only
    split_ifs with hmore
    · rw [gt_iff_lt, lt_iff_toNat_lt] at hmore
      rw [UInt64.toNat_sub]
      omega
    · rw [gt_iff_lt, UInt64.lt_iff_toNat_lt] at hmore
      rw [UInt64.toNat_zero]
      omega
  · have hamount : ((-vlag).toUInt64.toNat : ℤ) = -vlag.toInt := by
      rw [toNat_toUInt64, Int64.toInt_neg, Int.bmod_def]
      split_ifs <;> omega
    have hmax : u64Max.toNat = 2 ^ 64 - 1 := by decide
    have hroom : (u64Max - vtime).toNat = 2 ^ 64 - 1 - vtime.toNat := by
      rw [UInt64.toNat_sub, hmax]
      omega
    rw [if_neg (hsign.not.mpr hcredit)]
    dsimp only
    rw [if_neg (by rw [UInt64.lt_iff_toNat_lt, hroom]; omega), UInt64.toNat_add]
    omega

theorem toInt_clampTaskVlag (hfit : BoundsFit cfg p k) (vlag : Int64) :
    (clampTaskVlag cfg p k vlag).toInt = clampLag cfg p k vlag.toInt := by
  have hcreditHigh := hfit.credit_high
  have hdebtHigh := hfit.debt_high
  unfold creditBound at hcreditHigh
  unfold debtBound at hdebtHigh
  have hcredit : (p.scaleByTaskWeightInverse (creditNs cfg k)).toInt64.toInt = creditBound cfg p k :=
    toInt_of_small _ (by exact_mod_cast hcreditHigh)
  have hdebt : (-(p.scaleByTaskWeightInverse (debtNs cfg k)).toInt64).toInt = -debtBound cfg p k := by
    rw [Int64.toInt_neg, toInt_of_small _ (by exact_mod_cast hdebtHigh), debtBound, Int.bmod_def]
    split_ifs <;> omega
  simp only [clampTaskVlag, gt_iff_lt, Int64.lt_iff_toInt_lt, hcredit, hdebt]
  unfold clampLag
  have hcreditLow : 0 ≤ creditBound cfg p k := Int.natCast_nonneg _
  have hdebtLow : 0 ≤ debtBound cfg p k := Int.natCast_nonneg _
  split_ifs with habove hbelow
  · rw [hcredit]
    omega
  · rw [hdebt]
    omega
  · omega

theorem clampLag_of_within {lag : ℤ} (hdebt : -debtBound cfg p k ≤ lag)
    (hcredit : lag ≤ creditBound cfg p k) : clampLag cfg p k lag = lag := by
  unfold clampLag
  omega

/-- The lag that a task would have on a CPU. -/
def lagOn (s : Sched T) (tctx : TaskCtx) (cpu : Cpu) : ℤ :=
  (cpuTaskVtime (s.cpus cpu) tctx.classId).toNat - tctx.vruntime.toNat

section Equations

variable {tctx : TaskCtx} {old cpu : Cpu} {wakeup : Bool}

/-- A task whose lag was saved when it slept. -/
def SavedLag (tctx : TaskCtx) : Prop := tctx.classId = .latency ∧ tctx.hasSleepVlag = true

instance (tctx : TaskCtx) : Decidable (SavedLag tctx) := inferInstanceAs (Decidable (_ ∧ _))

/-- The lag that a rebase carries over from the CPU on which the task was placed. -/
def carriedLag (s : Sched T) (tctx : TaskCtx) (cpu : Cpu) : ℤ :=
  if SavedLag tctx then tctx.sleepVlag.toInt else lagOn s tctx cpu

theorem taskRebaseVruntime_saved (hcpu : cpu < s.nrCpuIds) (hplaced : tctx.vtimeCpu = some old)
    (hsaved : SavedLag tctx) :
    taskRebaseVruntime cfg s p tctx cpu wakeup = some { tctx with
      vruntime := applyVlag (cpuTaskVtime (s.cpus cpu) tctx.classId)
        (clampTaskVlag cfg p tctx.classId tctx.sleepVlag)
      vtimeCpu := some cpu
      hasSleepVlag := false } := by
  unfold taskRebaseVruntime
  rw [lookupCpuCtx_of_lt hcpu]
  simp only [hplaced]
  exact if_pos hsaved

theorem taskRebaseVruntime_unsaved (hcpu : cpu < s.nrCpuIds) (hplaced : tctx.vtimeCpu = some old)
    (hsaved : ¬ SavedLag tctx) :
    taskRebaseVruntime cfg s p tctx cpu wakeup =
      (migrateVruntime cfg s p tctx (s.cpus cpu) cpu old).map fun tctx =>
        { limitWakeupCredit cfg p (s.cpus cpu) wakeup tctx with hasSleepVlag := false } := by
  unfold taskRebaseVruntime
  rw [lookupCpuCtx_of_lt hcpu]
  simp only [hplaced]
  exact if_neg hsaved

theorem migrateVruntime_same : migrateVruntime cfg s p tctx (s.cpus cpu) cpu cpu = some tctx :=
  if_pos rfl

theorem migrateVruntime_other (hold : old < s.nrCpuIds) (hother : cpu ≠ old) :
    migrateVruntime cfg s p tctx (s.cpus cpu) cpu old = some { tctx with
      vruntime := applyVlag (cpuTaskVtime (s.cpus cpu) tctx.classId) (clampTaskVlag cfg p tctx.classId
        (cpuTaskVtime (s.cpus old) tctx.classId - tctx.vruntime).toInt64)
      vtimeCpu := some cpu } := by
  unfold migrateVruntime
  rw [if_neg hother.symm, lookupCpuCtx_of_lt hold]
  rfl

theorem limitWakeupCredit_asleep : limitWakeupCredit cfg p (s.cpus cpu) false tctx = tctx :=
  if_neg fun h => by simp at h

end Equations

section Rebase

variable {tctx : TaskCtx} {old cpu : Cpu}

/-- What a rebase leaves behind: the task is placed on the CPU and no lag is saved. -/
structure Rebased (s : Sched T) (tctx moved : TaskCtx) (cpu : Cpu) (lag : ℤ) : Prop where
  class_eq : moved.classId = tctx.classId
  placed : moved.vtimeCpu = some cpu
  unsaved : moved.hasSleepVlag = false
  lag_eq : lagOn s moved cpu = lag

/-- No operation of a rebase to another CPU wraps or saturates. -/
structure RebaseFits (cfg : Config) (s : Sched T) (p : TaskStruct) (tctx : TaskCtx) (old cpu : Cpu) :
    Prop where
  lag_low : -2 ^ 63 ≤ carriedLag s tctx old
  lag_high : carriedLag s tctx old < 2 ^ 63
  placeable : Placeable (cpuTaskVtime (s.cpus cpu) tctx.classId)
    (clampLag cfg p tctx.classId (carriedLag s tctx old))

/-- The lag after `apply_vlag` is the one that was applied. -/
theorem lagOn_applyVlag {vlag : Int64} {moved : TaskCtx}
    (hvruntime : moved.vruntime = applyVlag (cpuTaskVtime (s.cpus cpu) moved.classId) vlag)
    (h : Placeable (cpuTaskVtime (s.cpus cpu) moved.classId) vlag.toInt) :
    lagOn s moved cpu = vlag.toInt := by
  unfold lagOn
  rw [hvruntime, toNat_applyVlag h]
  omega

section Fitting

variable (hfit : BoundsFit cfg p tctx.classId)
include hfit

/-- The migration itself, whether or not the task wakes up. -/
theorem migrateVruntime_rebased (hsaved : ¬ SavedLag tctx) (hold : old < s.nrCpuIds)
    (hother : cpu ≠ old) (hfits : RebaseFits cfg s p tctx old cpu) :
    ∃ moved, migrateVruntime cfg s p tctx (s.cpus cpu) cpu old = some moved ∧
      moved.classId = tctx.classId ∧ moved.vtimeCpu = some cpu ∧
      lagOn s moved cpu = clampLag cfg p tctx.classId (carriedLag s tctx old) := by
  obtain ⟨hlow, hhigh, hplace⟩ := hfits
  rw [carriedLag, if_neg hsaved] at hlow hhigh hplace ⊢
  have hlag : (cpuTaskVtime (s.cpus old) tctx.classId - tctx.vruntime).toInt64.toInt =
      lagOn s tctx old := toInt_sub_of_fits _ _ hlow hhigh
  rw [← hlag, ← toInt_clampTaskVlag hfit] at hplace ⊢
  exact ⟨_, migrateVruntime_other hold hother, rfl, rfl, lagOn_applyVlag rfl hplace⟩

theorem rebase_other (hplaced : tctx.vtimeCpu = some old) (hold : old < s.nrCpuIds)
    (hcpu : cpu < s.nrCpuIds) (hother : cpu ≠ old) (hfits : RebaseFits cfg s p tctx old cpu) :
    ∃ moved, taskRebaseVruntime cfg s p tctx cpu false = some moved ∧
      Rebased s tctx moved cpu (clampLag cfg p tctx.classId (carriedLag s tctx old)) := by
  by_cases hsaved : SavedLag tctx
  · have hplace := hfits.placeable
    rw [carriedLag, if_pos hsaved, ← toInt_clampTaskVlag hfit] at hplace ⊢
    exact ⟨_, taskRebaseVruntime_saved hcpu hplaced hsaved, rfl, rfl, rfl, lagOn_applyVlag rfl hplace⟩
  · obtain ⟨moved, hmoved, hclass, hvtimeCpu, hlag⟩ :=
      migrateVruntime_rebased hfit hsaved hold hother hfits
    have hrebase : taskRebaseVruntime cfg s p tctx cpu false = _ :=
      taskRebaseVruntime_unsaved hcpu hplaced hsaved
    rw [hmoved, Option.map_some, limitWakeupCredit_asleep] at hrebase
    exact ⟨_, hrebase, hclass, hvtimeCpu, rfl, hlag⟩

/-- A task keeps a lag within the bounds wherever it goes. -/
theorem rebase_within (hplaced : tctx.vtimeCpu = some old) (hsaved : tctx.hasSleepVlag = false)
    (hold : old < s.nrCpuIds) (hcpu : cpu < s.nrCpuIds)
    (hdebt : -debtBound cfg p tctx.classId ≤ lagOn s tctx old)
    (hcredit : lagOn s tctx old ≤ creditBound cfg p tctx.classId)
    (hplace : Placeable (cpuTaskVtime (s.cpus cpu) tctx.classId) (lagOn s tctx old)) :
    ∃ moved, taskRebaseVruntime cfg s p tctx cpu false = some moved ∧
      Rebased s tctx moved cpu (lagOn s tctx old) := by
  have hunsaved : ¬ SavedLag tctx := fun h => by simp [h.2] at hsaved
  by_cases hsame : cpu = old
  · subst hsame
    refine ⟨{ tctx with hasSleepVlag := false }, ?_, rfl, hplaced, rfl, rfl⟩
    rw [taskRebaseVruntime_unsaved hcpu hplaced hunsaved, migrateVruntime_same, Option.map_some,
      limitWakeupCredit_asleep]
  · have hcarried : carriedLag s tctx old = lagOn s tctx old := if_neg hunsaved
    have hclamped := clampLag_of_within hdebt hcredit
    have hcreditHigh := hfit.credit_high
    have hdebtHigh := hfit.debt_high
    have hfits : RebaseFits cfg s p tctx old cpu := by
      refine ⟨?_, ?_, ?_⟩ <;> rw [hcarried]
      · omega
      · omega
      · rwa [hclamped]
    have hmoved := rebase_other hfit hplaced hold hcpu hsame hfits
    rwa [hcarried, hclamped] at hmoved

/-- A tour over CPUs whose clocks stand still. -/
def tour (cfg : Config) (s : Sched T) (p : TaskStruct) (tctx : TaskCtx) (cpus : List Cpu) :
    Option TaskCtx :=
  cpus.foldlM (fun tctx cpu => taskRebaseVruntime cfg s p tctx cpu false) tctx

theorem tour_keeps_lag {cpus : List Cpu} (hplaced : tctx.vtimeCpu = some old)
    (hsaved : tctx.hasSleepVlag = false) (hold : old < s.nrCpuIds)
    (hcpus : ∀ cpu ∈ cpus, cpu < s.nrCpuIds)
    (hdebt : -debtBound cfg p tctx.classId ≤ lagOn s tctx old)
    (hcredit : lagOn s tctx old ≤ creditBound cfg p tctx.classId)
    (hplace : ∀ cpu ∈ cpus,
      Placeable (cpuTaskVtime (s.cpus cpu) tctx.classId) (lagOn s tctx old)) :
    ∃ moved, tour cfg s p tctx cpus = some moved ∧
      lagOn s moved (cpus.getLast?.getD old) = lagOn s tctx old := by
  induction cpus generalizing tctx old with
  | nil => exact ⟨tctx, rfl, rfl⟩
  | cons cpu cpus ih =>
    obtain ⟨hcpu, hcpus⟩ := List.forall_mem_cons.mp hcpus
    obtain ⟨hhere, hplace⟩ := List.forall_mem_cons.mp hplace
    obtain ⟨next, hnext, hrebased⟩ := rebase_within hfit hplaced hsaved hold hcpu hdebt hcredit hhere
    rw [← hrebased.class_eq, ← hrebased.lag_eq] at hdebt hcredit hplace
    rw [← hrebased.class_eq] at hfit
    obtain ⟨moved, hmoved, hlag⟩ :=
      ih hfit hrebased.placed hrebased.unsaved hcpu hcpus hdebt hcredit hplace
    refine ⟨moved, ?_, ?_⟩
    · unfold tour at hmoved ⊢
      rw [List.foldlM_cons, hnext]
      exact hmoved
    · rw [← hrebased.lag_eq, ← hlag, List.getLast?_cons]
      rfl

end Fitting

end Rebase

section Wakeup

variable {tctx : TaskCtx} {old cpu : Cpu}

/-- The vruntime below which a batch task is not left when it wakes up. -/
def creditFloor (cfg : Config) (p : TaskStruct) (vtime : UInt64) : ℤ :=
  max 0 (vtime.toNat - creditBound cfg p .batch)

/-- A batch task that wakes up is credited with its bound at most. -/
theorem lagOn_limitWakeupCredit (hbatch : tctx.classId = .batch)
    (hlow : -2 ^ 63 ≤ tctx.vruntime.toNat - creditFloor cfg p (cpuTaskVtime (s.cpus cpu) .batch))
    (hhigh : tctx.vruntime.toNat - creditFloor cfg p (cpuTaskVtime (s.cpus cpu) .batch) < 2 ^ 63) :
    lagOn s (limitWakeupCredit cfg p (s.cpus cpu) true tctx) cpu ≤ creditBound cfg p .batch := by
  have hfloor (vtime : UInt64) : ((if vtime > p.scaleByTaskWeightInverse cfg.batchMinEpochNs then
      vtime - p.scaleByTaskWeightInverse cfg.batchMinEpochNs else 0 : UInt64).toNat : ℤ) =
      creditFloor cfg p vtime := by
    have hvtime := toNat_lt vtime
    have hcredit : creditBound cfg p .batch =
        (p.scaleByTaskWeightInverse cfg.batchMinEpochNs).toNat := rfl
    unfold creditFloor
    rw [hcredit]
    split_ifs with hmore
    · rw [gt_iff_lt, lt_iff_toNat_lt] at hmore
      rw [UInt64.toNat_sub]
      omega
    · rw [gt_iff_lt, UInt64.lt_iff_toNat_lt] at hmore
      rw [UInt64.toNat_zero]
      omega
  unfold limitWakeupCredit
  rw [hbatch]
  dsimp only
  generalize hword : (if cpuTaskVtime (s.cpus cpu) .batch >
      p.scaleByTaskWeightInverse cfg.batchMinEpochNs then cpuTaskVtime (s.cpus cpu) .batch -
        p.scaleByTaskWeightInverse cfg.batchMinEpochNs else 0 : UInt64) = floor
  have hvalue := hfloor (cpuTaskVtime (s.cpus cpu) .batch)
  rw [hword] at hvalue
  rw [← hvalue] at hlow hhigh
  have hbefore : timeBefore tctx.vruntime floor = true ↔ tctx.vruntime.toNat < floor.toNat := by
    have hzero : (0 : Int64).toInt = 0 := rfl
    unfold timeBefore
    rw [decide_eq_true_eq, Int64.lt_iff_toInt_lt, toInt_sub_of_fits _ _ hlow hhigh, hzero]
    omega
  unfold creditFloor at hvalue
  split_ifs with hlimited
  · unfold lagOn
    dsimp only
    omega
  · have hkept : ¬ tctx.vruntime.toNat < floor.toNat := fun h =>
      hlimited ⟨rfl, rfl, hbefore.mpr h⟩
    unfold lagOn
    rw [hbatch]
    omega

/-- The vruntime of a placed batch task when its wakeup is judged. -/
def wokenVruntime (cfg : Config) (s : Sched T) (p : TaskStruct) (tctx : TaskCtx) (old cpu : Cpu) : ℤ :=
  if cpu = old then tctx.vruntime.toNat
  else (cpuTaskVtime (s.cpus cpu) .batch).toNat - clampLag cfg p .batch (lagOn s tctx old)

/-- No operation of the wakeup of a batch task wraps or saturates. -/
structure WakeupFits (cfg : Config) (s : Sched T) (p : TaskStruct) (tctx : TaskCtx) (old cpu : Cpu) :
    Prop where
  migration : cpu ≠ old → RebaseFits cfg s p tctx old cpu
  distance_low : -2 ^ 63 ≤
    wokenVruntime cfg s p tctx old cpu - creditFloor cfg p (cpuTaskVtime (s.cpus cpu) .batch)
  distance_high :
    wokenVruntime cfg s p tctx old cpu - creditFloor cfg p (cpuTaskVtime (s.cpus cpu) .batch) < 2 ^ 63

theorem rebase_wakeup (hbatch : tctx.classId = .batch) (hfit : BoundsFit cfg p tctx.classId)
    (hplaced : tctx.vtimeCpu = some old) (hold : old < s.nrCpuIds) (hcpu : cpu < s.nrCpuIds)
    (hfits : WakeupFits cfg s p tctx old cpu) :
    ∃ moved, taskRebaseVruntime cfg s p tctx cpu true = some moved ∧
      lagOn s moved cpu ≤ creditBound cfg p .batch := by
  have hsaved : ¬ SavedLag tctx := fun h => by simp [SavedLag, hbatch] at h
  obtain ⟨hmigration, hlow, hhigh⟩ := hfits
  have hmigrate : ∃ moved, migrateVruntime cfg s p tctx (s.cpus cpu) cpu old = some moved ∧
      moved.classId = .batch ∧ (moved.vruntime.toNat : ℤ) = wokenVruntime cfg s p tctx old cpu := by
    unfold wokenVruntime
    by_cases hsame : cpu = old
    · subst hsame
      exact ⟨tctx, migrateVruntime_same, hbatch, (if_pos rfl).symm⟩
    · obtain ⟨moved, hmoved, hclass, -, hlag⟩ :=
        migrateVruntime_rebased hfit hsaved hold hsame (hmigration hsame)
      rw [hbatch] at hclass
      rw [hbatch, carriedLag, if_neg hsaved, lagOn, hclass] at hlag
      refine ⟨moved, hmoved, hclass, ?_⟩
      rw [if_neg hsame]
      omega
  obtain ⟨moved, hmoved, hclass, hvruntime⟩ := hmigrate
  rw [← hvruntime] at hlow hhigh
  refine ⟨{ limitWakeupCredit cfg p (s.cpus cpu) true moved with hasSleepVlag := false }, ?_,
    lagOn_limitWakeupCredit hclass hlow hhigh⟩
  rw [taskRebaseVruntime_unsaved hcpu hplaced hsaved, hmoved]
  rfl

end Wakeup

/-- A rebase carries the lag of a task over to another CPU within its bounds, so that no tour changes
a lag within them, and a wakeup credits a batch task with its bound at most. -/
theorem task_lag_survives_migration {tctx : TaskCtx} {old : Cpu}
    (hfit : BoundsFit cfg p tctx.classId) (hplaced : tctx.vtimeCpu = some old)
    (hold : old < s.nrCpuIds) :
    (∀ cpu < s.nrCpuIds, cpu ≠ old → RebaseFits cfg s p tctx old cpu →
      ∃ moved, taskRebaseVruntime cfg s p tctx cpu false = some moved ∧
        lagOn s moved cpu = clampLag cfg p tctx.classId (carriedLag s tctx old)) ∧
    (∀ cpus : List Cpu, (∀ cpu ∈ cpus, cpu < s.nrCpuIds) → tctx.hasSleepVlag = false →
      -debtBound cfg p tctx.classId ≤ lagOn s tctx old →
      lagOn s tctx old ≤ creditBound cfg p tctx.classId →
      (∀ cpu ∈ cpus, Placeable (cpuTaskVtime (s.cpus cpu) tctx.classId) (lagOn s tctx old)) →
      ∃ moved, tour cfg s p tctx cpus = some moved ∧
        lagOn s moved (cpus.getLast?.getD old) = lagOn s tctx old) ∧
    (tctx.classId = .batch → ∀ cpu < s.nrCpuIds, WakeupFits cfg s p tctx old cpu →
      ∃ moved, taskRebaseVruntime cfg s p tctx cpu true = some moved ∧
        lagOn s moved cpu ≤ creditBound cfg p .batch) := by
  refine ⟨?_, ?_, ?_⟩
  · intro cpu hcpu hother hfits
    obtain ⟨moved, hmoved, hrebased⟩ := rebase_other hfit hplaced hold hcpu hother hfits
    exact ⟨moved, hmoved, hrebased.lag_eq⟩
  · intro cpus hcpus hsaved hdebt hcredit hplace
    exact tour_keeps_lag hfit hplaced hsaved hold hcpus hdebt hcredit hplace
  · intro hbatch cpu hcpu hfits
    exact rebase_wakeup hbatch hfit hplaced hold hcpu hfits

section TwoClocks

/-- Two CPUs; the clock of the second is 20 ms ahead. -/
def twoClocks : Sched ℕ :=
  { quietHost.sched with
    cpus := fun cpu =>
      { quietHost.sched.cpus cpu with
        entity := fun _ => ⟨0, if cpu = 0 then 10000000 else 30000000, 0, 0⟩ } }

/-- A batch task half a millisecond behind the clock of the first CPU. -/
def laggingTask : TaskCtx :=
  { resetTaskState .initial with vruntime := 9500000, vtimeCpu := some 0 }

theorem task_lag_survives_migration_two_clocks :
    (∃ moved, taskRebaseVruntime .initial twoClocks (quietKernel.task 0) laggingTask 1 false =
        some moved ∧ lagOn twoClocks moved 1 = 500000) ∧
      (∃ moved, tour .initial twoClocks (quietKernel.task 0) laggingTask [1, 0, 1] = some moved ∧
        lagOn twoClocks moved 1 = 500000) ∧
      ∃ moved, taskRebaseVruntime .initial twoClocks (quietKernel.task 0) laggingTask 1 true =
        some moved ∧ lagOn twoClocks moved 1 ≤ 1000000 := by
  have hfit : BoundsFit .initial (quietKernel.task 0) laggingTask.classId :=
    ⟨by decide, by decide⟩
  obtain ⟨hother, htour, hwakeup⟩ := task_lag_survives_migration (s := twoClocks) hfit
    (rfl : laggingTask.vtimeCpu = some 0) (by decide)
  have hfits : RebaseFits .initial twoClocks (quietKernel.task 0) laggingTask 0 1 :=
    ⟨by decide, by decide, by decide, by decide⟩
  refine ⟨?_, ?_, ?_⟩
  · exact hother 1 (by decide) (by decide) hfits
  · exact htour [1, 0, 1] (by decide) rfl (by decide) (by decide) (by decide)
  · exact hwakeup rfl 1 (by decide) ⟨fun _ => hfits, by decide, by decide⟩

end TwoClocks

end ScxAgent.Scheduler
