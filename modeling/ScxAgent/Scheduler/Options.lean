import ScxAgent.ExceptRules
import ScxAgent.Scheduler.ClassLag
import ScxAgent.Scheduler.Dispatch

/-!
# Options of the scheduler

`Scheduler::init` turns the microseconds of the command line into the constants of the BPF program
and checks them there; `agent_classed_init` checks them again. Neither check bounds the products by
which a class is credited at its wakeup and a CPU is loaded by its tasks.
-/

namespace ScxAgent.Scheduler

open MachineWords ExceptRules

/-- The options that reach the BPF program. -/
structure Opts where
  latencySliceUs : UInt64
  batchMinEpochUs : UInt64
  batchMaxEpochUs : UInt64
  batchRoundUs : UInt64
  latencyBurstUs : UInt64
  classMaxDebtUs : UInt64
  batchMinRunUs : UInt64
  batchPreemptGranularityUs : UInt64
  latencyWeight : UInt64
  batchWeight : UInt64
  defaultClass : WorkloadClass
  stealScan : UInt32
  sameLlcMigrationCostUs : UInt64
  sameNodeMigrationCostUs : UInt64
  remoteNodeMigrationCostUs : UInt64

def Opts.default : Opts where
  latencySliceUs := 1000
  batchMinEpochUs := 1000
  batchMaxEpochUs := 8000
  batchRoundUs := 16000
  latencyBurstUs := 2000
  classMaxDebtUs := 1000
  batchMinRunUs := 500
  batchPreemptGranularityUs := 500
  latencyWeight := 200
  batchWeight := 100
  defaultClass := .batch
  stealScan := 8
  sameLlcMigrationCostUs := 250
  sameNodeMigrationCostUs := 500
  remoteNodeMigrationCostUs := 1000

/-- `u64::checked_mul` with a message for the overflow. -/
def checkedMul (left right : UInt64) (message : String) : Except String UInt64 :=
  if left.toNat * right.toNat < 2 ^ 64 then .ok (left * right) else .error message

/-- `bail!` if the condition holds. -/
def bailIf (condition : Prop) [Decidable condition] (message : String) : Except String Unit :=
  if condition then .error message else .ok ()

def checkedNs (valueUs : UInt64) (name : String) : Except String UInt64 := do
  bailIf (valueUs = 0) s!"{name} must be greater than zero"
  checkedMul valueUs 1000 s!"{name} is too large"

structure BatchEpochPolicy where
  minEpochNs : UInt64
  maxEpochNs : UInt64
  roundNs : UInt64
  minRunNs : UInt64
  preemptGranularityNs : UInt64

def BatchEpochPolicy.fromOpts (opts : Opts) : Except String BatchEpochPolicy := do
  let minEpochNs ← checkedNs opts.batchMinEpochUs "batch-min-epoch-us"
  let maxEpochNs ← checkedNs opts.batchMaxEpochUs "batch-max-epoch-us"
  let roundNs ← checkedNs opts.batchRoundUs "batch-round-us"
  let minRunNs ← checkedNs opts.batchMinRunUs "batch-min-run-us"
  let preemptGranularityNs ←
    checkedNs opts.batchPreemptGranularityUs "batch-preempt-granularity-us"
  let levels ← checkedMul minEpochNs 8 "batch-min-epoch-us is too large for epoch levels"
  bailIf (maxEpochNs < minEpochNs) "batch-max-epoch-us must be at least batch-min-epoch-us"
  bailIf (maxEpochNs > levels)
    "batch-max-epoch-us must not exceed eight times batch-min-epoch-us"
  bailIf (roundNs < minEpochNs) "batch-round-us must be at least batch-min-epoch-us"
  bailIf (minRunNs > minEpochNs) "batch-min-run-us must not exceed batch-min-epoch-us"
  return { minEpochNs, maxEpochNs, roundNs, minRunNs, preemptGranularityNs }

/-- `WorkloadClass::as_bpf`. -/
def WorkloadClass.asBpf : WorkloadClass → UInt32
  | .latency => 0
  | .batch => 1

/-- The constants that `Scheduler::init` sets, once it has checked the options. -/
def schedulerInit (opts : Opts) : Except String Config := do
  let latencySliceNs ← checkedNs opts.latencySliceUs "latency-slice-us"
  let batch ← BatchEpochPolicy.fromOpts opts
  let latencyBurstBudgetNs ← checkedNs opts.latencyBurstUs "latency-burst-us"
  let classMaxDebtNs ← checkedNs opts.classMaxDebtUs "class-max-debt-us"
  let sameLlcMigrationCostNs ← checkedNs opts.sameLlcMigrationCostUs "same-llc-migration-cost-us"
  let sameNodeMigrationCostNs ← checkedNs opts.sameNodeMigrationCostUs "same-node-migration-cost-us"
  let remoteNodeMigrationCostNs ←
    checkedNs opts.remoteNodeMigrationCostUs "remote-node-migration-cost-us"
  let twice ← checkedMul latencySliceNs 2 "latency-slice-us is too large for latency accounting"
  bailIf (latencyBurstBudgetNs < latencySliceNs) "latency-burst-us must be at least latency-slice-us"
  bailIf (latencyBurstBudgetNs > twice) "latency-burst-us must not exceed twice latency-slice-us"
  bailIf (classMaxDebtNs > 0x7fffffffffffffff)
    "class-max-debt-us exceeds the signed vruntime comparison range"
  bailIf (opts.latencyWeight = 0 ∨ opts.batchWeight = 0) "class weights must be greater than zero"
  bailIf (opts.stealScan.toNat > agentStealScanMax)
    s!"steal-scan must be in the range 0..={agentStealScanMax}"
  bailIf (sameLlcMigrationCostNs > sameNodeMigrationCostNs ∨
      sameNodeMigrationCostNs > remoteNodeMigrationCostNs)
    "migration costs must be ordered same-LLC <= same-node <= remote-node"
  return {
    latencySliceNs
    batchMinEpochNs := batch.minEpochNs
    batchMaxEpochNs := batch.maxEpochNs
    batchRoundNs := batch.roundNs
    latencyBurstBudgetNs
    classMaxDebtNs
    batchMinRunNs := batch.minRunNs
    batchPreemptGranularityNs := batch.preemptGranularityNs
    latencyWeight := opts.latencyWeight
    batchWeight := opts.batchWeight
    defaultClass := opts.defaultClass.asBpf
    stealScan := opts.stealScan
    sameLlcMigrationCostNs
    sameNodeMigrationCostNs
    remoteNodeMigrationCostNs }

variable {condition : Prop} {message : String}

section Accepted

variable {opts : Opts} {cfg : Config}

theorem bailIf_eq_ok [Decidable condition] : bailIf condition message = .ok () ↔ ¬ condition := by
  unfold bailIf
  split_ifs with h
  · simp [h]
  · simp [h]

theorem checkedMul_eq_ok {left right product : UInt64} :
    checkedMul left right message = .ok product ↔
      left.toNat * right.toNat < 2 ^ 64 ∧ left * right = product := by
  unfold checkedMul
  split_ifs with h
  · exact ⟨fun hproduct => ⟨h, Except.ok.inj hproduct⟩, fun hproduct => congrArg _ hproduct.2⟩
  · exact ⟨nofun, fun hproduct => absurd hproduct.1 h⟩

theorem of_bailIf_bind {α : Type} [Decidable condition] {f : Unit → Except String α} {a : α}
    (h : (bailIf condition message >>= f) = .ok a) : ¬ condition ∧ f () = .ok a := by
  obtain ⟨_, hpassed, hrest⟩ := bind_eq_ok.mp h
  exact ⟨bailIf_eq_ok.mp hpassed, hrest⟩

theorem of_checkedNs {valueUs ns : UInt64} {name : String} (h : checkedNs valueUs name = .ok ns) :
    ns.toNat = valueUs.toNat * 1000 ∧ ns ≠ 0 := by
  obtain ⟨hpositive, h⟩ := of_bailIf_bind h
  obtain ⟨hfits, rfl⟩ := checkedMul_eq_ok.mp h
  have hproduct : (valueUs * 1000).toNat = valueUs.toNat * 1000 := toNat_mul_of_fits _ _ hfits
  refine ⟨hproduct, fun hzero => hpositive ?_⟩
  rw [hzero] at hproduct
  have hvalue : valueUs.toNat = 0 := by simpa using hproduct
  exact UInt64.toNat_inj.mp hvalue

/-- What the batch options guarantee once they are accepted. -/
theorem BatchEpochPolicy.of_fromOpts {policy : BatchEpochPolicy}
    (h : BatchEpochPolicy.fromOpts opts = .ok policy) :
    policy.minEpochNs.toNat = opts.batchMinEpochUs.toNat * 1000 ∧ policy.minEpochNs ≠ 0 ∧
      policy.minEpochNs.toNat * 8 < 2 ^ 64 ∧ policy.minEpochNs ≤ policy.maxEpochNs ∧
      policy.maxEpochNs ≤ policy.minEpochNs * 8 ∧ policy.minEpochNs ≤ policy.roundNs ∧
      policy.minRunNs ≤ policy.minEpochNs ∧ policy.preemptGranularityNs ≠ 0 := by
  obtain ⟨minEpochNs, hmin, h⟩ := bind_eq_ok.mp h
  obtain ⟨maxEpochNs, -, h⟩ := bind_eq_ok.mp h
  obtain ⟨roundNs, -, h⟩ := bind_eq_ok.mp h
  obtain ⟨minRunNs, -, h⟩ := bind_eq_ok.mp h
  obtain ⟨preemptGranularityNs, hpreempt, h⟩ := bind_eq_ok.mp h
  obtain ⟨levels, hlevels, h⟩ := bind_eq_ok.mp h
  obtain ⟨hmax, h⟩ := of_bailIf_bind h
  obtain ⟨hmaxLevels, h⟩ := of_bailIf_bind h
  obtain ⟨hround, h⟩ := of_bailIf_bind h
  obtain ⟨hminRun, h⟩ := of_bailIf_bind h
  cases h
  obtain ⟨hfits, rfl⟩ := checkedMul_eq_ok.mp hlevels
  obtain ⟨hminNs, hminPos⟩ := of_checkedNs hmin
  exact ⟨hminNs, hminPos, hfits, UInt64.not_lt.mp hmax, UInt64.not_lt.mp hmaxLevels,
    UInt64.not_lt.mp hround, UInt64.not_lt.mp hminRun, (of_checkedNs hpreempt).2⟩

/-- The BPF program accepts what user space accepts. -/
theorem admitted_of_schedulerInit (h : schedulerInit opts = .ok cfg) :
    cfg.admitted = true ∧ cfg.latencySliceNs.toNat = opts.latencySliceUs.toNat * 1000 ∧
      cfg.batchMinEpochNs.toNat = opts.batchMinEpochUs.toNat * 1000 := by
  obtain ⟨latencySliceNs, hslice, h⟩ := bind_eq_ok.mp h
  obtain ⟨batch, hbatch, h⟩ := bind_eq_ok.mp h
  obtain ⟨latencyBurstBudgetNs, -, h⟩ := bind_eq_ok.mp h
  obtain ⟨classMaxDebtNs, -, h⟩ := bind_eq_ok.mp h
  obtain ⟨sameLlc, -, h⟩ := bind_eq_ok.mp h
  obtain ⟨sameNode, -, h⟩ := bind_eq_ok.mp h
  obtain ⟨remoteNode, -, h⟩ := bind_eq_ok.mp h
  obtain ⟨twice, htwice, h⟩ := bind_eq_ok.mp h
  obtain ⟨hburst, h⟩ := of_bailIf_bind h
  obtain ⟨hburstTwice, h⟩ := of_bailIf_bind h
  obtain ⟨hdebt, h⟩ := of_bailIf_bind h
  obtain ⟨hweights, h⟩ := of_bailIf_bind h
  obtain ⟨hscan, h⟩ := of_bailIf_bind h
  obtain ⟨hcosts, h⟩ := of_bailIf_bind h
  cases h
  obtain ⟨hfits, rfl⟩ := checkedMul_eq_ok.mp htwice
  obtain ⟨hsliceNs, hslicePos⟩ := of_checkedNs hslice
  obtain ⟨hminNs, hminPos, hlevels, hmax, hmaxLevels, hround, hminRun, hpreempt⟩ :=
    BatchEpochPolicy.of_fromOpts hbatch
  refine ⟨?_, hsliceNs, hminNs⟩
  have hhalf : ¬ latencySliceNs > u64Max / 2 := by
    have htwo : latencySliceNs.toNat * 2 < 2 ^ 64 := hfits
    simp only [gt_iff_lt, UInt64.lt_iff_toNat_lt, UInt64.toNat_div, u64Max, UInt64.reduceToNat]
    omega
  have heighth : ¬ batch.minEpochNs > u64Max / 8 := by
    simp only [gt_iff_lt, UInt64.lt_iff_toNat_lt, UInt64.toNat_div, u64Max, UInt64.reduceToNat]
    omega
  have hclass : ¬ opts.defaultClass.asBpf ≥ 2 := by
    cases opts.defaultClass <;> decide
  obtain ⟨hlatencyWeight, hbatchWeight⟩ := not_or.mp hweights
  obtain ⟨hnear, hfar⟩ := not_or.mp hcosts
  simp only [Config.admitted, Bool.not_eq_true', Bool.or_eq_false_iff, beq_eq_false_iff_ne,
    decide_eq_false_iff_not, and_assoc]
  exact ⟨hslicePos, hhalf, hburst, hburstTwice, hdebt, hminPos, UInt64.not_lt.mpr hmax, heighth,
    UInt64.not_lt.mpr hmaxLevels, UInt64.not_lt.mpr hround, UInt64.not_lt.mpr hminRun, hpreempt, hnear,
    hfar, hlatencyWeight, hbatchWeight, hclass, hscan⟩

end Accepted

/-! ## The products that no check covers -/

/-- `class_slice(class_id) * CLASS_WAKEUP_CREDIT` as class vruntime. -/
def wakeupCredit (cfg : Config) (k : WorkloadClass) : UInt64 :=
  cfg.classVruntimeDelta k (cfg.classSlice k * classWakeupCredit)

/-- Every operation of the wakeup credit is that of the integers. -/
structure CreditExact (cfg : Config) (k : WorkloadClass) : Prop where
  doubled : (cfg.classSlice k * classWakeupCredit).toNat = (cfg.classSlice k).toNat * 2
  scaled : (cfg.classSlice k * classWakeupCredit * classWeightBase).toNat =
    (cfg.classSlice k).toNat * 2 * 100
  credit : (wakeupCredit cfg k).toNat =
    max 1 ((cfg.classSlice k).toNat * 2 * 100 / (cfg.classWeight k).toNat)

/-- The tasks of a class on a CPU. -/
def CpuCtx.taskCount (cpuc : CpuCtx) (k : WorkloadClass) : ℕ :=
  (cpuc.entity k).nrQueued + (cpuc.entity k).nrRunning

/-- The number of tasks of a class as the code adds it up. -/
def CpuCtx.taskCountWord (cpuc : CpuCtx) (k : WorkloadClass) : UInt64 :=
  UInt64.ofNat (cpuc.entity k).nrQueued + UInt64.ofNat (cpuc.entity k).nrRunning

/-- Every operation of the load of a CPU is that of the integers. -/
structure LoadExact (cfg : Config) (cpuc : CpuCtx) : Prop where
  count (k : WorkloadClass) : (cpuc.taskCountWord k).toNat = cpuc.taskCount k
  product (k : WorkloadClass) : (cpuc.taskCountWord k * cfg.classSlice k).toNat =
    cpuc.taskCount k * (cfg.classSlice k).toNat
  load : (Sched.cpuQueuedLoad cfg cpuc).toNat =
    cpuc.taskCount .latency * cfg.latencySliceNs.toNat +
      cpuc.taskCount .batch * cfg.batchMinEpochNs.toNat

def maxTaskCount : ℕ := 2 ^ 22

def CpuCtx.CountsBounded (cpuc : CpuCtx) : Prop :=
  ∀ k, (cpuc.entity k).nrQueued ≤ maxTaskCount ∧ (cpuc.entity k).nrRunning ≤ maxTaskCount

section Products

variable {cfg : Config} (hfits : 2 ^ 23 * (cfg.latencySliceNs.toNat + cfg.batchMinEpochNs.toNat) < 2 ^ 64)
include hfits

theorem classSlice_lt (k : WorkloadClass) : (cfg.classSlice k).toNat < 2 ^ 41 := by
  cases k with
  | latency =>
    have hslice : cfg.classSlice .latency = cfg.latencySliceNs := rfl
    rw [hslice]
    omega
  | batch =>
    have hslice : cfg.classSlice .batch = cfg.batchMinEpochNs := rfl
    rw [hslice]
    omega

theorem creditExact (k : WorkloadClass) : CreditExact cfg k := by
  have hslice := classSlice_lt hfits k
  have htwo : classWakeupCredit.toNat = 2 := rfl
  have hbase : classWeightBase.toNat = 100 := rfl
  have hdoubled : (cfg.classSlice k * classWakeupCredit).toNat = (cfg.classSlice k).toNat * 2 := by
    rw [toNat_mul_of_fits _ _ (by rw [htwo]; omega), htwo]
  have hscaled : (cfg.classSlice k * classWakeupCredit * classWeightBase).toNat =
      (cfg.classSlice k).toNat * 2 * 100 := by
    rw [toNat_mul_of_fits _ _ (by rw [hdoubled, hbase]; omega), hdoubled, hbase]
  refine ⟨hdoubled, hscaled, ?_⟩
  rw [wakeupCredit, toNat_classVruntimeDelta (by omega), hdoubled]

theorem loadExact {cpuc : CpuCtx} (hcounts : cpuc.CountsBounded) : LoadExact cfg cpuc := by
  have hcount (k : WorkloadClass) :
      (cpuc.taskCountWord k).toNat = cpuc.taskCount k ∧ cpuc.taskCount k ≤ 2 ^ 23 := by
    obtain ⟨hqueued, hrunning⟩ := hcounts k
    unfold maxTaskCount at hqueued hrunning
    unfold CpuCtx.taskCountWord CpuCtx.taskCount
    rw [UInt64.toNat_add, UInt64.toNat_ofNat', UInt64.toNat_ofNat']
    omega
  have hproduct (k : WorkloadClass) :
      cpuc.taskCount k * (cfg.classSlice k).toNat ≤ 2 ^ 23 * (cfg.classSlice k).toNat :=
    Nat.mul_le_mul_right _ (hcount k).2
  have hword (k : WorkloadClass) : (cpuc.taskCountWord k * cfg.classSlice k).toNat =
      cpuc.taskCount k * (cfg.classSlice k).toNat := by
    have hslice := classSlice_lt hfits k
    have hle := hproduct k
    rw [toNat_mul_of_fits _ _ (by rw [(hcount k).1]; omega), (hcount k).1]
  refine ⟨fun k => (hcount k).1, hword, ?_⟩
  have hlatency := hproduct .latency
  have hbatch := hproduct .batch
  have hload : Sched.cpuQueuedLoad cfg cpuc = cpuc.taskCountWord .latency * cfg.classSlice .latency +
      cpuc.taskCountWord .batch * cfg.classSlice .batch := rfl
  have hslices : cfg.classSlice .latency = cfg.latencySliceNs ∧
      cfg.classSlice .batch = cfg.batchMinEpochNs := ⟨rfl, rfl⟩
  rw [hload, toNat_add_of_fits, hword, hword, hslices.1, hslices.2]
  rw [hword, hword]
  rw [hslices.1] at hlatency ⊢
  rw [hslices.2] at hbatch ⊢
  omega

end Products

/-- A CPU with as many tasks as the bound allows. -/
def crowdedCpu : CpuCtx where
  entity _ := ⟨0, 0, maxTaskCount, maxTaskCount⟩
  classVtimeNow := 0
  stealClaim := 0
  runningSince := 0
  batchServiceSinceLatency := 0
  runningClass := none

/-- The credits and the loads of accepted options are those of the integers exactly if the two
slices are short enough for the loads. -/
theorem products_exact_iff {opts : Opts} {cfg : Config} (h : schedulerInit opts = .ok cfg) :
    cfg.admitted = true ∧
      (((∀ k, CreditExact cfg k) ∧ ∀ cpuc : CpuCtx, cpuc.CountsBounded → LoadExact cfg cpuc) ↔
        2 ^ 23 * (opts.latencySliceUs.toNat * 1000 + opts.batchMinEpochUs.toNat * 1000) < 2 ^ 64) := by
  obtain ⟨hadmitted, hslice, hepoch⟩ := admitted_of_schedulerInit h
  rw [← hslice, ← hepoch]
  refine ⟨hadmitted, fun ⟨_, hloads⟩ => ?_, fun hfits => ⟨creditExact hfits, fun _ => loadExact hfits⟩⟩
  have hload := (hloads crowdedCpu fun _ => ⟨le_rfl, le_rfl⟩).load
  have hcount (k : WorkloadClass) : crowdedCpu.taskCount k = 2 ^ 23 := rfl
  rw [hcount, hcount] at hload
  have hlt := UInt64.toNat_lt (Sched.cpuQueuedLoad cfg crowdedCpu)
  omega

theorem products_exact_iff_default :
    ∃ cfg, schedulerInit .default = .ok cfg ∧ (∀ k, CreditExact cfg k) ∧
      ∀ cpuc : CpuCtx, cpuc.CountsBounded → LoadExact cfg cpuc := by
  have hinit : schedulerInit .default = .ok .initial := by rfl
  exact ⟨.initial, hinit, (products_exact_iff hinit).2.mpr (by decide)⟩

/-- A latency slice of a hundred million seconds. -/
def longSlice : Opts :=
  { Opts.default with latencySliceUs := 100000000000000, latencyBurstUs := 100000000000000 }

/-- Both checks accept the long slice, but its wakeup credit wraps. -/
theorem products_wrap_long_slice :
    ∃ cfg, schedulerInit longSlice = .ok cfg ∧ cfg.admitted = true ∧
      (wakeupCredit cfg .latency).toNat = 7766279631452241 ∧
      max 1 ((cfg.classSlice .latency).toNat * 2 * 100 / (cfg.classWeight .latency).toNat) =
        100000000000000000 := by
  refine ⟨{ Config.initial with
    latencySliceNs := 100000000000000000, latencyBurstBudgetNs := 100000000000000000 }, rfl, ?_⟩
  decide

end ScxAgent.Scheduler
