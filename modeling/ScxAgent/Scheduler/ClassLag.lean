import ScxAgent.MachineWords
import ScxAgent.Scheduler.Arbitration

/-!
# The lag between the classes of a backlogged CPU

A CPU whose two classes always have work serves one class after another, each for at most the time
`decide_class` grants. The lag, latency vruntime minus batch vruntime, then stays within constants
of the configuration.
-/

namespace ScxAgent.Scheduler

open MachineWords UInt64 Nat

section Charges

variable {cfg : Config} {k : WorkloadClass} {runtime delta : UInt64}

/-- The class vruntime one nanosecond of a class may cost, rounded up. -/
def Config.unitCost (cfg : Config) (k : WorkloadClass) : ℕ :=
  (100 + (cfg.classWeight k).toNat - 1) / (cfg.classWeight k).toNat

theorem classWeight_pos (cfg : Config) (k : WorkloadClass) : 0 < (cfg.classWeight k).toNat := by
  unfold Config.classWeight
  split_ifs with h
  · decide
  · have : (cfg.weightOf k).toNat ≠ 0 := fun h0 => h (UInt64.toNat_inj.mp (by simpa using h0))
    omega

theorem unitCost_eq (cfg : Config) (k : WorkloadClass) :
    cfg.unitCost k = 99 / (cfg.classWeight k).toNat + 1 := by
  have hw := classWeight_pos cfg k
  unfold Config.unitCost
  rw [show 100 + (cfg.classWeight k).toNat - 1 = 99 + (cfg.classWeight k).toNat by omega,
    add_div_right _ hw]

theorem toNat_classVruntimeDelta (hfits : runtime.toNat * 100 < 2 ^ 64) :
    (cfg.classVruntimeDelta k runtime).toNat =
      max 1 (runtime.toNat * 100 / (cfg.classWeight k).toNat) := by
  have hquot : (runtime * classWeightBase / cfg.classWeight k).toNat =
      runtime.toNat * 100 / (cfg.classWeight k).toNat := by
    rw [UInt64.toNat_div, toNat_mul_of_fits _ _ hfits]
    rfl
  simp only [Config.classVruntimeDelta]
  split_ifs with h
  · have : runtime.toNat * 100 / (cfg.classWeight k).toNat = 0 := by rw [← hquot, h]; rfl
    simp [this]
  · have : (runtime * classWeightBase / cfg.classWeight k).toNat ≠ 0 :=
      fun h0 => h (UInt64.toNat_inj.mp (by simpa using h0))
    omega

theorem toNat_atLeastOne (delay : UInt64) : (atLeastOne delay).toNat = max 1 delay.toNat := by
  unfold atLeastOne
  split_ifs with h
  · simp [h]
  · have : delay.toNat ≠ 0 := fun h0 => h (UInt64.toNat_inj.mp (by simpa using h0))
    omega

/-- The code's test for saturation is whether the product and its rounding fit. -/
theorem saturates_iff : delta > (u64Max - (classWeightBase - 1)) / cfg.classWeight k ↔
    2 ^ 64 ≤ delta.toNat * (cfg.classWeight k).toNat + 99 := by
  have hw := classWeight_pos cfg k
  have hquot : delta > (u64Max - (classWeightBase - 1)) / cfg.classWeight k ↔
      (2 ^ 64 - 100) / (cfg.classWeight k).toNat < delta.toNat := by
    simp [UInt64.lt_iff_toNat_lt, UInt64.toNat_div, u64Max, classWeightBase]
  rw [hquot, Nat.div_lt_iff_lt_mul hw]
  omega

theorem toNat_classRuntimeFromVruntime
    (hfits : delta.toNat * (cfg.classWeight k).toNat + 99 < 2 ^ 64) :
    (cfg.classRuntimeFromVruntime k delta).toNat =
      if delta.toNat ≤ 1 then delta.toNat
      else (delta.toNat * (cfg.classWeight k).toNat + 99) / 100 := by
  have hsmall : delta ≤ 1 ↔ delta.toNat ≤ 1 := by simp [le_iff_toNat_le]
  have hsum : (delta * cfg.classWeight k + classWeightBase - 1).toNat =
      delta.toNat * (cfg.classWeight k).toNat + 99 := by
    rw [UInt64.toNat_sub, UInt64.toNat_add, UInt64.toNat_mul]
    simp only [classWeightBase, UInt64.reduceToNat]
    omega
  simp only [Config.classRuntimeFromVruntime]
  rw [if_neg (saturates_iff.not.mpr (by omega))]
  by_cases hone : delta.toNat ≤ 1
  · rw [if_pos hone, if_pos (hsmall.mpr hone)]
  · rw [if_neg hone, if_neg (hsmall.not.mpr hone), UInt64.toNat_div, hsum]
    rfl

/-- A run within the horizon of a vruntime distance costs that distance up to rounding. -/
theorem runtime_within_horizon (hfits : runtime.toNat * 100 < 2 ^ 64)
    (hle : runtime ≤ atLeastOne (cfg.classRuntimeFromVruntime k delta)) :
    runtime.toNat * 100 ≤ max 1 delta.toNat * (cfg.classWeight k).toNat + 99 := by
  have hw := classWeight_pos cfg k
  have hmono : delta.toNat * (cfg.classWeight k).toNat ≤
      max 1 delta.toNat * (cfg.classWeight k).toNat := mul_le_mul_right _ (by omega)
  by_cases hgrant : delta.toNat * (cfg.classWeight k).toNat + 99 < 2 ^ 64
  · rw [le_iff_toNat_le, toNat_atLeastOne, toNat_classRuntimeFromVruntime hgrant] at hle
    split_ifs at hle with hone
    · -- a distance of at most one grants one nanosecond
      have : max 1 delta.toNat = 1 := by omega
      rw [this] at hle ⊢
      omega
    · have hprodPos : 0 < delta.toNat * (cfg.classWeight k).toNat := mul_pos (by omega) hw
      omega
  · -- the grant is saturated, so only the word size bounds the run
    omega

theorem delta_within_horizon (hfits : runtime.toNat * 100 < 2 ^ 64)
    (hle : runtime ≤ atLeastOne (cfg.classRuntimeFromVruntime k delta)) :
    (cfg.classVruntimeDelta k runtime).toNat + 1 ≤ max 1 delta.toNat + cfg.unitCost k := by
  have hw := classWeight_pos cfg k
  have hrun := runtime_within_horizon hfits hle
  have hquot : runtime.toNat * 100 / (cfg.classWeight k).toNat ≤
      max 1 delta.toNat + 99 / (cfg.classWeight k).toNat := by
    calc runtime.toNat * 100 / (cfg.classWeight k).toNat
        ≤ (max 1 delta.toNat * (cfg.classWeight k).toNat + 99) / (cfg.classWeight k).toNat :=
          Nat.div_le_div_right hrun
      _ = max 1 delta.toNat + 99 / (cfg.classWeight k).toNat := by
          rw [Nat.add_comm, Nat.add_mul_div_right _ _ hw, Nat.add_comm]
  rw [toNat_classVruntimeDelta hfits, unitCost_eq]
  generalize runtime.toNat * 100 / (cfg.classWeight k).toNat = cost at *
  generalize 99 / (cfg.classWeight k).toNat = share at *
  omega

/-- Every nanosecond of a run costs at most the unit cost. -/
theorem delta_le_unitCost_mul (hfits : runtime.toNat * 100 < 2 ^ 64) (hpos : 1 ≤ runtime) :
    (cfg.classVruntimeDelta k runtime).toNat ≤ cfg.unitCost k * runtime.toNat := by
  have hw := classWeight_pos cfg k
  have hone : 1 ≤ runtime.toNat := by simpa [le_iff_toNat_le] using hpos
  have hunit : 100 ≤ cfg.unitCost k * (cfg.classWeight k).toNat := by
    rw [unitCost_eq, Nat.add_mul, Nat.one_mul]
    have := Nat.lt_div_mul_add (a := 99) hw
    omega
  have hquot : runtime.toNat * 100 / (cfg.classWeight k).toNat ≤ cfg.unitCost k * runtime.toNat := by
    apply Nat.div_le_of_le_mul
    calc runtime.toNat * 100
        ≤ runtime.toNat * (cfg.unitCost k * (cfg.classWeight k).toNat) :=
          Nat.mul_le_mul_left _ hunit
      _ = (cfg.classWeight k).toNat * (cfg.unitCost k * runtime.toNat) := by ring
  have hprod : 1 ≤ cfg.unitCost k * runtime.toNat :=
    Nat.mul_pos (by rw [unitCost_eq]; exact Nat.succ_pos _) hone
  rw [toNat_classVruntimeDelta hfits]
  exact max_le hprod hquot

end Charges

/-- A CPU between two runs, with no class in progress, and the class that ran last. -/
structure Bench where
  cpuc : CpuCtx
  last : WorkloadClass
  idleClass : cpuc.runningClass = none
  idleSince : cpuc.runningSince = 0

/-- Latency vruntime minus batch vruntime. -/
def Bench.lag (b : Bench) : ℤ :=
  (b.cpuc.entity .latency).vruntime.toNat - (b.cpuc.entity .batch).vruntime.toNat

/-- The decision when both classes have work and the class that ran last is the current one. -/
def Bench.decision (cfg : Config) (b : Bench) (now : UInt64) : ClassDecision :=
  decideClass cfg b.cpuc now { available := fun _ => true, currentClass := some b.last }

def Bench.charged (cfg : Config) (b : Bench) (k : WorkloadClass) (runtime : UInt64) : Bench where
  cpuc := b.cpuc.chargeClass cfg k runtime
  last := k
  idleClass := b.idleClass
  idleSince := b.idleSince

/-- No 64-bit value of the decision or of the charge wraps. -/
structure Bench.Exact (cfg : Config) (b : Bench) (k : WorkloadClass) (runtime : UInt64) : Prop where
  lag_low : -2 ^ 63 ≤ b.lag
  lag_high : b.lag < 2 ^ 63
  product : runtime.toNat * 100 < 2 ^ 64
  sum : (b.cpuc.entity k).vruntime.toNat + (cfg.classVruntimeDelta k runtime).toNat < 2 ^ 64

/-- One round: decide, run the winner for at most the granted time, charge the run. -/
inductive Round (cfg : Config) (b : Bench) : WorkloadClass → Bench → Prop
  | run {k : WorkloadClass} {now runtime : UInt64} (hwinner : (b.decision cfg now).winner = some k) (hpos : 1 ≤ runtime)
      (hle : runtime ≤ (b.decision cfg now).runForNs) (hexact : b.Exact cfg k runtime) :
      Round cfg b k (b.charged cfg k runtime)

/-- Any number of rounds. -/
abbrev Rounds (cfg : Config) : Bench → Bench → Prop :=
  Relation.ReflTransGen fun b b' => ∃ k, Round cfg b k b'

variable {cfg : Config} {k : WorkloadClass} {runtime : UInt64} {b b' : Bench}

theorem Bench.lag_charged_latency (hexact : b.Exact cfg .latency runtime) :
    (b.charged cfg .latency runtime).lag =
      b.lag + (cfg.classVruntimeDelta .latency runtime).toNat := by
  have hsum := toNat_add_of_fits _ _ hexact.sum
  simp only [lag, charged, CpuCtx.chargeClass, CpuCtx.updateEntity, Function.update_self,
    Function.update_of_ne (show WorkloadClass.batch ≠ .latency by decide), hsum]
  push_cast
  ring

theorem Bench.lag_charged_batch (hexact : b.Exact cfg .batch runtime) :
    (b.charged cfg .batch runtime).lag =
      b.lag - (cfg.classVruntimeDelta .batch runtime).toNat := by
  have hsum := toNat_add_of_fits _ _ hexact.sum
  simp only [lag, charged, CpuCtx.chargeClass, CpuCtx.updateEntity, Function.update_self,
    Function.update_of_ne (show WorkloadClass.latency ≠ .batch by decide), hsum]
  push_cast
  ring

/-- Batch service is added up, and stays at the largest word once it reaches it. -/
theorem Bench.service_charged_batch (cfg : Config) (b : Bench) (runtime : UInt64) :
    (b.charged cfg .batch runtime).cpuc.batchServiceSinceLatency.toNat =
      min (2 ^ 64 - 1) (b.cpuc.batchServiceSinceLatency.toNat + runtime.toNat) := by
  have hs := toNat_lt b.cpuc.batchServiceSinceLatency
  have hr := toNat_lt runtime
  have hroom : (u64Max - b.cpuc.batchServiceSinceLatency).toNat =
      2 ^ 64 - 1 - b.cpuc.batchServiceSinceLatency.toNat := by
    rw [UInt64.toNat_sub]
    simp only [u64Max, UInt64.reduceToNat]
    omega
  simp only [charged, CpuCtx.chargeClass]
  split_ifs with h
  · rw [lt_iff_toNat_lt, hroom] at h
    simp only [u64Max, reduceToNat]
    omega
  · rw [lt_iff_toNat_lt, hroom] at h
    rw [toNat_add_of_fits _ _ (by omega)]
    omega

theorem Bench.projected_eq (b : Bench) (k : WorkloadClass) (now : UInt64) :
    projectedClassVruntime cfg b.cpuc k now = (b.cpuc.entity k).vruntime := by
  simp [projectedClassVruntime, b.idleClass]

theorem Bench.batchServiceAt_eq (b : Bench) (now : UInt64) :
    batchServiceAt b.cpuc now = b.cpuc.batchServiceSinceLatency := by
  simp [batchServiceAt, b.idleSince]

/-- The signed lag of the decision is the lag of the bench. -/
theorem Bench.toInt_lag (hlow : -2 ^ 63 ≤ b.lag) (hhigh : b.lag < 2 ^ 63) :
    ((b.cpuc.entity .latency).vruntime - (b.cpuc.entity .batch).vruntime).toInt64.toInt = b.lag :=
  toInt_sub_of_fits _ _ hlow hhigh

section Admitted

variable (hadmitted : cfg.admitted = true)
include hadmitted

theorem admitted_debt : cfg.classMaxDebtNs.toNat < 2 ^ 63 := by
  by_contra hlarge
  have hdebt : cfg.classMaxDebtNs > 0x7fffffffffffffff := by
    simp only [gt_iff_lt, lt_iff_toNat_lt, reduceToNat]
    omega
  simp [Config.admitted, hdebt] at hadmitted

/-- Who may run and for how long: latency within its debt, batch beyond it or to finish its
minimum run. A debt grant is the runtime of at most the vruntime distance to the debt. -/
inductive Grant (cfg : Config) (b : Bench) : WorkloadClass → UInt64 → Prop
  | latency (hwithin : b.lag ≤ cfg.classMaxDebtNs.toNat) (delta : UInt64)
      (hdelta : max 1 (delta.toNat : ℤ) ≤ cfg.classMaxDebtNs.toNat - b.lag + 1) :
      Grant cfg b .latency (atLeastOne (cfg.classRuntimeFromVruntime .latency delta))
  | batch (hbeyond : cfg.classMaxDebtNs.toNat < b.lag) (delta : UInt64)
      (hdelta : max 1 (delta.toNat : ℤ) ≤ b.lag - cfg.classMaxDebtNs.toNat) :
      Grant cfg b .batch (atLeastOne (cfg.classRuntimeFromVruntime .batch delta))
  | minRun (hlast : b.last = .batch)
      (hservice : b.cpuc.batchServiceSinceLatency < cfg.batchMinRunNs) :
      Grant cfg b .batch (cfg.batchMinRunNs - b.cpuc.batchServiceSinceLatency)

theorem classWinner_eq_latency (hlow : -2 ^ 63 ≤ b.lag) (hhigh : b.lag < 2 ^ 63) :
    classWinner cfg (b.cpuc.entity .latency).vruntime (b.cpuc.entity .batch).vruntime = .latency ↔
      b.lag ≤ cfg.classMaxDebtNs.toNat := by
  simp only [classWinner, Int64.le_iff_toInt_le, Bench.toInt_lag hlow hhigh,
    toInt_of_small _ (admitted_debt hadmitted)]
  split_ifs with h <;> simp [h]

theorem Bench.grant (hlow : -2 ^ 63 ≤ b.lag) (hhigh : b.lag < 2 ^ 63) {now : UInt64}
    (hwinner : (b.decision cfg now).winner = some k) :
    Grant cfg b k (b.decision cfg now).runForNs := by
  have hdebt := admitted_debt hadmitted
  have hmax := toInt_of_small _ hdebt
  have hlag := Bench.toInt_lag hlow hhigh
  have hclass := classWinner_eq_latency hadmitted hlow hhigh
  simp only [decision, decideClass, b.projected_eq, b.batchServiceAt_eq, Bool.not_true,
    Bool.false_and, Bool.false_eq_true, if_false, Option.some.injEq] at hwinner ⊢
  split_ifs at hwinner ⊢ with hmin
  · cases hwinner
    exact .minRun hmin.1 hmin.2.2
  · by_cases hwithin : b.lag ≤ cfg.classMaxDebtNs.toNat
    · rw [hclass.mpr hwithin] at hwinner ⊢
      cases hwinner
      refine .latency hwithin _ ?_
      rw [toNat_toUInt64_add, Int64.toInt_sub, hlag, hmax, Int.bmod_def]
      have hone : (1 : Int64).toInt = 1 := by decide
      rw [hone]
      split_ifs <;> omega
    · have hbatch : classWinner cfg (b.cpuc.entity .latency).vruntime
          (b.cpuc.entity .batch).vruntime = .batch := by
        cases hcase : classWinner cfg (b.cpuc.entity .latency).vruntime
          (b.cpuc.entity .batch).vruntime with
        | latency => exact absurd (hclass.mp hcase) hwithin
        | batch => rfl
      rw [hbatch] at hwinner ⊢
      cases hwinner
      refine .batch (by omega) _ ?_
      rw [toNat_toUInt64_sub, hlag, hmax]
      omega

/-- A latency run raises the lag, at most to the debt and the cost of rounding. -/
theorem Round.latency_lag (h : Round cfg b .latency b') :
    b.lag ≤ b'.lag ∧ b'.lag ≤ cfg.classMaxDebtNs.toNat + cfg.unitCost .latency := by
  cases h with
  | run hwinner hpos hle hexact =>
    rw [Bench.lag_charged_latency hexact]
    generalize hgrant : (b.decision cfg _).runForNs = grant at hle
    have hg := hgrant ▸ Bench.grant hadmitted hexact.lag_low hexact.lag_high hwinner
    cases hg with
    | latency hwithin delta hdelta =>
      have := delta_within_horizon hexact.product hle
      omega

/-- A batch run lowers the lag: beyond the debt not below it except for rounding, and otherwise by
at most the cost of what was left of the minimum run. -/
theorem Round.batch_lag (h : Round cfg b .batch b') :
    b'.lag ≤ b.lag ∧
    ((cfg.classMaxDebtNs.toNat < b.lag ∧
        (cfg.classMaxDebtNs.toNat : ℤ) + 1 - cfg.unitCost .batch ≤ b'.lag) ∨
      (b.last = .batch ∧ ∃ runtime : ℕ,
        b'.cpuc.batchServiceSinceLatency.toNat = b.cpuc.batchServiceSinceLatency.toNat + runtime ∧
        b'.cpuc.batchServiceSinceLatency.toNat ≤ cfg.batchMinRunNs.toNat ∧
        b.lag - (cfg.unitCost .batch * runtime : ℕ) ≤ b'.lag)) := by
  cases h with
  | @run now runtime hwinner hpos hle hexact =>
    rw [Bench.lag_charged_batch hexact]
    refine ⟨by omega, ?_⟩
    generalize hgrant : (b.decision cfg _).runForNs = grant at hle
    have hg := hgrant ▸ Bench.grant hadmitted hexact.lag_low hexact.lag_high hwinner
    cases hg with
    | batch hbeyond delta hdelta =>
      have := delta_within_horizon hexact.product hle
      exact .inl ⟨hbeyond, by omega⟩
    | minRun hlast hservice =>
      have hcost : (cfg.classVruntimeDelta .batch runtime).toNat ≤
          cfg.unitCost .batch * runtime.toNat := delta_le_unitCost_mul hexact.product hpos
      rw [lt_iff_toNat_lt] at hservice
      rw [UInt64.le_iff_toNat_le, UInt64.toNat_sub_of_le _ _ (by
        rw [UInt64.le_iff_toNat_le]; omega)] at hle
      have hmin := UInt64.toNat_lt cfg.batchMinRunNs
      have hservice' := b.service_charged_batch cfg runtime
      exact .inr ⟨hlast, runtime.toNat, by omega, by omega, by omega⟩

end Admitted

/-- The lower bound on the lag once batch has run: the batch service of an unfinished minimum run
is paid for in advance. -/
def Floored (cfg : Config) (b : Bench) : Prop :=
  match b.last with
  | .latency => (cfg.classMaxDebtNs.toNat : ℤ) - cfg.unitCost .batch -
      (cfg.batchMinRunNs.toNat * cfg.unitCost .batch : ℕ) ≤ b.lag
  | .batch => (cfg.classMaxDebtNs.toNat : ℤ) - cfg.unitCost .batch -
      (min b.cpuc.batchServiceSinceLatency.toNat cfg.batchMinRunNs.toNat *
        cfg.unitCost .batch : ℕ) ≤ b.lag

theorem Floored.le_lag (h : Floored cfg b) :
    (cfg.classMaxDebtNs.toNat : ℤ) - cfg.unitCost .batch -
      (cfg.batchMinRunNs.toNat * cfg.unitCost .batch : ℕ) ≤ b.lag := by
  unfold Floored at h
  split at h
  · exact h
  · have hmin : min b.cpuc.batchServiceSinceLatency.toNat cfg.batchMinRunNs.toNat *
        cfg.unitCost .batch ≤ cfg.batchMinRunNs.toNat * cfg.unitCost .batch :=
      mul_le_mul_right _ (min_le_right _ _)
    omega

theorem Round.last_eq (h : Round cfg b k b') : b'.last = k := by
  cases h
  rfl

/-- Batch beyond the debt sets the floor, whatever came before. -/
theorem Round.floored_of_beyond (h : Round cfg b .batch b')
    (hlag : (cfg.classMaxDebtNs.toNat : ℤ) + 1 - cfg.unitCost .batch ≤ b'.lag) :
    Floored cfg b' := by
  rw [Floored, h.last_eq]
  dsimp only
  omega

section Floors

variable (hadmitted : cfg.admitted = true)
include hadmitted

theorem Round.floored (h : Round cfg b k b') (hfloored : Floored cfg b) : Floored cfg b' := by
  cases k with
  | latency =>
    have hlag := (h.latency_lag hadmitted).1
    have hfloor := hfloored.le_lag
    rw [Floored, h.last_eq]
    dsimp only
    omega
  | batch =>
    obtain ⟨-, ⟨-, hlag⟩ | ⟨hlast, runtime, hservice, hmin, hlag⟩⟩ := h.batch_lag hadmitted
    · exact h.floored_of_beyond hlag
    · -- the minimum run goes on: the floor sinks by the cost of this part of it
      rw [Floored, hlast] at hfloored
      rw [Floored, h.last_eq]
      dsimp only at hfloored ⊢
      rw [min_eq_left (by omega)] at hfloored ⊢
      rw [hservice, add_mul]
      have hcost : runtime * cfg.unitCost .batch = cfg.unitCost .batch * runtime := mul_comm _ _
      omega

theorem Rounds.floored (h : Rounds cfg b b') (hfloored : Floored cfg b) : Floored cfg b' := by
  induction h with
  | refl => exact hfloored
  | tail _ hround ih =>
    obtain ⟨k, hround⟩ := hround
    exact hround.floored hadmitted ih

/-- The first batch run after a latency run is one beyond the debt. -/
theorem Round.first_batch (h : Round cfg b .batch b') (hlast : b.last = .latency) :
    cfg.classMaxDebtNs.toNat < b.lag ∧ Floored cfg b' := by
  obtain ⟨-, ⟨hbeyond, hlag⟩ | ⟨hbatch, -⟩⟩ := h.batch_lag hadmitted
  · exact ⟨hbeyond, h.floored_of_beyond hlag⟩
  · rw [hlast] at hbatch
    cases hbatch

/-- In a run that starts after a latency run, batch never ran last without a floor. -/
theorem Rounds.floored_of_batch (h : Rounds cfg b b') (hlast : b.last = .latency)
    (hbatch : b'.last = .batch) : Floored cfg b' := by
  induction h with
  | refl => rw [hlast] at hbatch; cases hbatch
  | @tail c c' _ hround ih =>
    obtain ⟨k, hround⟩ := hround
    obtain rfl : k = .batch := hround.last_eq.symm.trans hbatch
    cases hc : c.last with
    | latency => exact (hround.first_batch hadmitted hc).2
    | batch => exact hround.floored hadmitted (ih hc)

theorem Rounds.lag_le (h : Rounds cfg b b')
    (hlag : b.lag ≤ cfg.classMaxDebtNs.toNat + 1 + cfg.unitCost .latency) :
    b'.lag ≤ cfg.classMaxDebtNs.toNat + 1 + cfg.unitCost .latency := by
  induction h with
  | refl => exact hlag
  | tail _ hround ih =>
    obtain ⟨k, hround⟩ := hround
    cases k with
    | latency =>
      have := (hround.latency_lag hadmitted).2
      omega
    | batch =>
      have := (hround.batch_lag hadmitted).1
      omega

end Floors

/-- On a CPU with both classes backlogged the lag never exceeds the debt by more than rounding, and
from the first batch run on it never falls below the debt by more than the cost of one minimum
batch run and rounding. -/
theorem class_lag_bounded (cfg : Config) (hadmitted : cfg.admitted = true) (b : Bench)
    (hlast : b.last = .latency)
    (hlag : b.lag ≤ cfg.classMaxDebtNs.toNat + 1 + cfg.unitCost .latency) :
    (∀ c, Rounds cfg b c → c.lag ≤ cfg.classMaxDebtNs.toNat + 1 + cfg.unitCost .latency) ∧
    ∀ c c' d, Rounds cfg b c → Round cfg c .batch c' → Rounds cfg c' d →
      (cfg.classMaxDebtNs.toNat : ℤ) - cfg.unitCost .batch -
          cfg.batchMinRunNs.toNat * cfg.unitCost .batch ≤ c.lag ∧
      (cfg.classMaxDebtNs.toNat : ℤ) - cfg.unitCost .batch -
          cfg.batchMinRunNs.toNat * cfg.unitCost .batch ≤ d.lag := by
  refine ⟨fun c hrounds => hrounds.lag_le hadmitted hlag, ?_⟩
  intro c c' d hbefore hround hafter
  -- before the round the lag is beyond the debt or the floor already holds
  have hc : (cfg.classMaxDebtNs.toNat : ℤ) - cfg.unitCost .batch -
      (cfg.batchMinRunNs.toNat * cfg.unitCost .batch : ℕ) ≤ c.lag ∧ Floored cfg c' := by
    cases hclass : c.last with
    | latency =>
      obtain ⟨hbeyond, hfloored⟩ := hround.first_batch hadmitted hclass
      exact ⟨by omega, hfloored⟩
    | batch =>
      have hfloored := hbefore.floored_of_batch hadmitted hlast hclass
      exact ⟨hfloored.le_lag, hround.floored hadmitted hfloored⟩
  have hd := (hafter.floored hadmitted hc.2).le_lag
  exact ⟨mod_cast hc.1, mod_cast hd⟩

/-- A CPU after a latency run, with the given class vruntimes. -/
def benchAfterLatency (latencyVruntime batchVruntime : UInt64) : Bench where
  cpuc :=
    { entity := fun k => ⟨if k = .latency then latencyVruntime else batchVruntime, 0, 0, 0⟩
      classVtimeNow := 0
      stealClaim := 0
      runningSince := 0
      batchServiceSinceLatency := 0
      runningClass := none }
  last := .latency
  idleClass := rfl
  idleSince := rfl

theorem class_lag_bounded_first_batch :
    ∃ c, Round Config.initial (benchAfterLatency 1000001 0) .batch c ∧ c.lag = 1000000 ∧
      (1000000 : ℤ) - 1 - 500000 * 1 ≤ c.lag := by
  have hround : Round Config.initial (benchAfterLatency 1000001 0) .batch
      ((benchAfterLatency 1000001 0).charged Config.initial .batch 1) :=
    @Round.run _ _ .batch 0 1 (by decide +kernel) (by decide) (by decide +kernel)
      ⟨by decide +kernel, by decide +kernel, by decide +kernel, by decide +kernel⟩
  have hbound := class_lag_bounded Config.initial (by decide) (benchAfterLatency 1000001 0) rfl
    (by decide +kernel)
  exact ⟨_, hround, by decide +kernel, (hbound.2 _ _ _ .refl hround .refl).2⟩

end ScxAgent.Scheduler
