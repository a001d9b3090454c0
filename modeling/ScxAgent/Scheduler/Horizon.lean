import ScxAgent.Scheduler.ClassLag

/-!
# The horizon of a decision

`decide_class` tells for how long its decision stands. If no operation wraps or saturates, charging
the winner for less than that time leaves it the winner, and charging it for that time or more makes
the other class win.
-/

namespace ScxAgent.Scheduler

open MachineWords

variable {cfg : Config} {k : WorkloadClass}

/-- The vruntime that the winner has to gain before the other class wins. -/
def Config.distance (cfg : Config) (lag : ℤ) : WorkloadClass → ℤ
  | .latency => cfg.classMaxDebtNs.toNat - lag + 1
  | .batch => lag - cfg.classMaxDebtNs.toNat

def vruntimeLag (latencyVruntime batchVruntime : UInt64) : ℤ :=
  latencyVruntime.toNat - batchVruntime.toNat

def CpuCtx.lag (cpuc : CpuCtx) : ℤ :=
  vruntimeLag (cpuc.entity .latency).vruntime (cpuc.entity .batch).vruntime

/-- No operation of a decision for the class wraps or saturates. -/
structure DecisionFits (cfg : Config) (cpuc : CpuCtx) (k : WorkloadClass) : Prop where
  lag_low : -2 ^ 63 ≤ cpuc.lag
  lag_high : cpuc.lag < 2 ^ 63
  distance_high : cfg.distance cpuc.lag k < 2 ^ 63
  grant_high : cfg.distance cpuc.lag k * (cfg.classWeight k).toNat + 99 < 2 ^ 64

/-- No operation of a charge to the class, or of the arbitration after it, wraps. -/
structure ChargeFits (cfg : Config) (cpuc : CpuCtx) (k : WorkloadClass) (runtime : UInt64) :
    Prop where
  product_high : runtime.toNat * 100 < 2 ^ 64
  vruntime_high :
    (cpuc.entity k).vruntime.toNat + (cfg.classVruntimeDelta k runtime).toNat < 2 ^ 64
  lag_low : -2 ^ 63 ≤ (cpuc.chargeClass cfg k runtime).lag
  lag_high : (cpuc.chargeClass cfg k runtime).lag < 2 ^ 63

/-- The least runtime whose charge reaches a distance: the charge is rounded down, but to one at
least, and the runtime is rounded up. -/
theorem charge_lt_iff {weight distance runtime : ℕ} (hweight : 0 < weight) (hdistance : 1 ≤ distance)
    (hruntime : 1 ≤ runtime) :
    max 1 (runtime * 100 / weight) < distance ↔
      runtime < max 1 (if distance ≤ 1 then distance else (distance * weight + 99) / 100) := by
  by_cases hone : distance ≤ 1
  · rw [if_pos hone]
    omega
  · have hquot : runtime * 100 / weight < distance ↔ runtime * 100 < distance * weight :=
      Nat.div_lt_iff_lt_mul hweight
    have hproduct : 0 < distance * weight := Nat.mul_pos hdistance hweight
    rw [if_neg hone, max_lt_iff, hquot]
    omega

theorem toInt_classMaxDebtNs (hdebt : cfg.classMaxDebtNs ≤ 0x7fffffffffffffff) :
    cfg.classMaxDebtNs.toInt64.toInt = cfg.classMaxDebtNs.toNat := by
  refine toInt_of_small _ ?_
  rw [UInt64.le_iff_toNat_le] at hdebt
  simp only [UInt64.reduceToNat] at hdebt
  omega

/-- The winner is the class with a positive distance. -/
theorem classWinner_eq_iff (hdebt : cfg.classMaxDebtNs ≤ 0x7fffffffffffffff)
    {latencyVruntime batchVruntime : UInt64}
    (hlow : -2 ^ 63 ≤ vruntimeLag latencyVruntime batchVruntime)
    (hhigh : vruntimeLag latencyVruntime batchVruntime < 2 ^ 63) :
    classWinner cfg latencyVruntime batchVruntime = k ↔
      1 ≤ cfg.distance (vruntimeLag latencyVruntime batchVruntime) k := by
  have hlag := toInt_sub_of_fits latencyVruntime batchVruntime hlow hhigh
  simp only [classWinner, Int64.le_iff_toInt_le, hlag, toInt_classMaxDebtNs hdebt, vruntimeLag]
  cases k with
  | latency =>
    unfold Config.distance
    split_ifs with hle
    · simp only [true_iff]
      omega
    · simp only [false_iff]
      omega
  | batch =>
    unfold Config.distance
    split_ifs with hle
    · simp only [false_iff]
      omega
    · simp only [true_iff]
      omega

/-- A charge takes its part of the distance. -/
theorem distance_chargeClass {cpuc : CpuCtx} {runtime : UInt64}
    (hfits : (cpuc.entity k).vruntime.toNat + (cfg.classVruntimeDelta k runtime).toNat < 2 ^ 64) :
    cfg.distance (cpuc.chargeClass cfg k runtime).lag k =
      cfg.distance cpuc.lag k - (cfg.classVruntimeDelta k runtime).toNat := by
  have hsum := toNat_add_of_fits _ _ hfits
  cases k with
  | latency | batch =>
    simp only [CpuCtx.lag, CpuCtx.chargeClass, CpuCtx.updateEntity, Config.distance, vruntimeLag,
      Function.update_self, Function.update_of_ne, ne_eq, reduceCtorEq, not_false_eq_true, hsum]
    push_cast
    ring

/-- The distance as the code computes it. -/
def Config.distanceWord (cfg : Config) (lag : Int64) : WorkloadClass → UInt64
  | .latency => (cfg.classMaxDebtNs.toInt64 - lag + 1).toUInt64
  | .batch => (lag - cfg.classMaxDebtNs.toInt64).toUInt64

theorem runForNs_decideMixed (cfg : Config) (lag : Int64) (k : WorkloadClass) :
    (decideMixed cfg lag k).runForNs =
      atLeastOne (cfg.classRuntimeFromVruntime k (cfg.distanceWord lag k)) := by
  cases k with
  | latency => rfl
  | batch => rfl

theorem toNat_distanceWord (hdebt : cfg.classMaxDebtNs ≤ 0x7fffffffffffffff) {lag : Int64}
    (hlow : 0 ≤ cfg.distance lag.toInt k) (hhigh : cfg.distance lag.toInt k < 2 ^ 63) :
    ((cfg.distanceWord lag k).toNat : ℤ) = cfg.distance lag.toInt k := by
  have hdebt' := toInt_classMaxDebtNs hdebt
  cases k with
  | latency =>
    simp only [Config.distance, Config.distanceWord] at hlow hhigh ⊢
    have hwrap (x : ℤ) : (x.bmod (2 ^ 64) + 1) % 2 ^ 64 = (x + 1) % 2 ^ 64 := by
      rw [Int.bmod_def]
      split_ifs <;> omega
    have hone : (1 : Int64).toInt = 1 := by decide
    rw [toNat_toUInt64_add, Int64.toInt_sub, hdebt', hone, hwrap]
    omega
  | batch =>
    simp only [Config.distance, Config.distanceWord] at hlow hhigh ⊢
    rw [toNat_toUInt64_sub, hdebt']
    omega

section Horizon

variable {cpuc : CpuCtx} {now : UInt64} {candidates : ClassCandidates}

/-- With no class in progress, a decision by debt is made on the vruntimes as they stand. -/
theorem decideClass_by_debt (hlatency : candidates.available .latency = true)
    (hbatch : candidates.available .batch = true) (hidle : cpuc.runningClass = none)
    (hreason : (decideClass cfg cpuc now candidates).reason = .latencyDebt ∨
      (decideClass cfg cpuc now candidates).reason = .batchDebt) :
    decideClass cfg cpuc now candidates = decideMixed cfg
      ((cpuc.entity .latency).vruntime - (cpuc.entity .batch).vruntime).toInt64
      (classWinner cfg (cpuc.entity .latency).vruntime (cpuc.entity .batch).vruntime) := by
  have hprojected (k : WorkloadClass) :
      projectedClassVruntime cfg cpuc k now = (cpuc.entity k).vruntime := by
    simp [projectedClassVruntime, hidle]
  unfold decideClass at hreason ⊢
  simp only [hlatency, hbatch, Bool.not_true, Bool.and_self, Bool.false_eq_true, if_false,
    hprojected] at hreason ⊢
  split_ifs at hreason ⊢ with hminRun
  · simp at hreason
  · rfl

/-- The winner of a decision by debt, and the distance that it was granted. -/
theorem decision_by_debt (hdebt : cfg.classMaxDebtNs ≤ 0x7fffffffffffffff)
    (hlatency : candidates.available .latency = true)
    (hbatch : candidates.available .batch = true) (hidle : cpuc.runningClass = none)
    (hreason : (decideClass cfg cpuc now candidates).reason = .latencyDebt ∨
      (decideClass cfg cpuc now candidates).reason = .batchDebt)
    (hwinner : (decideClass cfg cpuc now candidates).winner = some k)
    (hdecision : DecisionFits cfg cpuc k) :
    ∃ distance : ℕ, cfg.distance cpuc.lag k = distance ∧ 1 ≤ distance ∧
      (decideClass cfg cpuc now candidates).runForNs.toNat = max 1 (if distance ≤ 1 then distance
        else (distance * (cfg.classWeight k).toNat + 99) / 100) := by
  have hdecide := decideClass_by_debt hlatency hbatch hidle hreason
  have hk : classWinner cfg (cpuc.entity .latency).vruntime (cpuc.entity .batch).vruntime = k := by
    rw [hdecide] at hwinner
    generalize classWinner cfg _ _ = winner at hwinner
    cases winner with
    | latency => exact Option.some.inj hwinner
    | batch => exact Option.some.inj hwinner
  have hpositive : 1 ≤ cfg.distance cpuc.lag k :=
    (classWinner_eq_iff hdebt hdecision.lag_low hdecision.lag_high).mp hk
  have hlag := toInt_sub_of_fits (cpuc.entity .latency).vruntime (cpuc.entity .batch).vruntime
    hdecision.lag_low hdecision.lag_high
  have hhigh := hdecision.distance_high
  have hgrant := hdecision.grant_high
  have hword : ((cfg.distanceWord
      ((cpuc.entity .latency).vruntime - (cpuc.entity .batch).vruntime).toInt64 k).toNat : ℤ) =
      cfg.distance cpuc.lag k := by
    have hsame : ((cpuc.entity .latency).vruntime - (cpuc.entity .batch).vruntime).toInt64.toInt =
        cpuc.lag := hlag
    rw [← hsame] at hhigh hpositive ⊢
    exact toNat_distanceWord hdebt (by omega) hhigh
  rw [← hword] at hgrant hpositive ⊢
  rw [hdecide, hk, runForNs_decideMixed, toNat_atLeastOne]
  refine ⟨_, rfl, by exact_mod_cast hpositive, ?_⟩
  rw [toNat_classRuntimeFromVruntime (by exact_mod_cast hgrant)]

/-- A decision by debt stands for exactly the time it gives. -/
theorem decision_horizon_is_exact (hdebt : cfg.classMaxDebtNs ≤ 0x7fffffffffffffff)
    (hlatency : candidates.available .latency = true)
    (hbatch : candidates.available .batch = true) (hidle : cpuc.runningClass = none)
    (hreason : (decideClass cfg cpuc now candidates).reason = .latencyDebt ∨
      (decideClass cfg cpuc now candidates).reason = .batchDebt)
    (hwinner : (decideClass cfg cpuc now candidates).winner = some k)
    (hdecision : DecisionFits cfg cpuc k) {runtime : UInt64} (hruntime : 1 ≤ runtime)
    (hcharge : ChargeFits cfg cpuc k runtime) :
    classWinner cfg ((cpuc.chargeClass cfg k runtime).entity .latency).vruntime
        ((cpuc.chargeClass cfg k runtime).entity .batch).vruntime =
      if runtime < (decideClass cfg cpuc now candidates).runForNs then k else k.other := by
  obtain ⟨distance, hdistance, hone, hgranted⟩ :=
    decision_by_debt hdebt hlatency hbatch hidle hreason hwinner hdecision
  have hafter : classWinner cfg ((cpuc.chargeClass cfg k runtime).entity .latency).vruntime
      ((cpuc.chargeClass cfg k runtime).entity .batch).vruntime = k ↔
        runtime < (decideClass cfg cpuc now candidates).runForNs := by
    rw [classWinner_eq_iff hdebt hcharge.lag_low hcharge.lag_high]
    have hcost : (cfg.classVruntimeDelta k runtime).toNat = _ :=
      toNat_classVruntimeDelta hcharge.product_high
    have hreach := charge_lt_iff (classWeight_pos cfg k) hone
      (by simpa [UInt64.le_iff_toNat_le] using hruntime : 1 ≤ runtime.toNat)
    rw [UInt64.lt_iff_toNat_lt, hgranted, ← hreach, ← hcost]
    have hdistance' := distance_chargeClass hcharge.vruntime_high
    unfold CpuCtx.lag at hdistance' hdistance
    rw [hdistance', hdistance]
    omega
  split_ifs with hbefore
  · exact hafter.mpr hbefore
  · have hother := hafter.not.mpr hbefore
    generalize classWinner cfg _ _ = winner at hother ⊢
    cases winner <;> cases k <;> first | rfl | exact absurd rfl hother

end Horizon

/-- The latency class three milliseconds ahead of the batch class. -/
def aheadCpu : CpuCtx where
  entity
    | .latency => ⟨3000000, 0, 1, 0⟩
    | .batch => ⟨0, 0, 1, 0⟩
  classVtimeNow := 3000000
  stealClaim := 0
  runningSince := 0
  batchServiceSinceLatency := 0
  runningClass := none

def bothReady : ClassCandidates := ⟨fun _ => true, none⟩

theorem decision_horizon_is_exact_ahead :
    (decideClass .initial aheadCpu 0 bothReady).runForNs = 2000000 ∧
      classWinner .initial
        ((aheadCpu.chargeClass .initial .batch 1999999).entity .latency).vruntime
        ((aheadCpu.chargeClass .initial .batch 1999999).entity .batch).vruntime = .batch ∧
      classWinner .initial
        ((aheadCpu.chargeClass .initial .batch 2000000).entity .latency).vruntime
        ((aheadCpu.chargeClass .initial .batch 2000000).entity .batch).vruntime = .latency := by
  have hgrant : (decideClass .initial aheadCpu 0 bothReady).runForNs = 2000000 := by decide
  have hdecision : DecisionFits .initial aheadCpu .batch := by
    have hlag : aheadCpu.lag = 3000000 := by decide
    have hdistance : Config.initial.distance 3000000 .batch = 2000000 := by decide
    have hweight : (Config.initial.classWeight .batch).toNat = 100 := by decide
    constructor
    all_goals norm_num [hlag, hdistance, hweight]
  have hexact {runtime : UInt64} (hone : 1 ≤ runtime)
      (hfits : ChargeFits .initial aheadCpu .batch runtime) :
      classWinner .initial ((aheadCpu.chargeClass .initial .batch runtime).entity .latency).vruntime
        ((aheadCpu.chargeClass .initial .batch runtime).entity .batch).vruntime =
        if runtime < (decideClass .initial aheadCpu 0 bothReady).runForNs then .batch else .latency :=
    decision_horizon_is_exact (by decide) rfl rfl rfl (by decide) (by decide) hdecision hone hfits
  have hbefore : (aheadCpu.chargeClass .initial .batch 1999999).lag = 1000001 := by decide
  have hafter : (aheadCpu.chargeClass .initial .batch 2000000).lag = 1000000 := by decide
  refine ⟨hgrant, ?_, ?_⟩
  · rw [hexact (by decide) ⟨by decide, by decide, by norm_num [hbefore], by norm_num [hbefore]⟩, hgrant]
    rfl
  · rw [hexact (by decide) ⟨by decide, by decide, by norm_num [hafter], by norm_num [hafter]⟩, hgrant]
    rfl

end ScxAgent.Scheduler
