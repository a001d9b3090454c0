import ScxAgent.ClaimWords
import ScxAgent.Scheduler.QueueAccounting
import ScxAgent.Scheduler.StealScan

/-!
# Stealing under claims

`dispatch_local_claimed` and `gated_steal` step by step: any number of CPUs are inside them at a
time, each of their steps sees the state as it is then, and everything but the claims may change in
between. A call ends with no claim, or releases the one it took exactly once.
-/

set_option linter.unusedSectionVars false

namespace ScxAgent.Scheduler

open ClaimWords Function

variable {T : Type} [DecidableEq T] {cfg : Config} {s : Sched T}

namespace Sched

/-- `stealSurplus` against a load of the destination that was read before. -/
def stealSurplusFrom (cfg : Config) (s : Sched T) (dstCpu srcCpu : Cpu) (k : WorkloadClass)
    (dstLoad : UInt64) : Option UInt64 :=
  match s.lookupCpuCtx srcCpu with
  | none => none
  | some src =>
    if (src.entity k).nrQueued = 0 ∨ cpuRunnableCount src < 2 then none
    else if s.dsqNrQueued (.classDsq k srcCpu) = 0 then none
    else
      let srcLoad := s.scaledLoad cfg srcCpu
      let requiredGap := cfg.classSlice k + s.topologyMigrationCost cfg dstCpu srcCpu
      if srcLoad ≤ dstLoad ∨ srcLoad - dstLoad < requiredGap then none
      else some (srcLoad - dstLoad - requiredGap)

def scanSourceFrom (cfg : Config) (s : Sched T) (dstCpu : Cpu) (k : WorkloadClass) (dstLoad : UInt64)
    (best : StealChoice) (srcCpu : Cpu) : StealChoice :=
  let tier := s.topologyTier dstCpu srcCpu
  let bestTier := match best with
    | some (_, tier, _) => tier
    | none => 3
  if tier > bestTier then best
  else
    match s.stealSurplusFrom cfg dstCpu srcCpu k dstLoad, best with
    | none, _ => best
    | some surplus, none => some (srcCpu, tier, surplus)
    | some surplus, some (_, bestTier, bestSurplus) =>
      if tier < bestTier ∨ (tier = bestTier ∧ surplus > bestSurplus) then some (srcCpu, tier, surplus)
      else best

/-- The gap of the loads is at least the one a move is worth. -/
def LoadGap (cfg : Config) (s : Sched T) (dstCpu srcCpu : Cpu) (k : WorkloadClass) : Prop :=
  ¬ (s.scaledLoad cfg srcCpu ≤ s.scaledLoad cfg dstCpu ∨
    s.scaledLoad cfg srcCpu - s.scaledLoad cfg dstCpu <
      cfg.classSlice k + s.topologyMigrationCost cfg dstCpu srcCpu)

instance (dstCpu srcCpu : Cpu) (k : WorkloadClass) : Decidable (s.LoadGap cfg dstCpu srcCpu k) :=
  inferInstanceAs (Decidable (¬ _))

end Sched

/-- What a call has done; a look at the state carries the state it saw. -/
inductive ClaimEvent (T : Type) where
  | acquired (cpu : Cpu)
  | lookedForWork (s : Sched T)
  | comparedLoads (s : Sched T)
  | dispatched (dstCpu srcCpu : Cpu) (k : WorkloadClass) (remote : Bool)
  | released (cpu : Cpu)
  | releaseFailed (cpu : Cpu)

/-- Where a CPU is in `dispatch_local_claimed` or `gated_steal`. -/
inductive ClaimPoint where
  | returned (moved busy : Bool)
  | localAcquire (cpu : Cpu) (k : WorkloadClass) (maxSlice : UInt64)
  | localDispatch (cpu : Cpu) (k : WorkloadClass) (maxSlice : UInt64)
  | localRelease (cpu : Cpu) (moved : Bool)
  | stealEnter (dstCpu : Cpu) (k : WorkloadClass)
  | stealCursor (dstCpu : Cpu) (k : WorkloadClass)
  | stealLoad (dstCpu : Cpu) (k : WorkloadClass) (cursor : UInt64)
  | stealScan (dstCpu : Cpu) (k : WorkloadClass) (dstLoad : UInt64) (rest : List Cpu)
      (best : Sched.StealChoice)
  | stealAcquire (dstCpu : Cpu) (k : WorkloadClass) (srcCpu : Cpu)
  | stealCheckWork (dstCpu : Cpu) (k : WorkloadClass) (srcCpu : Cpu)
  | stealCheckQueue (dstCpu : Cpu) (k : WorkloadClass) (srcCpu : Cpu)
  | stealCheckDsq (dstCpu : Cpu) (k : WorkloadClass) (srcCpu : Cpu)
  | stealCheckGap (dstCpu : Cpu) (k : WorkloadClass) (srcCpu : Cpu)
  | stealDispatch (dstCpu : Cpu) (k : WorkloadClass) (srcCpu : Cpu)
  | stealRelease (dstCpu srcCpu : Cpu) (moved : Bool)

namespace ClaimPoint

/-- `acquire_source_claim` of a CPU that was looked up; `held` and `refused` are where the call goes
on. -/
def acquireStep (s : Sched T) (cpu : Cpu) (claim : UInt64) (held refused : ClaimPoint) :
    Sched T × ClaimPoint × List (ClaimEvent T) :=
  match s.lookupCpuCtx cpu with
  | none => (s, .returned false false, [])
  | some _ =>
    match s.acquireSourceClaim cpu claim with
    | none => (s, refused, [])
    | some s => (s, held, [.acquired cpu])

/-- `release_source_claim` and the return after it. -/
def releaseStep (s : Sched T) (cpu : Cpu) (claim : UInt64) (moved : Bool) :
    Sched T × ClaimPoint × List (ClaimEvent T) :=
  (s.releaseSourceClaim cpu claim, .returned moved false,
    [if (s.cpus cpu).stealClaim = claim then .released cpu else .releaseFailed cpu])

/-- One step of a call: the state afterwards, where the call goes on, and what it did. -/
def step (cfg : Config) (s : Sched T) : ClaimPoint → Sched T × ClaimPoint × List (ClaimEvent T)
  | .returned moved busy => (s, .returned moved busy, [])
  | .localAcquire cpu k maxSlice =>
    acquireStep s cpu (Sched.localClaim cpu) (.localDispatch cpu k maxSlice) (.returned false true)
  | .localDispatch cpu k maxSlice =>
    let (moved, s) := s.dispatchFromCpu cfg cpu cpu k false maxSlice
    (s, .localRelease cpu moved, [.dispatched cpu cpu k false])
  | .localRelease cpu moved => releaseStep s cpu (Sched.localClaim cpu) moved
  | .stealEnter dstCpu k =>
    if ¬ dstCpu < s.nrCpuIds ∨ s.nrCpuIds ≤ 1 ∨ cfg.stealScan = 0 then (s, .returned false false, [])
    else if s.cpuHasLocalWork dstCpu then (s, .returned false false, [])
    else (s, .stealCursor dstCpu k, [])
  | .stealCursor dstCpu k =>
    ({ s with stealCursor := s.stealCursor + 1 }, .stealLoad dstCpu k s.stealCursor, [])
  | .stealLoad dstCpu k cursor =>
    (s, .stealScan dstCpu k (s.scaledLoad cfg dstCpu) (s.scanned cfg dstCpu cursor) none, [])
  | .stealScan dstCpu k dstLoad (srcCpu :: rest) best =>
    (s, .stealScan dstCpu k dstLoad rest (s.scanSourceFrom cfg dstCpu k dstLoad best srcCpu), [])
  | .stealScan _ _ _ [] none => (s, .returned false false, [])
  | .stealScan dstCpu k _ [] (some (bestCpu, _, _)) => (s, .stealAcquire dstCpu k bestCpu, [])
  | .stealAcquire dstCpu k srcCpu =>
    acquireStep s srcCpu (Sched.stealClaimOf dstCpu) (.stealCheckWork dstCpu k srcCpu)
      (.returned false false)
  | .stealCheckWork dstCpu k srcCpu =>
    (s, if s.cpuHasLocalWork dstCpu then .stealRelease dstCpu srcCpu false
      else .stealCheckQueue dstCpu k srcCpu, [.lookedForWork s])
  | .stealCheckQueue dstCpu k srcCpu =>
    (s, if ((s.cpus srcCpu).entity k).nrQueued = 0 ∨ Sched.cpuRunnableCount (s.cpus srcCpu) < 2 then
        .stealRelease dstCpu srcCpu false
      else .stealCheckDsq dstCpu k srcCpu, [])
  | .stealCheckDsq dstCpu k srcCpu =>
    (s, if s.dsqNrQueued (.classDsq k srcCpu) = 0 then .stealRelease dstCpu srcCpu false
      else .stealCheckGap dstCpu k srcCpu, [])
  | .stealCheckGap dstCpu k srcCpu =>
    (s, if s.LoadGap cfg dstCpu srcCpu k then .stealDispatch dstCpu k srcCpu
      else .stealRelease dstCpu srcCpu false, [.comparedLoads s])
  | .stealDispatch dstCpu k srcCpu =>
    let (moved, s) := s.dispatchFromCpu cfg dstCpu srcCpu k true u64Max
    (s, .stealRelease dstCpu srcCpu moved, [.dispatched dstCpu srcCpu k true])
  | .stealRelease dstCpu srcCpu moved => releaseStep s srcCpu (Sched.stealClaimOf dstCpu) moved

/-- The claim that is held at a point: the CPU it is a claim of, and its word. -/
def claim : ClaimPoint → Option (Cpu × UInt64)
  | .localDispatch cpu _ _ | .localRelease cpu _ => some (cpu, Sched.localClaim cpu)
  | .stealCheckWork dstCpu _ srcCpu | .stealCheckQueue dstCpu _ srcCpu
  | .stealCheckDsq dstCpu _ srcCpu | .stealCheckGap dstCpu _ srcCpu
  | .stealDispatch dstCpu _ srcCpu | .stealRelease dstCpu srcCpu _ =>
    some (srcCpu, Sched.stealClaimOf dstCpu)
  | _ => none

/-- How many steps are left at most. -/
def rank : ClaimPoint → ℕ
  | .returned _ _ => 0
  | .localAcquire _ _ _ => 3
  | .localDispatch _ _ _ => 2
  | .localRelease _ _ => 1
  | .stealEnter _ _ => agentStealScanMax + 11
  | .stealCursor _ _ => agentStealScanMax + 10
  | .stealLoad _ _ _ => agentStealScanMax + 9
  | .stealScan _ _ _ rest _ => rest.length + 8
  | .stealAcquire _ _ _ => 7
  | .stealCheckWork _ _ _ => 6
  | .stealCheckQueue _ _ _ => 5
  | .stealCheckDsq _ _ _ => 4
  | .stealCheckGap _ _ _ => 3
  | .stealDispatch _ _ _ => 2
  | .stealRelease _ _ _ => 1

end ClaimPoint

variable {cpu : Cpu} {k : WorkloadClass} {point : ClaimPoint} {claim : UInt64}

section Words

/-- The claim words of the CPUs. -/
def Sched.claims (s : Sched T) (cpu : Cpu) : UInt64 := (s.cpus cpu).stealClaim

theorem claims_dispatchFromCpu {dstCpu srcCpu : Cpu} {remote : Bool} {maxSlice : UInt64} :
    (s.dispatchFromCpu cfg dstCpu srcCpu k remote maxSlice).2.claims = s.claims := by
  have hcounts : CountFree (T := T) Sched.claims :=
    ⟨read_updateCpu CpuCtx.stealClaim rfl, rfl, rfl⟩
  have hreads : ReadsTasks (T := T) Sched.claims fun _ => true := fun _ _ _ _ => rfl
  have hmoved {s₁ : Sched T} {p : T} : (s₁.recordMoved cfg p dstCpu k remote).claims = s₁.claims :=
    hcounts.recordMoved hreads (fun _ => rfl) (fun _ _ _ => rfl) fun _ _ => rfl
  have hslice {p : T} {src : CpuCtx} : (s.dispatchSlice cfg p src k maxSlice).2.claims = s.claims :=
    hreads.dispatchSlice fun _ _ _ => rfl
  unfold Sched.dispatchFromCpu
  split
  · split
    · rfl
    · dsimp only
      split_ifs
      · exact hmoved.trans hslice
      · exact hslice
  · rfl

theorem or_ne_zero {word mark : UInt64} (bit : ℕ) (hbit : mark.toNat.testBit bit = true) :
    word ||| mark ≠ 0 := by
  intro hzero
  have hset : (word ||| mark).toNat.testBit bit = true := by
    rw [UInt64.toNat_or, Nat.testBit_or, hbit, Bool.or_true]
  rw [hzero, UInt64.toNat_zero, Nat.zero_testBit] at hset
  cases hset

theorem claim_ne_zero (h : point.claim = some (cpu, claim)) : claim ≠ 0 := by
  cases point <;> cases h <;> first | exact or_ne_zero 0 rfl | exact or_ne_zero 1 rfl

end Words

variable {refused held : ClaimPoint}

section Effects

variable {cpu : Cpu} {claim : UInt64}

theorem effect_acquireStep (hheld : held.claim = some (cpu, claim))
    (hrefused : refused.claim = none) :
    Effect s.claims (ClaimPoint.acquireStep s cpu claim held refused).1.claims none
      (ClaimPoint.acquireStep s cpu claim held refused).2.1.claim := by
  unfold ClaimPoint.acquireStep
  split
  · exact .keep _ rfl
  · unfold Sched.acquireSourceClaim
    by_cases hfree : (s.cpus cpu).stealClaim = 0
    · rw [if_pos hfree]
      dsimp only
      rw [hheld]
      refine .acquire cpu claim hfree (funext fun c => ?_)
      by_cases hc : c = cpu
      · subst hc
        simp [Sched.claims, Sched.updateCpu]
      · simp [Sched.claims, Sched.updateCpu, hc]
    · rw [if_neg hfree]
      dsimp only
      rw [hrefused]
      exact .keep _ rfl

theorem effect_releaseStep (moved : Bool) :
    Effect s.claims (ClaimPoint.releaseStep s cpu claim moved).1.claims (some (cpu, claim)) none := by
  refine .release cpu claim fun hword => ?_
  have hclaim : (s.cpus cpu).stealClaim = claim := hword
  unfold ClaimPoint.releaseStep Sched.releaseSourceClaim
  rw [if_pos hclaim]
  funext c
  by_cases hc : c = cpu
  · subst hc
    simp [Sched.claims, Sched.updateCpu]
  · simp [Sched.claims, Sched.updateCpu, hc]

theorem effect_step (point : ClaimPoint) :
    Effect s.claims (point.step cfg s).1.claims point.claim (point.step cfg s).2.1.claim := by
  cases point with
  | localAcquire cpu k maxSlice => exact effect_acquireStep rfl rfl
  | localDispatch cpu k maxSlice => exact .keep _ claims_dispatchFromCpu
  | localRelease cpu moved => exact effect_releaseStep moved
  | stealScan dstCpu k dstLoad rest best =>
    cases rest with
    | nil => cases best <;> exact .keep _ rfl
    | cons srcCpu rest => exact .keep _ rfl
  | stealAcquire dstCpu k srcCpu => exact effect_acquireStep rfl rfl
  | stealEnter _ _ | stealCheckWork _ _ _ | stealCheckQueue _ _ _ | stealCheckDsq _ _ _
  | stealCheckGap _ _ _ =>
    unfold ClaimPoint.step
    dsimp only
    split_ifs <;> exact .keep _ rfl
  | stealDispatch dstCpu k srcCpu => exact .keep _ claims_dispatchFromCpu
  | stealRelease dstCpu srcCpu moved => exact effect_releaseStep moved
  | _ => exact .keep _ rfl

end Effects

section Logs

def ClaimEvent.onClaim : ClaimEvent T → Bool
  | .acquired _ | .released _ | .releaseFailed _ => true
  | _ => false

/-- What a call does while it holds the claim of a CPU: it leaves claims alone, and it steals only
after it has seen the destination without local work and the loads far enough apart. -/
structure Guarded (cfg : Config) (srcCpu : Cpu) (middle : List (ClaimEvent T)) : Prop where
  quiet : ∀ event ∈ middle, event.onClaim = false
  checked : ∀ dstCpu src k, .dispatched dstCpu src k true ∈ middle → src = srcCpu ∧
    ∃ s₁ s₂ : Sched T, middle = [.lookedForWork s₁, .comparedLoads s₂, .dispatched dstCpu src k true] ∧
      s₁.cpuHasLocalWork dstCpu = false ∧ s₂.LoadGap cfg dstCpu src k

/-- What a call has done when it is at a point. -/
def Logged (cfg : Config) (log : List (ClaimEvent T)) : ClaimPoint → Prop
  | .returned _ _ => log = [] ∨ ∃ cpu middle, log = .acquired cpu :: (middle ++ [.released cpu]) ∧
      Guarded cfg cpu middle
  | .localDispatch cpu _ _ => log = [.acquired cpu]
  | .localRelease cpu _ => ∃ middle, log = .acquired cpu :: middle ∧ Guarded cfg cpu middle
  | .stealCheckWork _ _ srcCpu => log = [.acquired srcCpu]
  | .stealCheckQueue dstCpu _ srcCpu | .stealCheckDsq dstCpu _ srcCpu
  | .stealCheckGap dstCpu _ srcCpu =>
    ∃ s₁ : Sched T, log = [.acquired srcCpu, .lookedForWork s₁] ∧ s₁.cpuHasLocalWork dstCpu = false
  | .stealDispatch dstCpu k srcCpu =>
    ∃ s₁ s₂ : Sched T, log = [.acquired srcCpu, .lookedForWork s₁, .comparedLoads s₂] ∧
      s₁.cpuHasLocalWork dstCpu = false ∧ s₂.LoadGap cfg dstCpu srcCpu k
  | .stealRelease _ srcCpu _ => ∃ middle, log = .acquired srcCpu :: middle ∧ Guarded cfg srcCpu middle
  | _ => log = []

variable {log : List (ClaimEvent T)} {cpu : Cpu} {claim : UInt64}

theorem guarded_of_no_steal {middle : List (ClaimEvent T)} (hquiet : ∀ event ∈ middle, event.onClaim = false)
    (hnone : ∀ dstCpu src k, .dispatched dstCpu src k true ∉ middle) : Guarded cfg cpu middle :=
  ⟨hquiet, fun dstCpu src k hmem => absurd hmem (hnone dstCpu src k)⟩

theorem guarded_looked (s₁ : Sched T) : Guarded cfg cpu [.lookedForWork s₁] := by
  apply guarded_of_no_steal
  · simp [ClaimEvent.onClaim]
  · simp

theorem logged_acquireStep (hlog : log = [])
    (hheld : Logged cfg ([.acquired cpu] : List (ClaimEvent T)) held)
    (hrefused : Logged cfg ([] : List (ClaimEvent T)) refused) :
    Logged cfg (log ++ (ClaimPoint.acquireStep s cpu claim held refused).2.2)
      (ClaimPoint.acquireStep s cpu claim held refused).2.1 := by
  subst hlog
  unfold ClaimPoint.acquireStep
  split
  · exact .inl rfl
  · split
    · exact hrefused
    · exact hheld

theorem logged_releaseStep (hword : s.claims cpu = claim)
    (hlog : ∃ middle, log = .acquired cpu :: middle ∧ Guarded cfg cpu middle) (moved : Bool) :
    Logged cfg (log ++ (ClaimPoint.releaseStep s cpu claim moved).2.2)
      (ClaimPoint.releaseStep s cpu claim moved).2.1 := by
  obtain ⟨middle, rfl, hmiddle⟩ := hlog
  have hclaim : (s.cpus cpu).stealClaim = claim := hword
  refine .inr ⟨cpu, middle, ?_, hmiddle⟩
  unfold ClaimPoint.releaseStep
  rw [if_pos hclaim]
  rfl

theorem Logged.step (h : Logged cfg log point)
    (hword : ∀ cpu claim, point.claim = some (cpu, claim) → s.claims cpu = claim) :
    Logged cfg (log ++ (point.step cfg s).2.2) (point.step cfg s).2.1 := by
  cases point with
  | returned moved busy =>
    have hsame : log ++ [] = log := List.append_nil log
    exact hsame.symm ▸ h
  | localAcquire cpu k maxSlice => exact logged_acquireStep h rfl (.inl rfl)
  | localDispatch cpu k maxSlice =>
    refine ⟨[.dispatched cpu cpu k false], by rw [h]; rfl, guarded_of_no_steal ?_ ?_⟩
    · simp [ClaimEvent.onClaim]
    · simp
  | localRelease cpu moved => exact logged_releaseStep (hword cpu _ rfl) h moved
  | stealEnter dstCpu k =>
    subst h
    unfold ClaimPoint.step
    dsimp only
    split_ifs
    · exact .inl rfl
    · exact .inl rfl
    · exact rfl
  | stealCursor _ _ | stealLoad _ _ _ =>
    subst h
    exact rfl
  | stealScan dstCpu k dstLoad rest best =>
    subst h
    cases rest with
    | nil =>
      cases best with
      | none => exact .inl rfl
      | some choice => exact rfl
    | cons srcCpu rest => exact rfl
  | stealAcquire dstCpu k srcCpu => exact logged_acquireStep h rfl (.inl rfl)
  | stealCheckWork dstCpu k srcCpu =>
    subst h
    unfold ClaimPoint.step
    dsimp only
    by_cases hwork : s.cpuHasLocalWork dstCpu = true
    · rw [if_pos hwork]
      exact ⟨_, rfl, guarded_looked s⟩
    · rw [if_neg hwork]
      exact ⟨s, rfl, by simpa using hwork⟩
  | stealCheckQueue _ _ _ | stealCheckDsq _ _ _ =>
    obtain ⟨s₁, rfl, hwork⟩ := h
    unfold ClaimPoint.step
    dsimp only
    split_ifs
    · exact ⟨_, rfl, guarded_looked s₁⟩
    · exact ⟨s₁, rfl, hwork⟩
  | stealCheckGap dstCpu k srcCpu =>
    obtain ⟨s₁, rfl, hwork⟩ := h
    unfold ClaimPoint.step
    dsimp only
    by_cases hgap : s.LoadGap cfg dstCpu srcCpu k
    · rw [if_pos hgap]
      exact ⟨s₁, s, rfl, hwork, hgap⟩
    · rw [if_neg hgap]
      refine ⟨[.lookedForWork s₁, .comparedLoads s], rfl, guarded_of_no_steal ?_ ?_⟩
      · simp [ClaimEvent.onClaim]
      · simp
  | stealDispatch dstCpu k srcCpu =>
    obtain ⟨s₁, s₂, rfl, hwork, hgap⟩ := h
    refine ⟨[.lookedForWork s₁, .comparedLoads s₂, .dispatched dstCpu srcCpu k true], rfl, ?_, ?_⟩
    · simp [ClaimEvent.onClaim]
    · intro dst src k' hmem
      have hsame : dst = dstCpu ∧ src = srcCpu ∧ k' = k := by simpa using hmem
      obtain ⟨rfl, rfl, rfl⟩ := hsame
      exact ⟨rfl, s₁, s₂, rfl, hwork, hgap⟩
  | stealRelease dstCpu srcCpu moved => exact logged_releaseStep (hword srcCpu _ rfl) h moved

end Logs

section Progress

theorem rank_acquireStep {n : ℕ} (hheld : held.rank < n) (hrefused : refused.rank < n) :
    (ClaimPoint.acquireStep s cpu claim held refused).2.1.rank < n := by
  unfold ClaimPoint.acquireStep
  split
  · exact Nat.zero_lt_of_lt hheld
  · split
    · exact hrefused
    · exact hheld

theorem length_scanned_le (cfg : Config) (s : Sched T) (dstCpu : Cpu) (cursor : UInt64) :
    (s.scanned cfg dstCpu cursor).length ≤ agentStealScanMax := by
  rw [Sched.scanned, List.length_map, List.length_range]
  exact min_le_left _ _

/-- Every step of a call brings it nearer to its return. -/
theorem rank_step (h : point.rank ≠ 0) : (point.step cfg s).2.1.rank < point.rank := by
  cases point with
  | returned moved busy => exact absurd rfl h
  | localAcquire _ _ _ | stealAcquire _ _ _ =>
    exact rank_acquireStep (by simp only [ClaimPoint.rank]; omega) (by simp only [ClaimPoint.rank]; omega)
  | stealLoad dstCpu k cursor =>
    have hlength := length_scanned_le cfg s dstCpu cursor
    simp only [ClaimPoint.step, ClaimPoint.rank]
    omega
  | stealScan dstCpu k dstLoad rest best =>
    cases rest with
    | nil => cases best <;> simp [ClaimPoint.step, ClaimPoint.rank]
    | cons srcCpu rest => simp [ClaimPoint.step, ClaimPoint.rank]
  | _ =>
    simp only [ClaimPoint.step, ClaimPoint.releaseStep]
    first
      | (split_ifs <;> simp only [ClaimPoint.rank] <;> omega)
      | (simp only [ClaimPoint.rank]; omega)

end Progress

section Runs

variable {P : Type} [DecidableEq P]

/-- The scheduler and the CPUs that are inside the two functions. -/
structure ClaimSystem (T P : Type) where
  sched : Sched T
  point : P → ClaimPoint
  log : P → List (ClaimEvent T)

namespace ClaimSystem

/-- A CPU makes a step of its call. -/
def stepped (cfg : Config) (x : ClaimSystem T P) (p : P) : ClaimSystem T P where
  sched := ((x.point p).step cfg x.sched).1
  point := Function.update x.point p ((x.point p).step cfg x.sched).2.1
  log := Function.update x.log p (x.log p ++ ((x.point p).step cfg x.sched).2.2)

/-- A CPU makes a call. -/
def called (x : ClaimSystem T P) (p : P) (entry : ClaimPoint) : ClaimSystem T P :=
  { x with point := Function.update x.point p entry, log := Function.update x.log p [] }

/-- A CPU makes a step, a CPU that has returned makes another call, or something else happens to
everything but the claims. -/
inductive Next (cfg : Config) (x : ClaimSystem T P) : ClaimSystem T P → Prop
  | step (p : P) : x.Next cfg (x.stepped cfg p)
  | callLocal (p : P) (cpu : Cpu) (k : WorkloadClass) (maxSlice : UInt64)
      (hreturned : (x.point p).rank = 0) : x.Next cfg (x.called p (.localAcquire cpu k maxSlice))
  | callSteal (p : P) (dstCpu : Cpu) (k : WorkloadClass) (hreturned : (x.point p).rank = 0) :
      x.Next cfg (x.called p (.stealEnter dstCpu k))
  | other (s : Sched T) (hclaims : s.claims = x.sched.claims) : x.Next cfg { x with sched := s }

/-- No claim is held and no call was made. -/
structure Fresh (x : ClaimSystem T P) : Prop where
  claims : ∀ cpu, x.sched.claims cpu = 0
  returned : ∀ p, (x.point p).rank = 0
  log : ∀ p, x.log p = []

def Holds (x : ClaimSystem T P) (p : P) (cpu : Cpu) : Prop :=
  ∃ claim, (x.point p).claim = some (cpu, claim)

structure Sound (cfg : Config) (x : ClaimSystem T P) : Prop where
  exclusive : Exclusive x.sched.claims fun p => (x.point p).claim
  logged : ∀ p, Logged cfg (x.log p) (x.point p)

end ClaimSystem

theorem claim_of_returned (h : point.rank = 0) : point.claim = none := by
  cases point <;> first | rfl | simp [ClaimPoint.rank] at h

theorem claim_update (point : P → ClaimPoint) (p : P) (next : ClaimPoint) :
    (fun q => (update point p next q).claim) =
      update (fun q => (point q).claim) p next.claim :=
  funext fun q => apply_update (fun _ => ClaimPoint.claim) point p next q

variable {x y : ClaimSystem T P} {log : List (ClaimEvent T)}

omit [DecidableEq T] [DecidableEq P] in
theorem ClaimSystem.Fresh.sound (h : x.Fresh) : x.Sound cfg where
  exclusive := Exclusive.initial h.claims fun p => claim_of_returned (h.returned p)
  logged p := by
    have hreturned := h.returned p
    rw [h.log p]
    generalize x.point p = point at hreturned ⊢
    cases point <;> first | exact .inl rfl | simp [ClaimPoint.rank] at hreturned

/-- A new call starts without claim and with an empty log. -/
theorem ClaimSystem.Sound.call (h : x.Sound cfg) {p : P} {entry : ClaimPoint}
    (hreturned : (x.point p).rank = 0) (hclaim : entry.claim = none)
    (hlogged : Logged cfg ([] : List (ClaimEvent T)) entry) :
    (x.called p entry).Sound cfg where
  exclusive := by
    dsimp only [ClaimSystem.called]
    rw [claim_update, hclaim, ← claim_of_returned hreturned, update_eq_self]
    exact h.exclusive
  logged q := by
    dsimp only [ClaimSystem.called]
    by_cases hq : q = p
    · rw [hq, update_self, update_self]
      exact hlogged
    · rw [update_of_ne hq, update_of_ne hq]
      exact h.logged q

theorem ClaimSystem.Sound.next (h : x.Sound cfg) (hnext : x.Next cfg y) : y.Sound cfg := by
  cases hnext with
  | step p =>
    constructor
    · dsimp only [ClaimSystem.stepped]
      rw [claim_update]
      exact h.exclusive.step (fun _ _ _ => claim_ne_zero) (effect_step (x.point p))
    · intro q
      dsimp only [ClaimSystem.stepped]
      by_cases hq : q = p
      · rw [hq, update_self, update_self]
        exact (h.logged p).step (h.exclusive.word_eq p)
      · rw [update_of_ne hq, update_of_ne hq]
        exact h.logged q
  | callLocal p cpu k maxSlice hreturned => exact h.call hreturned rfl rfl
  | callSteal p dstCpu k hreturned => exact h.call hreturned rfl rfl
  | other s hclaims =>
    refine ⟨?_, h.logged⟩
    dsimp only
    rw [hclaims]
    exact h.exclusive

theorem ClaimSystem.Sound.run (h : x.Sound cfg)
    (hrun : Relation.ReflTransGen (ClaimSystem.Next cfg) x y) : y.Sound cfg := by
  induction hrun with
  | refl => exact h
  | tail _ hnext ih => exact ih.next hnext

/-- A call that holds a claim has taken it and done nothing else to claims. -/
theorem logged_of_claim (h : Logged cfg log point) (hclaim : point.claim = some (cpu, claim)) :
    ∃ middle, log = .acquired cpu :: middle ∧ ∀ event ∈ middle, event.onClaim = false := by
  cases point with
  | localDispatch _ _ _ | stealCheckWork _ _ _ =>
    cases hclaim
    exact ⟨[], h, nofun⟩
  | localRelease _ _ | stealRelease _ _ _ =>
    cases hclaim
    obtain ⟨middle, hlog, hmiddle⟩ := h
    exact ⟨middle, hlog, hmiddle.quiet⟩
  | stealDispatch dstCpu k srcCpu =>
    cases hclaim
    obtain ⟨s₁, s₂, hlog, -⟩ := h
    exact ⟨_, hlog, by simp [ClaimEvent.onClaim]⟩
  | stealCheckQueue dstCpu k srcCpu | stealCheckDsq dstCpu k srcCpu | stealCheckGap dstCpu k srcCpu =>
    cases hclaim
    obtain ⟨s₁, hlog, -⟩ := h
    exact ⟨_, hlog, by simp [ClaimEvent.onClaim]⟩
  | _ => cases hclaim

/-- A log that starts with a steal and the checks before it. -/
def Checked (cfg : Config) (dstCpu srcCpu : Cpu) (k : WorkloadClass) (log : List (ClaimEvent T)) : Prop :=
  ∃ (s₁ s₂ : Sched T) (rest : List (ClaimEvent T)),
    log = .acquired srcCpu :: .lookedForWork s₁ :: .comparedLoads s₂ ::
      .dispatched dstCpu srcCpu k true :: rest ∧
    s₁.cpuHasLocalWork dstCpu = false ∧ s₂.LoadGap cfg dstCpu srcCpu k

/-- A steal comes after the checks that are made under the claim. -/
theorem logged_of_steal {dstCpu srcCpu : Cpu} (h : Logged cfg log point)
    (hsteal : .dispatched dstCpu srcCpu k true ∈ log) : Checked cfg dstCpu srcCpu k log := by
  have hmiddle {cpu : Cpu} {middle rest : List (ClaimEvent T)} (hlog : log = .acquired cpu :: (middle ++ rest))
      (hguarded : Guarded cfg cpu middle) (hrest : .dispatched dstCpu srcCpu k true ∉ rest) :
      Checked cfg dstCpu srcCpu k log := by
    have hmem : .dispatched dstCpu srcCpu k true ∈ middle := by
      rw [hlog, List.mem_cons, List.mem_append] at hsteal
      rcases hsteal with hsteal | hsteal | hsteal
      · cases hsteal
      · exact hsteal
      · exact absurd hsteal hrest
    obtain ⟨rfl, s₁, s₂, rfl, hwork, hgap⟩ := hguarded.checked dstCpu srcCpu k hmem
    exact ⟨s₁, s₂, rest, hlog, hwork, hgap⟩
  cases point with
  | returned moved busy =>
    rcases h with rfl | ⟨cpu, middle, hlog, hguarded⟩
    · cases hsteal
    · exact hmiddle hlog hguarded (by simp)
  | localRelease _ _ | stealRelease _ _ _ =>
    obtain ⟨middle, hlog, hguarded⟩ := h
    rw [← List.append_nil middle] at hlog
    exact hmiddle hlog hguarded List.not_mem_nil
  | stealDispatch dst k' src =>
    obtain ⟨s₁, s₂, rfl, -⟩ := h
    simp at hsteal
  | stealCheckQueue dst k' src | stealCheckDsq dst k' src | stealCheckGap dst k' src =>
    obtain ⟨s₁, rfl, -⟩ := h
    simp at hsteal
  | _ =>
    have hlog : log = _ := h
    simp [hlog] at hsteal

end Runs

section Alone

/-- One step of a call that nobody interrupts. -/
def AloneStep (cfg : Config) (x y : Sched T × ClaimPoint) : Prop :=
  y = ((x.2.step cfg x.1).1, (x.2.step cfg x.1).2.1)

/-- A call that nobody interrupts returns in a state. -/
def ReturnsAlone (cfg : Config) (s : Sched T) (point : ClaimPoint) (moved busy : Bool) (s' : Sched T) :
    Prop :=
  Relation.ReflTransGen (AloneStep cfg) (s, point) (s', .returned moved busy)

variable {point : ClaimPoint} {moved busy : Bool} {s' : Sched T} {dstCpu srcCpu : Cpu}
  {k : WorkloadClass}

theorem ReturnsAlone.refl : ReturnsAlone cfg s (.returned moved busy) moved busy s :=
  Relation.ReflTransGen.refl

theorem ReturnsAlone.step
    (h : ReturnsAlone cfg (point.step cfg s).1 (point.step cfg s).2.1 moved busy s') :
    ReturnsAlone cfg s point moved busy s' :=
  Relation.ReflTransGen.head rfl h

theorem alone_scan (cfg : Config) (s : Sched T) (dstCpu : Cpu) (k : WorkloadClass) (rest : List Cpu)
    (best : Sched.StealChoice) :
    Relation.ReflTransGen (AloneStep cfg)
      (s, .stealScan dstCpu k (s.scaledLoad cfg dstCpu) rest best)
      (s, .stealScan dstCpu k (s.scaledLoad cfg dstCpu) []
        (rest.foldl (s.scanSource cfg dstCpu k) best)) := by
  induction rest generalizing best with
  | nil => exact .refl
  | cons srcCpu rest ih => exact .head rfl (ih _)

theorem stealSurplus_eq_none_iff (hsrc : srcCpu < s.nrCpuIds) :
    s.stealSurplus cfg dstCpu srcCpu k = none ↔
      (((s.cpus srcCpu).entity k).nrQueued = 0 ∨ Sched.cpuRunnableCount (s.cpus srcCpu) < 2) ∨
        s.dsqNrQueued (.classDsq k srcCpu) = 0 ∨ ¬ s.LoadGap cfg dstCpu srcCpu k := by
  unfold Sched.stealSurplus Sched.lookupCpuCtx Sched.LoadGap
  rw [if_pos hsrc]
  dsimp only
  split_ifs with hqueue hdsq hgap
  · exact iff_of_true rfl (.inl hqueue)
  · exact iff_of_true rfl (.inr (.inl hdsq))
  · exact iff_of_true rfl (.inr (.inr (not_not.mpr hgap)))
  · refine iff_of_false nofun ?_
    tauto

theorem lt_of_stealSurplus {surplus : UInt64} (h : s.stealSurplus cfg dstCpu srcCpu k = some surplus) :
    srcCpu < s.nrCpuIds := by
  by_contra hout
  rw [Sched.stealSurplus, Sched.lookupCpuCtx, if_neg hout] at h
  cases h

theorem returnsAlone_stealRelease :
    ReturnsAlone cfg s (.stealRelease dstCpu srcCpu moved) moved false
      (s.releaseSourceClaim srcCpu (Sched.stealClaimOf dstCpu)) := .step .refl

/-- One of the checks that are made under the claim fails. -/
theorem returnsAlone_refused (hsrc : srcCpu < s.nrCpuIds)
    (h : s.cpuHasLocalWork dstCpu = true ∨ s.stealSurplus cfg dstCpu srcCpu k = none) :
    ReturnsAlone cfg s (.stealCheckWork dstCpu k srcCpu) false false
      (s.releaseSourceClaim srcCpu (Sched.stealClaimOf dstCpu)) := by
  rw [stealSurplus_eq_none_iff hsrc] at h
  apply ReturnsAlone.step
  by_cases hwork : s.cpuHasLocalWork dstCpu = true
  · simpa only [ClaimPoint.step, if_pos hwork] using returnsAlone_stealRelease
  · simp only [ClaimPoint.step, if_neg hwork]
    apply ReturnsAlone.step
    by_cases hqueue : ((s.cpus srcCpu).entity k).nrQueued = 0 ∨
        Sched.cpuRunnableCount (s.cpus srcCpu) < 2
    · simpa only [ClaimPoint.step, if_pos hqueue] using returnsAlone_stealRelease
    · simp only [ClaimPoint.step, if_neg hqueue]
      apply ReturnsAlone.step
      by_cases hdsq : s.dsqNrQueued (.classDsq k srcCpu) = 0
      · simpa only [ClaimPoint.step, if_pos hdsq] using returnsAlone_stealRelease
      · have hgap : ¬ s.LoadGap cfg dstCpu srcCpu k := by tauto
        simp only [ClaimPoint.step, if_neg hdsq]
        apply ReturnsAlone.step
        simpa only [ClaimPoint.step, if_neg hgap] using returnsAlone_stealRelease

theorem returnsAlone_allowed (hsrc : srcCpu < s.nrCpuIds)
    (h : ¬ (s.cpuHasLocalWork dstCpu = true ∨ s.stealSurplus cfg dstCpu srcCpu k = none)) :
    ReturnsAlone cfg s (.stealCheckWork dstCpu k srcCpu)
      (s.dispatchFromCpu cfg dstCpu srcCpu k true u64Max).1 false
      ((s.dispatchFromCpu cfg dstCpu srcCpu k true u64Max).2.releaseSourceClaim srcCpu
        (Sched.stealClaimOf dstCpu)) := by
  rw [stealSurplus_eq_none_iff hsrc] at h
  push Not at h
  obtain ⟨hwork, hqueue, hdsq, hgap⟩ := h
  apply ReturnsAlone.step
  simp only [ClaimPoint.step, if_neg hwork]
  apply ReturnsAlone.step
  simp only [ClaimPoint.step, if_neg (not_or.mpr ⟨hqueue.1, not_lt.mpr hqueue.2⟩)]
  apply ReturnsAlone.step
  simp only [ClaimPoint.step, if_neg hdsq]
  apply ReturnsAlone.step
  simp only [ClaimPoint.step, if_pos hgap]
  exact .step returnsAlone_stealRelease

/-- Run without interruption, the steps of a call are `gated_steal`. -/
theorem returnsAlone_gatedSteal (dstCpu : Cpu) (k : WorkloadClass) :
    ReturnsAlone cfg s (.stealEnter dstCpu k) (s.gatedSteal cfg dstCpu k).1 false
      (s.gatedSteal cfg dstCpu k).2 := by
  apply ReturnsAlone.step
  unfold Sched.gatedSteal
  simp only [ClaimPoint.step]
  split_ifs with hguard hwork
  · exact .refl
  · exact .refl
  · dsimp only
    apply ReturnsAlone.step
    apply ReturnsAlone.step
    simp only [ClaimPoint.step]
    generalize hs₁ : ({ s with stealCursor := s.stealCursor + 1 } : Sched T) = s₁
    refine (alone_scan cfg _ _ _ _ _).trans ?_
    have hscan : ScanOk cfg s₁ dstCpu k _ _ :=
      ScanOk.fold (scanOk_nil cfg s₁ dstCpu k) (s₁.scanned cfg dstCpu s.stealCursor)
    generalize (s₁.scanned cfg dstCpu s.stealCursor).foldl (s₁.scanSource cfg dstCpu k) none = best
      at hscan ⊢
    apply ReturnsAlone.step
    cases best with
    | none => exact .refl
    | some choice =>
      obtain ⟨bestCpu, tier, surplus⟩ := choice
      have hsrc := lt_of_stealSurplus hscan.2.passes
      simp only [ClaimPoint.step]
      apply ReturnsAlone.step
      simp only [ClaimPoint.step, ClaimPoint.acquireStep, Sched.lookupCpuCtx, if_pos hsrc]
      cases hclaim : s₁.acquireSourceClaim bestCpu (Sched.stealClaimOf dstCpu) with
      | none => exact .refl
      | some s₂ =>
        have hsrc₂ : bestCpu < s₂.nrCpuIds := by
          unfold Sched.acquireSourceClaim at hclaim
          split_ifs at hclaim
          cases hclaim
          exact hsrc
        dsimp only
        split_ifs with hrefused
        · exact returnsAlone_refused hsrc₂ hrefused
        · exact returnsAlone_allowed hsrc₂ hrefused

end Alone

/-- A scan in a state that does not change ends with the best of the CPUs it visits, if there is
one. -/
theorem scan_chooses_first_best (s : Sched T) (dstCpu : Cpu) (k : WorkloadClass) (cursor : UInt64) :
    ∃ point, Relation.ReflTransGen (AloneStep cfg) (s, .stealLoad dstCpu k cursor) (s, point) ∧
      (point = .returned false false ∧
          (∀ srcCpu ∈ s.scanned cfg dstCpu cursor, s.stealSurplus cfg dstCpu srcCpu k = none) ∨
        ∃ srcCpu surplus, point = .stealAcquire dstCpu k srcCpu ∧
          FirstBest cfg s dstCpu k (s.scanned cfg dstCpu cursor) srcCpu surplus) := by
  have hscan : ScanOk cfg s dstCpu k _ _ :=
    ScanOk.fold (scanOk_nil cfg s dstCpu k) (s.scanned cfg dstCpu cursor)
  have hrun := alone_scan cfg s dstCpu k (s.scanned cfg dstCpu cursor) none
  generalize (s.scanned cfg dstCpu cursor).foldl (s.scanSource cfg dstCpu k) none = best at hscan hrun
  cases best with
  | none =>
    exact ⟨.returned false false, .head rfl (hrun.tail rfl), .inl ⟨rfl, hscan⟩⟩
  | some choice =>
    obtain ⟨srcCpu, tier, surplus⟩ := choice
    exact ⟨.stealAcquire dstCpu k srcCpu, .head rfl (hrun.tail rfl),
      .inr ⟨srcCpu, surplus, rfl, hscan.2⟩⟩

theorem gated_stealing_is_sound {P : Type} [DecidableEq P] (cfg : Config) :
    (∀ (s : Sched T) (dstCpu : Cpu) (cursor : UInt64),
      s.nrCpuIds ≤ 2 ^ 31 → dstCpu < s.nrCpuIds →
      cursor.toNat + scanLength cfg s.nrCpuIds ≤ 2 ^ 64 →
      (s.scanned cfg dstCpu cursor).Nodup ∧
        ∀ srcCpu ∈ s.scanned cfg dstCpu cursor, srcCpu < s.nrCpuIds ∧ srcCpu ≠ dstCpu) ∧
    (∀ (s : Sched T) (dstCpu : Cpu) (k : WorkloadClass) (cursor : UInt64), ∃ point,
      Relation.ReflTransGen (AloneStep cfg) (s, .stealLoad dstCpu k cursor) (s, point) ∧
      (point = .returned false false ∧
          (∀ srcCpu ∈ s.scanned cfg dstCpu cursor, s.stealSurplus cfg dstCpu srcCpu k = none) ∨
        ∃ srcCpu surplus, point = .stealAcquire dstCpu k srcCpu ∧
          FirstBest cfg s dstCpu k (s.scanned cfg dstCpu cursor) srcCpu surplus)) ∧
    ∀ x₀ x : ClaimSystem T P, x₀.Fresh → Relation.ReflTransGen (ClaimSystem.Next cfg) x₀ x →
      (∀ p dstCpu srcCpu k, .dispatched dstCpu srcCpu k true ∈ x.log p →
        ∃ (s₁ s₂ : Sched T) (rest : List (ClaimEvent T)),
          x.log p = .acquired srcCpu :: .lookedForWork s₁ :: .comparedLoads s₂ ::
            .dispatched dstCpu srcCpu k true :: rest ∧
          s₁.cpuHasLocalWork dstCpu = false ∧ s₂.LoadGap cfg dstCpu srcCpu k) ∧
      (∀ p q cpu, x.Holds p cpu → x.Holds q cpu → p = q) ∧
      (∀ p cpu, x.Holds p cpu →
        ∃ middle, x.log p = .acquired cpu :: middle ∧ ∀ event ∈ middle, event.onClaim = false) ∧
      (∀ p, (x.point p).rank = 0 → x.log p = [] ∨
        ∃ cpu middle, x.log p = .acquired cpu :: (middle ++ [.released cpu]) ∧
          ∀ event ∈ middle, event.onClaim = false) ∧
      ∀ p, (x.point p).rank ≠ 0 → ((x.point p).step cfg x.sched).2.1.rank < (x.point p).rank := by
  refine ⟨?_, ?_, ?_⟩
  · intro s dstCpu cursor hnr hdst hcursor
    exact scanned_sound hnr hdst hcursor
  · intro s dstCpu k cursor
    exact scan_chooses_first_best s dstCpu k cursor
  · intro x₀ x hfresh hrun
    have hsound := hfresh.sound.run hrun
    refine ⟨?_, ?_, ?_, ?_, ?_⟩
    · intro p dstCpu srcCpu k hsteal
      exact logged_of_steal (hsound.logged p) hsteal
    · rintro p q cpu ⟨claim, hp⟩ ⟨claim', hq⟩
      exact hsound.exclusive.unique p q cpu claim claim' hp hq
    · rintro p cpu ⟨claim, hp⟩
      exact logged_of_claim (hsound.logged p) hp
    · intro p hreturned
      have hlogged := hsound.logged p
      generalize x.point p = point at hreturned hlogged
      cases point with
      | returned moved busy =>
        rcases hlogged with hlog | ⟨cpu, middle, hlog, hmiddle⟩
        · exact .inl hlog
        · exact .inr ⟨cpu, middle, hlog, hmiddle.quiet⟩
      | _ => simp [ClaimPoint.rank] at hreturned
    · intro p hactive
      exact rank_step hactive

section Contended

def atRest : ClaimSystem ℕ Bool := ⟨quietHost.sched, fun _ => .returned false false, fun _ => []⟩

/-- Two CPUs ask for the claim of CPU 0, one after the other. -/
def contended : ClaimSystem ℕ Bool :=
  let first := (atRest.called true (.localAcquire 0 .batch 0)).stepped .initial true
  (first.called false (.localAcquire 0 .batch 0)).stepped .initial false

theorem gated_stealing_is_sound_contended :
    contended.Holds true 0 ∧ (contended.point false).rank = 0 ∧
      ∀ p, contended.Holds p 0 → p = true := by
  have hfresh : atRest.Fresh := ⟨fun _ => rfl, fun _ => rfl, fun _ => rfl⟩
  have hrun : Relation.ReflTransGen (ClaimSystem.Next .initial) atRest contended := by
    refine .head (.callLocal true 0 .batch 0 rfl) ?_
    refine .head (.step true) ?_
    refine .head (.callLocal false 0 .batch 0 rfl) ?_
    exact .head (.step false) .refl
  have hholds : contended.Holds true 0 := ⟨Sched.localClaim 0, by decide⟩
  refine ⟨hholds, by decide, fun p hp => ?_⟩
  exact ((gated_stealing_is_sound .initial).2.2 atRest contended hfresh hrun).2.1 p true 0 hp hholds

end Contended

end ScxAgent.Scheduler
