import ScxAgent.Scheduler.QueueAccounting

/-!
# Work conservation of dispatch

What the dispatch queues hold before and after one dispatch call. A call moves at most one task. It
finds a queued task only by its pid, so a task that has left the pid table while it exits stays in
its queue even if its CPU has nothing else to run.
-/

set_option linter.unusedSectionVars false

namespace ScxAgent.Scheduler

open List Function

variable {T : Type} [DecidableEq T]

/-- What decides which task a dispatch moves: the queues, where the records file a task, and the
answers of the kernel about it. -/
@[ext] structure Queues (T : Type) where
  dsq : DsqId → List T
  found : T → Bool
  accepts : T → DsqId → Bool
  allowed : T → Cpu → Bool
  filed : T → Option (WorkloadClass × Option Cpu × TaskState)
  nrCpuIds : ℕ
  claim : Cpu → UInt64

def TaskCtx.filing (tctx : TaskCtx) : WorkloadClass × Option Cpu × TaskState :=
  (tctx.classId, tctx.queuedCpu, tctx.state)

def Sched.queues (s : Sched T) : Queues T where
  dsq := s.kernel.dsq
  found := s.kernel.taskFromPid
  accepts := s.kernel.dsqMove
  allowed p := (s.kernel.task p).cpusPtr
  filed p := (s.tasks p).map TaskCtx.filing
  nrCpuIds := s.nrCpuIds
  claim cpu := (s.cpus cpu).stealClaim

namespace Queues

/-- The task can be moved from a class queue of the CPU to the CPU. -/
def movable (q : Queues T) (cpu : Cpu) (k : WorkloadClass) (p : T) : Bool :=
  q.found p && q.allowed p cpu && q.filed p = some (k, some cpu, .enqueued)

theorem movable_iff {q : Queues T} {cpu : Cpu} {k : WorkloadClass} {p : T} :
    q.movable cpu k p = true ↔
      (q.found p = true ∧ q.allowed p cpu = true) ∧ q.filed p = some (k, some cpu, .enqueued) := by
  simp [movable]

end Queues

/-- The queues after a task went from one of them to the local queue of a CPU. -/
def afterMove (dsq : DsqId → List T) (p : T) (src : DsqId) (dstCpu : Cpu) : DsqId → List T :=
  Function.update (Function.update dsq src ((dsq src).filter (· ≠ p))) (.localOn dstCpu)
    (dsq (.localOn dstCpu) ++ [p])

/-! ## Parts that leave the queues alone -/

variable {cpuc : CpuCtx} {curr : Option T} {f : CpuCtx → CpuCtx} {maxRuntime : UInt64}
  {incoming : Option (WorkloadClass × UInt64)}

section Frames

variable {cfg : Config} {s : Sched T} {p : T} {cpu : Cpu} {k : WorkloadClass}

theorem queues_updateTask {f : TaskCtx → TaskCtx} (hf : ∀ tctx, s.tasks p = some tctx →
    (f tctx).filing = tctx.filing) : (s.updateTask p f).queues = s.queues :=
  Queues.ext rfl rfl rfl rfl (map_updateTask TaskCtx.filing hf) rfl rfl

theorem queues_updateCpu (hf : (f (s.cpus cpu)).stealClaim = (s.cpus cpu).stealClaim) :
    (s.updateCpu cpu f).queues = s.queues :=
  Queues.ext rfl rfl rfl rfl rfl rfl (read_updateCpu CpuCtx.stealClaim hf)

@[simp] theorem queues_updateEntity {f : CpuClassCtx → CpuClassCtx} :
    (s.updateEntity cpu k f).queues = s.queues :=
  queues_updateCpu rfl

@[simp] theorem queues_taskSetSlice {slice : UInt64} :
    (s.taskSetSlice p slice).queues = s.queues := by
  refine Queues.ext rfl rfl rfl ?_ rfl rfl rfl
  funext q
  simp only [Sched.queues, Sched.taskSetSlice]
  by_cases hq : q = p
  · subst hq
    rw [update_self]
  · rw [update_of_ne hq]

theorem readsTasks_queues : ReadsTasks (T := T) Sched.queues TaskCtx.filing :=
  fun _ _ _ => queues_updateTask

theorem sliceFree_queues : SliceFree (T := T) Sched.queues := ⟨queues_taskSetSlice, rfl⟩

@[simp] theorem queues_arbitrateLockedCpu :
    (s.arbitrateLockedCpu cfg cpu curr incoming).queues = s.queues := sliceFree_queues.arbitrateLockedCpu

theorem filing_chargeTask (task : TaskStruct) (tctx : TaskCtx) (runtime : UInt64) (runnable : Bool) :
    (chargeTask cfg task tctx runtime runnable).filing = tctx.filing := by
  simp only [chargeTask]
  split
  · rfl
  · simp only [chargeEpoch]
    split_ifs <;> rfl

@[simp] theorem queues_chargeRuntime {runtime : UInt64} {runnable : Bool} :
    (s.chargeRuntime cfg p cpu runtime runnable).2.queues = s.queues := by
  unfold Sched.chargeRuntime
  split_ifs
  · rfl
  · split
    · dsimp only
      rw [queues_updateCpu rfl]
      exact queues_updateTask (s := s) fun tctx _ => filing_chargeTask _ tctx runtime runnable
    · rfl

theorem queues_renewBatch (elapsed : UInt64) :
    (s.renewBatch cfg cpu p elapsed).2.queues = s.queues := by
  unfold Sched.renewBatch
  have hcharge : (s.chargeRuntime cfg p cpu elapsed true).2.queues = s.queues :=
    queues_chargeRuntime
  generalize s.chargeRuntime cfg p cpu elapsed true = result at hcharge
  obtain ⟨charged, u⟩ := result
  cases charged with
  | false => exact hcharge
  | true =>
    dsimp only at hcharge ⊢
    generalize hu : (u.updateCpu cpu _).updateTask p _ = clocked
    have hclocked : clocked.queues = s.queues := by
      rw [← hu, queues_updateTask, queues_updateCpu, hcharge]
      · rfl
      · intro _ _
        rfl
    cases htask : clocked.tasks p with
    | none => exact hclocked
    | some tctx =>
      have hstarted (g : CpuClassCtx → CpuClassCtx) (cpuc : CpuCtx) :
          ((clocked.updateEntity cpu .batch g).updateTask p fun _ =>
            (batchStartEpoch cfg tctx cpuc false).2).queues = s.queues := by
        have hsame : (batchStartEpoch cfg tctx cpuc false).2.filing = tctx.filing := by
          obtain ⟨target, remaining, hstart⟩ := batchStartEpoch_grants cfg tctx cpuc false
          rw [hstart]
          rfl
        rw [readsTasks_queues.replaced (s := clocked.updateEntity cpu .batch g) htask hsame,
          queues_updateEntity, hclocked]
      dsimp only
      split_ifs
      · exact hstarted _ _
      · rw [queues_arbitrateLockedCpu, queues_taskSetSlice]
        exact hstarted _ _

@[simp] theorem queues_tryKeepRunning {prev : Option T} {workConserving : Bool} :
    (s.tryKeepRunning cfg cpu prev workConserving).2.queues = s.queues := by
  unfold Sched.tryKeepRunning
  split
  · split_ifs
    · rfl
    · split
      · rfl
      · split_ifs
        · rfl
        · rfl
        · rfl
        · split
          · simp only [Sched.keepLatency]
            split_ifs <;> simp
          · simp only [Sched.keepBatch]
            split_ifs
            · simp
            · rfl
            · exact queues_renewBatch _
  · rfl

/-- The two places of a dispatch that try to go on with the previous task. -/
theorem queues_keep (cfg : Config) (s : Sched T) (cpu : Cpu) (prev : Option T)
    (workConserving : Bool) (c : Prop) [Decidable c] :
    (if c then s.tryKeepRunning cfg cpu prev workConserving else (false, s)).2.queues =
      s.queues := by
  split_ifs
  · exact queues_tryKeepRunning
  · rfl

@[simp] theorem queues_activateCpuClass :
    (s.updateCpu cpu (activateCpuClass cfg k)).queues = s.queues :=
  queues_updateCpu rfl

end Frames

/-! ## One move -/

variable {claim : UInt64}

section Moves

variable {cfg : Config} {s t : Sched T} {p : T} {cpu dstCpu srcCpu : Cpu} {k : WorkloadClass}

/-- The kernel and the claims, which the records made of a moved task leave alone. -/
def Sched.site (s : Sched T) : Kernel T × (Cpu → UInt64) :=
  (s.kernel, fun cpu => (s.cpus cpu).stealClaim)

theorem site_recordMoved {remote : Bool} :
    (s.recordMoved cfg p dstCpu k remote).site = s.site := by
  have hcounts : CountFree (T := T) Sched.site :=
    ⟨Prod.ext rfl (read_updateCpu CpuCtx.stealClaim rfl), rfl, rfl⟩
  have hreads : ReadsTasks (T := T) Sched.site fun _ => true := fun _ _ _ _ => rfl
  exact hcounts.recordMoved hreads (fun _ => rfl) (fun _ _ _ => rfl) fun _ _ => rfl

theorem movable_local (s : Sched T) (cpu : Cpu) (k : WorkloadClass) (p : T) :
    s.movable cpu cpu k false p = s.queues.movable cpu k p := by
  rw [Bool.eq_iff_iff, Queues.movable_iff]
  simp only [Sched.movable, Sched.queues, Bool.and_eq_true]
  cases s.tasks p with
  | none => simp
  | some tctx => simp [TaskCtx.filing, and_assoc]

theorem queues_dispatchSlice {src : CpuCtx} {maxSlice : UInt64} :
    (s.dispatchSlice cfg p src k maxSlice).2.queues = s.queues :=
  readsTasks_queues.dispatchSlice fun _ _ _ => rfl

/-- One task went from a class queue to the local queue of a CPU; nothing else was queued or
taken. -/
structure Moved (s t : Sched T) (p : T) (k : WorkloadClass) (srcCpu dstCpu : Cpu) : Prop where
  queued : p ∈ s.kernel.dsq (.classDsq k srcCpu)
  found : s.kernel.taskFromPid p = true
  allowed : (s.kernel.task p).cpusPtr dstCpu = true
  dsq : t.kernel.dsq = afterMove s.kernel.dsq p (.classDsq k srcCpu) dstCpu

/-- A move is one between all states with the same queues that know the tasks alike. -/
theorem Moved.congr {s' t' : Sched T} (h : Moved s t p k srcCpu dstCpu)
    (hdsq : s.queues.dsq = s'.queues.dsq) (hfound : s.queues.found = s'.queues.found)
    (hallowed : s.queues.allowed = s'.queues.allowed) (ht : t'.queues.dsq = t.queues.dsq) :
    Moved s' t' p k srcCpu dstCpu where
  queued := by
    have hqueued := h.queued
    rwa [show s.kernel.dsq = s'.kernel.dsq from hdsq] at hqueued
  found := (congrFun hfound p).symm.trans h.found
  allowed := (congrFun (congrFun hallowed p) dstCpu).symm.trans h.allowed
  dsq := ht.trans (h.dsq.trans (congrArg (afterMove · p (.classDsq k srcCpu) dstCpu) hdsq))

theorem dispatchFromCpu_cases (cfg : Config) (s : Sched T) (dstCpu srcCpu : Cpu) (k : WorkloadClass)
    (remote : Bool) (maxSlice : UInt64) :
    (∃ t, s.dispatchFromCpu cfg dstCpu srcCpu k remote maxSlice = (false, t) ∧
      t.queues = s.queues) ∨
    ∃ t p, s.dispatchFromCpu cfg dstCpu srcCpu k remote maxSlice = (true, t) ∧
      Moved s t p k srcCpu dstCpu ∧ t.queues.claim = s.queues.claim := by
  unfold Sched.dispatchFromCpu
  split
  · rename_i src hdst hsrc
    split
    · exact .inl ⟨s, rfl, rfl⟩
    · rename_i p hfind
      have hqueues : (s.dispatchSlice cfg p src k maxSlice).2.queues = s.queues :=
        queues_dispatchSlice
      generalize s.dispatchSlice cfg p src k maxSlice = result at hqueues ⊢
      obtain ⟨slice, u⟩ := result
      dsimp only at hqueues ⊢
      by_cases hmove : u.kernel.dsqMove p (.localOn dstCpu) = true
      · rw [if_pos hmove]
        have hsite : ((u.dsqMoveLocal p (.classDsq k srcCpu) dstCpu slice).recordMoved cfg p dstCpu k
            remote).site = (u.dsqMoveLocal p (.classDsq k srcCpu) dstCpu slice).site :=
          site_recordMoved
        have hmovable := find?_some hfind
        simp only [Sched.movable, Bool.and_eq_true] at hmovable
        refine .inr ⟨_, p, rfl, ⟨mem_of_find?_eq_some hfind, hmovable.1.1, hmovable.1.2, ?_⟩, ?_⟩
        · have hdsq : u.kernel.dsq = s.kernel.dsq := congrArg Queues.dsq hqueues
          rw [← hdsq]
          exact congrArg (fun site => site.1.dsq) hsite
        · rw [← hqueues]
          exact congrArg Prod.snd hsite
      · rw [if_neg hmove]
        exact .inl ⟨u, rfl, hqueues⟩
  · exact .inl ⟨s, rfl, rfl⟩

/-- A task that can be moved is moved, or another one before it. -/
theorem dispatchFromCpu_of_movable (hcpu : cpu < s.queues.nrCpuIds)
    (haccepts : ∀ p dsq, s.kernel.dsqMove p dsq = true)
    (hqueued : p ∈ s.kernel.dsq (.classDsq k cpu)) (hmovable : s.queues.movable cpu k p = true)
    (maxSlice : UInt64) : (s.dispatchFromCpu cfg cpu cpu k false maxSlice).1 = true := by
  obtain ⟨first, hfind⟩ : ∃ first, (s.kernel.dsq (.classDsq k cpu)).find?
      (s.movable cpu cpu k false) = some first := by
    rw [← Option.isSome_iff_exists, find?_isSome]
    exact ⟨p, hqueued, (movable_local s cpu k p).trans hmovable⟩
  have hqueues : (s.dispatchSlice cfg first (s.cpus cpu) k maxSlice).2.queues = s.queues :=
    queues_dispatchSlice
  simp only [Sched.dispatchFromCpu, lookupCpuCtx_of_lt hcpu, hfind]
  rw [if_pos]
  exact (congrFun (congrFun (congrArg Queues.accepts hqueues) first) _).trans (haccepts _ _)

/-! ## Claims -/

theorem acquireSourceClaim_of_free (hfree : s.queues.claim cpu = 0) :
    s.acquireSourceClaim cpu claim =
      some (s.updateCpu cpu fun cpuc => { cpuc with stealClaim := claim }) :=
  if_pos hfree

theorem acquireSourceClaim_of_held (hheld : s.queues.claim cpu ≠ 0) :
    s.acquireSourceClaim cpu claim = none :=
  if_neg hheld

theorem queues_claimed (s : Sched T) (cpu : Cpu) (claim : UInt64) :
    (s.updateCpu cpu fun cpuc => { cpuc with stealClaim := claim }).queues =
      { s.queues with claim := update s.queues.claim cpu claim } := by
  refine Queues.ext rfl rfl rfl rfl rfl rfl ?_
  funext c
  simp only [Sched.queues, Sched.updateCpu]
  by_cases hc : c = cpu
  · subst hc
    rw [update_self, update_self]
  · rw [update_of_ne hc, update_of_ne hc]

/-- The claim that was taken is the one that is released. -/
theorem queues_released {u : Sched T} (hfree : s.queues.claim cpu = 0)
    (hclaim : u.queues.claim = update s.queues.claim cpu claim) :
    (u.releaseSourceClaim cpu claim).queues = { u.queues with claim := s.queues.claim } := by
  have hown : (u.cpus cpu).stealClaim = claim := by
    have hself := congrFun hclaim cpu
    rwa [update_self] at hself
  rw [Sched.releaseSourceClaim, if_pos hown, queues_claimed, hclaim, update_idem, ← hfree,
    update_eq_self]

/-- A dispatch under a claim that was free: nothing or one task is moved, and in the end the claims
are what they were. -/
theorem claimedDispatch_cases (cfg : Config) (s : Sched T) (claim : UInt64) (dstCpu srcCpu : Cpu)
    (k : WorkloadClass) (remote : Bool) (maxSlice : UInt64) (hfree : s.queues.claim srcCpu = 0) :
    (∃ t, (s.updateCpu srcCpu fun cpuc => { cpuc with stealClaim := claim }).dispatchFromCpu cfg
        dstCpu srcCpu k remote maxSlice = (false, t) ∧
      (t.releaseSourceClaim srcCpu claim).queues = s.queues) ∨
    ∃ t p, (s.updateCpu srcCpu fun cpuc => { cpuc with stealClaim := claim }).dispatchFromCpu cfg
        dstCpu srcCpu k remote maxSlice = (true, t) ∧
      Moved s (t.releaseSourceClaim srcCpu claim) p k srcCpu dstCpu := by
  have hclaimed := queues_claimed s srcCpu claim
  generalize (s.updateCpu srcCpu fun cpuc => { cpuc with stealClaim := claim }) = u at hclaimed ⊢
  rcases dispatchFromCpu_cases cfg u dstCpu srcCpu k remote maxSlice with
    ⟨t, hdispatch, hqueues⟩ | ⟨t, p, hdispatch, hmoved, hclaim⟩
  · refine .inl ⟨t, hdispatch, ?_⟩
    rw [queues_released hfree (by rw [hqueues, hclaimed]), hqueues, hclaimed]
  · refine .inr ⟨t, p, hdispatch, ?_⟩
    have hreleased := queues_released hfree (hclaim.trans (congrArg Queues.claim hclaimed))
    exact hmoved.congr (by rw [hclaimed]) (by rw [hclaimed]) (by rw [hclaimed])
      (by rw [hreleased])

end Moves

/-! ## The queues of the CPU -/

variable {decision : ClassDecision}

section Local

variable {cfg : Config} {s : Sched T} {p : T} {cpu : Cpu} {k : WorkloadClass}

/-- A class queue of the CPU holds a task that a dispatch can move. -/
def Queues.Offers (q : Queues T) (cpu : Cpu) (k : WorkloadClass) : Prop :=
  ∃ p ∈ q.dsq (.classDsq k cpu), q.movable cpu k p = true

theorem Moved.of_queues {s' t : Sched T} {dstCpu srcCpu : Cpu} (h : Moved s' t p k srcCpu dstCpu)
    (hs : s'.queues = s.queues) : Moved s t p k srcCpu dstCpu :=
  h.congr (congrArg Queues.dsq hs) (congrArg Queues.found hs) (congrArg Queues.allowed hs) rfl

variable (hcpu : cpu < s.queues.nrCpuIds)
include hcpu

section Held

variable (hheld : s.queues.claim cpu ≠ 0)
include hheld

theorem dispatchLocalClaimed_of_held (maxSlice : UInt64) :
    s.dispatchLocalClaimed cfg cpu k maxSlice = (false, true, s) := by
  simp only [Sched.dispatchLocalClaimed, lookupCpuCtx_of_lt hcpu, acquireSourceClaim_of_held hheld]

theorem dispatchLocal_of_held (attempts : List (WorkloadClass × UInt64)) :
    s.dispatchLocal cfg cpu attempts = (false, !attempts.isEmpty, s) := by
  induction attempts with
  | nil => rfl
  | cons attempt rest ih =>
    rw [Sched.dispatchLocal, dispatchLocalClaimed_of_held hcpu hheld]
    simp [ih]

theorem dispatchOwn_of_held {winner : WorkloadClass} (hwinner : decision.winner = some winner) :
    s.dispatchOwn cfg cpu decision = (false, true, s) := by
  unfold Sched.dispatchOwn
  rw [dispatchLocal_of_held hcpu hheld]
  dsimp only
  rw [dispatchLocal_of_held hcpu hheld]
  simp [Sched.attempts, hwinner]

end Held

section Free

variable (cfg) (hfree : s.queues.claim cpu = 0)
include hfree

theorem dispatchLocalClaimed_of_free (k : WorkloadClass) (maxSlice : UInt64) :
    (∃ t, s.dispatchLocalClaimed cfg cpu k maxSlice = (false, false, t) ∧ t.queues = s.queues) ∨
    ∃ t p, s.dispatchLocalClaimed cfg cpu k maxSlice = (true, false, t) ∧
      Moved s t p k cpu cpu := by
  simp only [Sched.dispatchLocalClaimed, lookupCpuCtx_of_lt hcpu, acquireSourceClaim_of_free hfree]
  rcases claimedDispatch_cases cfg s (Sched.localClaim cpu) cpu cpu k false maxSlice hfree with
    ⟨t, hdispatch, hqueues⟩ | ⟨t, p, hdispatch, hmoved⟩
  · rw [hdispatch]
    exact .inl ⟨_, rfl, hqueues⟩
  · rw [hdispatch]
    exact .inr ⟨_, p, rfl, hmoved⟩

/-- Local attempts under a free claim move nothing, or one task of a class queue of the CPU. -/
theorem dispatchLocal_of_free (attempts : List (WorkloadClass × UInt64)) :
    (∃ t, s.dispatchLocal cfg cpu attempts = (false, false, t) ∧ t.queues = s.queues) ∨
    ∃ t p k, s.dispatchLocal cfg cpu attempts = (true, false, t) ∧ Moved s t p k cpu cpu := by
  induction attempts generalizing s with
  | nil => exact .inl ⟨s, rfl, rfl⟩
  | cons attempt rest ih =>
    rw [Sched.dispatchLocal]
    rcases dispatchLocalClaimed_of_free cfg hcpu hfree attempt.1 attempt.2 with
      ⟨u, hattempt, hqueues⟩ | ⟨u, p, hattempt, hmoved⟩
    · rw [hattempt]
      dsimp only
      rcases ih (by rwa [hqueues]) (by rw [hqueues, hfree]) with ⟨t, hrest, hsame⟩ |
        ⟨t, p, k, hrest, hmoved⟩
      · exact .inl ⟨t, by rw [hrest]; rfl, hsame.trans hqueues⟩
      · exact .inr ⟨t, p, k, by rw [hrest]; rfl, hmoved.of_queues hqueues⟩
    · rw [hattempt]
      exact .inr ⟨u, p, attempt.1, rfl, hmoved⟩

theorem dispatchOwn_of_free (decision : ClassDecision) :
    (∃ t, s.dispatchOwn cfg cpu decision = (false, false, t) ∧ t.queues = s.queues) ∨
    ∃ t p k, s.dispatchOwn cfg cpu decision = (true, false, t) ∧ Moved s t p k cpu cpu := by
  unfold Sched.dispatchOwn
  rcases dispatchLocal_of_free cfg hcpu hfree (Sched.attempts decision fun _ => true) with
    ⟨u, hfirst, hqueues⟩ | ⟨u, p, k, hfirst, hmoved⟩
  · rw [hfirst]
    dsimp only
    have hcpu' : cpu < u.queues.nrCpuIds := by rwa [hqueues]
    have hfree' : u.queues.claim cpu = 0 := by rw [hqueues, hfree]
    rcases dispatchLocal_of_free cfg hcpu' hfree' (Sched.attempts decision (u.localAvailable cpu))
      with ⟨t, hagain, hsame⟩ | ⟨t, p, k, hagain, hmoved⟩
    · exact .inl ⟨t, by rw [hagain]; rfl, hsame.trans hqueues⟩
    · exact .inr ⟨t, p, k, by rw [hagain]; rfl, hmoved.of_queues hqueues⟩
  · rw [hfirst]
    exact .inr ⟨u, p, k, rfl, hmoved⟩

variable (haccepts : ∀ p dsq, s.queues.accepts p dsq = true) (hoffers : s.queues.Offers cpu k)
include haccepts hoffers

theorem dispatchLocalClaimed_of_offers (maxSlice : UInt64) :
    (s.dispatchLocalClaimed cfg cpu k maxSlice).1 = true := by
  obtain ⟨p, hqueued, hmovable⟩ := hoffers
  simp only [Sched.dispatchLocalClaimed, lookupCpuCtx_of_lt hcpu, acquireSourceClaim_of_free hfree]
  refine dispatchFromCpu_of_movable (p := p) ?_ ?_ ?_ ?_ maxSlice
  · exact hcpu
  · exact haccepts
  · exact hqueued
  · rw [queues_claimed]
    exact hmovable

/-- If the claim is free, an attempt at a class that has a task to move succeeds, unless an earlier
one did. -/
theorem dispatchLocal_of_offers {attempts : List (WorkloadClass × UInt64)}
    (hmem : k ∈ attempts.map Prod.fst) : (s.dispatchLocal cfg cpu attempts).1 = true := by
  induction attempts generalizing s with
  | nil => simp at hmem
  | cons attempt rest ih =>
    rw [Sched.dispatchLocal]
    rcases dispatchLocalClaimed_of_free cfg hcpu hfree attempt.1 attempt.2 with
      ⟨u, hattempt, hqueues⟩ | ⟨u, p, hattempt, hmoved⟩
    · rw [hattempt]
      rcases mem_cons.mp hmem with rfl | hrest
      · have hmoves := dispatchLocalClaimed_of_offers cfg hcpu hfree haccepts hoffers attempt.2
        rw [hattempt] at hmoves
        cases hmoves
      · exact ih (by rwa [hqueues]) (by rw [hqueues, hfree]) (by rwa [hqueues]) (by rwa [hqueues]) hrest
    · rw [hattempt]

theorem dispatchOwn_of_offers (hserved : decision.winner = some k ∨ decision.fallback = some k) :
    (s.dispatchOwn cfg cpu decision).1 = true := by
  have hfirst : (s.dispatchLocal cfg cpu (Sched.attempts decision fun _ => true)).1 = true := by
    refine dispatchLocal_of_offers cfg hcpu hfree haccepts hoffers ?_
    rcases hserved with hwinner | hfallback
    · simp [Sched.attempts, hwinner]
    · simp [Sched.attempts, hfallback]
  unfold Sched.dispatchOwn
  generalize s.dispatchLocal cfg cpu (Sched.attempts decision fun _ => true) = result at hfirst ⊢
  obtain ⟨moved, busy, t⟩ := result
  obtain rfl : moved = true := hfirst
  rfl

end Free

end Local

section Stealing

variable {cfg : Config} {s : Sched T} {cpu dstCpu : Cpu} {k : WorkloadClass}

/-- The decision serves every class that is available. -/
theorem decideClass_serves (cfg : Config) (cpuc : CpuCtx) (now : UInt64)
    (candidates : ClassCandidates) (havailable : candidates.available k = true) :
    (decideClass cfg cpuc now candidates).winner ≠ none ∧
      ((decideClass cfg cpuc now candidates).winner = some k ∨
        (decideClass cfg cpuc now candidates).fallback = some k) := by
  unfold decideClass
  cases k with
  | latency =>
    cases candidates.available .batch with
    | false => simp [havailable]
    | true =>
      simp only [havailable, Bool.not_true, Bool.and_self, Bool.false_eq_true, if_false]
      split_ifs
      · exact ⟨nofun, .inr rfl⟩
      · cases classWinner cfg _ _
        · exact ⟨nofun, .inl rfl⟩
        · exact ⟨nofun, .inr rfl⟩
  | batch =>
    cases candidates.available .latency with
    | false => simp [havailable]
    | true =>
      simp only [havailable, Bool.not_true, Bool.and_self, Bool.false_eq_true, if_false]
      split_ifs
      · exact ⟨nofun, .inl rfl⟩
      · cases classWinner cfg _ _
        · exact ⟨nofun, .inr rfl⟩
        · exact ⟨nofun, .inl rfl⟩

/-! ## Stealing -/

theorem gatedSteal_cases (cfg : Config) (s : Sched T) (dstCpu : Cpu) (k : WorkloadClass) :
    (∃ t, s.gatedSteal cfg dstCpu k = (false, t) ∧ t.queues = s.queues) ∨
    ∃ t p srcCpu, s.gatedSteal cfg dstCpu k = (true, t) ∧ Moved s t p k srcCpu dstCpu := by
  unfold Sched.gatedSteal
  split_ifs
  · exact .inl ⟨s, rfl, rfl⟩
  · exact .inl ⟨s, rfl, rfl⟩
  · dsimp only
    have hcursor : ({ s with stealCursor := s.stealCursor + 1 } : Sched T).queues = s.queues := rfl
    generalize ({ s with stealCursor := s.stealCursor + 1 } : Sched T) = u at hcursor
    split
    · exact .inl ⟨u, rfl, hcursor⟩
    · rename_i bestCpu _ _ _
      by_cases hfree : u.queues.claim bestCpu = 0
      · rw [acquireSourceClaim_of_free hfree]
        dsimp only
        split_ifs
        · refine .inl ⟨_, rfl, ?_⟩
          rw [queues_released hfree (by rw [queues_claimed]), queues_claimed, hcursor]
        · rcases claimedDispatch_cases cfg u (Sched.stealClaimOf dstCpu) dstCpu bestCpu k true u64Max
            hfree with ⟨t, hdispatch, hqueues⟩ | ⟨t, p, hdispatch, hmoved⟩
          · rw [hdispatch]
            exact .inl ⟨_, rfl, hqueues.trans hcursor⟩
          · rw [hdispatch]
            exact .inr ⟨_, p, bestCpu, rfl, hmoved.of_queues hcursor⟩
      · rw [acquireSourceClaim_of_held hfree]
        exact .inl ⟨u, rfl, hcursor⟩

theorem queues_pickRemoteClass : (s.pickRemoteClass cfg cpu).2.2.queues = s.queues := by
  simp only [Sched.pickRemoteClass]
  split_ifs <;> split <;> simp

end Stealing

/-! ## How a dispatch ends -/

inductive DispatchExit where
  /-- The previous task was granted a continuation. -/
  | continued
  /-- A task of a class queue of the CPU was moved. -/
  | moved
  | kicked
  | stolen
  | idle
  deriving DecidableEq, Repr

namespace Sched

variable (cfg : Config)

/-- `stealAny` with the way it ends. -/
def stealExit (s : Sched T) (cpu : Cpu) : List WorkloadClass → DispatchExit × Sched T
  | [] => (.idle, s)
  | k :: rest =>
    match s.gatedSteal cfg cpu k with
    | (true, s) => (.stolen, s)
    | (false, s) => s.stealExit cpu rest

/-- `dispatchRest` with the way it ends. -/
def restExit (s : Sched T) (cpu : Cpu) (prev : Option T) (current : Option WorkloadClass)
    (claimBusy : Bool) : DispatchExit × Sched T :=
  let (kept, s) := if current.isSome then s.tryKeepRunning cfg cpu prev true else (false, s)
  if kept then (.continued, s)
  else if s.localAvailable cpu .latency || s.localAvailable cpu .batch then
    if claimBusy then (.kicked, s.kickCpu cpu) else (.idle, s)
  else
    let (first, second, s) := s.pickRemoteClass cfg cpu
    s.stealExit cfg cpu (first.toList ++ second.toList)

/-- `dispatch` with the way it ends. -/
def dispatchExit (s : Sched T) (cpu : Cpu) (prev : Option T) : DispatchExit × Sched T :=
  match s.lookupCpuCtx cpu with
  | none => (.idle, s)
  | some cpuc =>
    let current := s.currentClass cpu prev
    let available := fun k => s.localAvailable cpu k || current = some k
    let decision := decideClass cfg cpuc s.kernel.ktimeGetNs ⟨available, current⟩
    match decision.winner with
    | none => s.restExit cfg cpu prev current false
    | some winner =>
      let (kept, s) := if current = some winner then s.tryKeepRunning cfg cpu prev false
        else (false, s)
      if kept then (.continued, s)
      else
        match s.dispatchOwn cfg cpu decision with
        | (true, _, s) => (.moved, s)
        | (false, busy, s) => s.restExit cfg cpu prev current busy

end Sched

variable {k : WorkloadClass}

section Exits

variable {cfg : Config} {s : Sched T} {cpu : Cpu} {prev : Option T}

theorem stealExit_state (s : Sched T) (classes : List WorkloadClass) :
    (s.stealExit cfg cpu classes).2 = s.stealAny cfg cpu classes := by
  induction classes generalizing s with
  | nil => rfl
  | cons k rest ih =>
    rw [Sched.stealExit, Sched.stealAny]
    rcases s.gatedSteal cfg cpu k with ⟨_ | _, t⟩
    · exact ih t
    · rfl

theorem restExit_state (s : Sched T) (current : Option WorkloadClass) (claimBusy : Bool) :
    (s.restExit cfg cpu prev current claimBusy).2 = s.dispatchRest cfg cpu prev current claimBusy := by
  simp only [Sched.restExit, Sched.dispatchRest, ← stealExit_state]
  split_ifs <;> rfl

theorem dispatchExit_state (cfg : Config) (s : Sched T) (cpu : Cpu) (prev : Option T) :
    (s.dispatchExit cfg cpu prev).2 = s.dispatch cfg cpu prev := by
  unfold Sched.dispatchExit Sched.dispatch
  cases s.lookupCpuCtx cpu with
  | none => rfl
  | some cpuc =>
    dsimp only
    generalize decideClass cfg cpuc _ _ = decision
    cases decision.winner with
    | none => exact restExit_state _ _ _
    | some winner =>
      dsimp only
      generalize (if s.currentClass cpu prev = some winner then s.tryKeepRunning cfg cpu prev false
        else (false, s)) = keep
      obtain ⟨_ | _, u⟩ := keep
      · dsimp only
        rcases u.dispatchOwn cfg cpu decision with ⟨_ | _, busy, t⟩
        · exact restExit_state _ _ _
        · rfl
      · rfl

theorem stealExit_cases (cfg : Config) (s : Sched T) (cpu : Cpu) (classes : List WorkloadClass) :
    (∃ t, s.stealExit cfg cpu classes = (.idle, t) ∧ t.queues = s.queues) ∨
    ∃ t p k srcCpu, s.stealExit cfg cpu classes = (.stolen, t) ∧ Moved s t p k srcCpu cpu := by
  induction classes generalizing s with
  | nil => exact .inl ⟨s, rfl, rfl⟩
  | cons k rest ih =>
    rw [Sched.stealExit]
    rcases gatedSteal_cases cfg s cpu k with ⟨u, hsteal, hqueues⟩ | ⟨u, p, srcCpu, hsteal, hmoved⟩
    · rw [hsteal]
      rcases ih u with ⟨t, hrest, hsame⟩ | ⟨t, p, k', srcCpu, hrest, hmoved⟩
      · exact .inl ⟨t, hrest, hsame.trans hqueues⟩
      · exact .inr ⟨t, p, k', srcCpu, hrest, hmoved.of_queues hqueues⟩
    · rw [hsteal]
      exact .inr ⟨u, p, k, srcCpu, rfl, hmoved⟩

/-- What a dispatch has done to the queues, by the way it ended. -/
inductive Ended (s : Sched T) (cpu : Cpu) (busy : Bool) : DispatchExit → Sched T → Prop
  | continued {t : Sched T} (hqueues : t.queues = s.queues) : Ended s cpu busy .continued t
  | moved {t : Sched T} {p : T} {k : WorkloadClass} (hidle : busy = false)
      (hmoved : Moved s t p k cpu cpu) : Ended s cpu busy .moved t
  | kicked {t : Sched T} {kicks : List Cpu} (hbusy : busy = true) (hqueues : t.queues = s.queues)
      (hkicks : t.kicks = kicks ++ [cpu]) : Ended s cpu busy .kicked t
  | idle {t : Sched T} (hqueues : t.queues = s.queues)
      (hempty : busy = true → ∀ k, s.queues.dsq (.classDsq k cpu) = []) : Ended s cpu busy .idle t
  | stolen {t : Sched T} {p : T} {k : WorkloadClass} {srcCpu : Cpu}
      (hempty : ∀ k, s.queues.dsq (.classDsq k cpu) = []) (hmoved : Moved s t p k srcCpu cpu) :
      Ended s cpu busy .stolen t

/-- An end judged from an earlier state with the same queues. -/
theorem Ended.of_queues {s' t : Sched T} {busy : Bool} {exit : DispatchExit}
    (h : Ended s' cpu busy exit t) (hs : s'.queues = s.queues) : Ended s cpu busy exit t := by
  cases h with
  | continued hqueues => exact .continued (hqueues.trans hs)
  | moved hidle hmoved => exact .moved hidle (hmoved.of_queues hs)
  | kicked hbusy hqueues hkicks => exact .kicked hbusy (hqueues.trans hs) hkicks
  | idle hqueues hempty => exact .idle (hqueues.trans hs) (hs ▸ hempty)
  | stolen hempty hmoved => exact .stolen (hs ▸ hempty) (hmoved.of_queues hs)

theorem localAvailable_iff :
    s.localAvailable cpu k = true ↔ s.queues.dsq (.classDsq k cpu) ≠ [] := by
  simp [Sched.localAvailable, Sched.dsqNrQueued, Sched.queues, length_pos_iff]

theorem restExit_ended (cfg : Config) (s : Sched T) (cpu : Cpu) (prev : Option T)
    (current : Option WorkloadClass) (busy : Bool) :
    Ended s cpu busy (s.restExit cfg cpu prev current busy).1
      (s.restExit cfg cpu prev current busy).2 := by
  unfold Sched.restExit
  have hkeep := queues_keep cfg s cpu prev true current.isSome
  generalize (if current.isSome then s.tryKeepRunning cfg cpu prev true else (false, s)) = keep
    at hkeep ⊢
  obtain ⟨kept, u⟩ := keep
  dsimp only at hkeep ⊢
  by_cases hkept : kept = true
  · rw [if_pos hkept]
    exact .continued hkeep
  rw [if_neg hkept]
  by_cases havailable : (u.localAvailable cpu .latency || u.localAvailable cpu .batch) = true
  · rw [if_pos havailable]
    cases busy with
    | true => exact .kicked rfl hkeep rfl
    | false => exact .idle hkeep nofun
  · rw [if_neg havailable]
    have hempty (k : WorkloadClass) : s.queues.dsq (.classDsq k cpu) = [] := by
      rw [Bool.or_eq_true, not_or, localAvailable_iff, localAvailable_iff, not_not, not_not,
        hkeep] at havailable
      cases k with
      | latency => exact havailable.1
      | batch => exact havailable.2
    have hpick : (u.pickRemoteClass cfg cpu).2.2.queues = u.queues := queues_pickRemoteClass
    generalize u.pickRemoteClass cfg cpu = pick at hpick ⊢
    obtain ⟨first, second, v⟩ := pick
    dsimp only at hpick ⊢
    rcases stealExit_cases cfg v cpu (first.toList ++ second.toList) with
      ⟨t, hsteal, hqueues⟩ | ⟨t, p, k, srcCpu, hsteal, hmoved⟩
    · rw [hsteal]
      exact .idle (hqueues.trans (hpick.trans hkeep)) fun _ => hempty
    · rw [hsteal]
      exact .stolen hempty (hmoved.of_queues (hpick.trans hkeep))

/-- After its decision, which serves every class whose queue is not empty, a dispatch has nothing to
serve, keeps the previous task, or turns to the queues of its CPU. -/
theorem dispatchExit_opening (cfg : Config) (prev : Option T) (hcpu : cpu < s.queues.nrCpuIds) :
    ∃ decision : ClassDecision,
      (∀ k, s.queues.dsq (.classDsq k cpu) ≠ [] → decision.winner ≠ none ∧
        (decision.winner = some k ∨ decision.fallback = some k)) ∧
      (decision.winner = none ∧
          s.dispatchExit cfg cpu prev = s.restExit cfg cpu prev (s.currentClass cpu prev) false ∨
        ∃ u, u.queues = s.queues ∧ (s.dispatchExit cfg cpu prev = (.continued, u) ∨
          ∃ winner, decision.winner = some winner ∧
            s.dispatchExit cfg cpu prev = match u.dispatchOwn cfg cpu decision with
              | (true, _, t) => (.moved, t)
              | (false, busy, t) => t.restExit cfg cpu prev (s.currentClass cpu prev) busy)) := by
  have havailable (k : WorkloadClass) (hqueue : s.queues.dsq (.classDsq k cpu) ≠ []) :
      (s.localAvailable cpu k || s.currentClass cpu prev = some k) = true := by
    rw [localAvailable_iff.mpr hqueue, Bool.true_or]
  have hserves := fun k hqueue => decideClass_serves cfg (s.cpus cpu) s.kernel.ktimeGetNs
    ⟨fun k => s.localAvailable cpu k || s.currentClass cpu prev = some k, s.currentClass cpu prev⟩
    (havailable k hqueue)
  simp only [Sched.dispatchExit, lookupCpuCtx_of_lt hcpu]
  generalize decideClass cfg (s.cpus cpu) _ _ = decision at hserves ⊢
  refine ⟨decision, hserves, ?_⟩
  cases decision.winner with
  | none => exact .inl ⟨rfl, rfl⟩
  | some winner =>
    have hkeep := queues_keep cfg s cpu prev false (s.currentClass cpu prev = some winner)
    dsimp only
    generalize (if s.currentClass cpu prev = some winner then s.tryKeepRunning cfg cpu prev false
      else (false, s)) = keep at hkeep ⊢
    obtain ⟨_ | _, u⟩ := keep
    · exact .inr ⟨u, hkeep, .inr ⟨winner, rfl, rfl⟩⟩
    · exact .inr ⟨u, hkeep, .inl rfl⟩

/-- The claim decides whether attempts were busy, if there were any. -/
theorem dispatchExit_ended (cfg : Config) (s : Sched T) (cpu : Cpu) (prev : Option T)
    (hcpu : cpu < s.queues.nrCpuIds) :
    ∃ busy, (busy = true → s.queues.claim cpu ≠ 0) ∧
      Ended s cpu busy (s.dispatchExit cfg cpu prev).1 (s.dispatchExit cfg cpu prev).2 := by
  obtain ⟨decision, -, ⟨-, hexit⟩ | ⟨u, hkeep, hexit | ⟨winner, hwinner, hexit⟩⟩⟩ :=
    dispatchExit_opening cfg prev hcpu
  · rw [hexit]
    exact ⟨false, nofun, restExit_ended cfg s cpu prev _ false⟩
  · rw [hexit]
    exact ⟨false, nofun, .continued hkeep⟩
  · have hcpu' : cpu < u.queues.nrCpuIds := by rwa [hkeep]
    by_cases hfree : u.queues.claim cpu = 0
    · refine ⟨false, nofun, ?_⟩
      rcases dispatchOwn_of_free cfg hcpu' hfree decision with ⟨t, hown, hqueues⟩ |
        ⟨t, p, k, hown, hmoved⟩
      · rw [hexit, hown]
        exact (restExit_ended cfg t cpu prev _ false).of_queues (hqueues.trans hkeep)
      · rw [hexit, hown]
        exact .moved rfl (hmoved.of_queues hkeep)
    · refine ⟨true, fun _ => by rwa [← hkeep], ?_⟩
      rw [hexit, dispatchOwn_of_held hcpu' hfree hwinner]
      exact (restExit_ended cfg u cpu prev _ true).of_queues hkeep

/-- A task that can be moved is not left behind if the claim is free. -/
theorem dispatchExit_of_offers (cfg : Config) (prev : Option T) (hcpu : cpu < s.queues.nrCpuIds)
    (hfree : s.queues.claim cpu = 0) (haccepts : ∀ p dsq, s.queues.accepts p dsq = true)
    (hoffers : s.queues.Offers cpu k) :
    (s.dispatchExit cfg cpu prev).1 = .continued ∨ (s.dispatchExit cfg cpu prev).1 = .moved := by
  obtain ⟨p, hqueued, -⟩ := id hoffers
  obtain ⟨decision, hserves, hcases⟩ := dispatchExit_opening cfg prev hcpu
  obtain ⟨hserved, hserves⟩ := hserves k (ne_nil_of_mem hqueued)
  rcases hcases with ⟨hnone, -⟩ | ⟨u, hqueues, hexit | ⟨winner, hwinner, hexit⟩⟩
  · exact absurd hnone hserved
  · exact .inl (congrArg Prod.fst hexit)
  · have hmoves : (u.dispatchOwn cfg cpu decision).1 = true :=
      dispatchOwn_of_offers cfg (by rwa [hqueues]) (by rw [hqueues, hfree]) (by rwa [hqueues])
        (by rwa [hqueues]) hserves
    rw [hexit]
    generalize u.dispatchOwn cfg cpu decision = result at hmoves ⊢
    obtain ⟨moved, busy, t⟩ := result
    obtain rfl : moved = true := hmoves
    exact .inr rfl

/-- With the claim held and work in a queue, the CPU goes on with the previous task or is kicked. -/
theorem dispatchExit_of_held (cfg : Config) (prev : Option T) (hcpu : cpu < s.queues.nrCpuIds)
    (hheld : s.queues.claim cpu ≠ 0) (hqueue : s.queues.dsq (.classDsq k cpu) ≠ []) :
    (s.dispatchExit cfg cpu prev).1 = .continued ∨ (s.dispatchExit cfg cpu prev).1 = .kicked := by
  obtain ⟨decision, hserves, hcases⟩ := dispatchExit_opening cfg prev hcpu
  rcases hcases with ⟨hnone, -⟩ | ⟨u, hqueues, hexit | ⟨winner, hwinner, hexit⟩⟩
  · exact absurd hnone (hserves k hqueue).1
  · exact .inl (congrArg Prod.fst hexit)
  · rw [hexit, dispatchOwn_of_held (by rwa [hqueues]) (by rwa [hqueues]) hwinner]
    dsimp only
    have hended := restExit_ended cfg u cpu prev (s.currentClass cpu prev) true
    generalize u.restExit cfg cpu prev (s.currentClass cpu prev) true = result at hended ⊢
    obtain ⟨exit, t⟩ := result
    rw [← hqueues] at hqueue
    cases hended with
    | continued => exact .inl rfl
    | moved hidle => cases hidle
    | kicked => exact .inr rfl
    | idle _ hempty => exact absurd (hempty rfl k) hqueue
    | stolen hempty => exact absurd (hempty k) hqueue

end Exits

/-! ## Work conservation -/

section Conservation

namespace Sched

/-- The records file a task in the class queue it is in, and no other task. -/
def RecordsAgree (s : Sched T) : Prop :=
  ∀ k cpu p, p ∈ s.kernel.dsq (.classDsq k cpu) ↔
    (s.tasks p).map TaskCtx.filing = some (k, some cpu, .enqueued)

/-- A class queue of the CPU holds a task that may run there. -/
def AllowedQueued (s : Sched T) (cpu : Cpu) : Prop :=
  ∃ k, ∃ p ∈ s.kernel.dsq (.classDsq k cpu), (s.kernel.task p).cpusPtr cpu = true

/-- Such a task that `bpf_task_from_pid` finds. A task that exits is queued like any other, but it
has no entry in the pid table any more once it is released. -/
def FoundQueued (s : Sched T) (cpu : Cpu) : Prop :=
  ∃ k, ∃ p ∈ s.kernel.dsq (.classDsq k cpu),
    (s.kernel.task p).cpusPtr cpu = true ∧ s.kernel.taskFromPid p = true

/-- Another CPU holds the source claim of this one. -/
def HeldElsewhere (s : Sched T) (cpu : Cpu) : Prop :=
  (s.cpus cpu).stealClaim ≠ 0 ∧ (s.cpus cpu).stealClaim ≠ localClaim cpu

end Sched

variable (cfg : Config) (s : Sched T) (cpu : Cpu) (prev : Option T)

/-- The dispatch has left the CPU with something to do. -/
inductive Conserves : Prop
  | moved {p : T} {k : WorkloadClass} (hexit : (s.dispatchExit cfg cpu prev).1 = .moved)
      (hmoved : Moved s (s.dispatch cfg cpu prev) p k cpu cpu)
  | continued (hexit : (s.dispatchExit cfg cpu prev).1 = .continued)
      (hdsq : (s.dispatch cfg cpu prev).kernel.dsq = s.kernel.dsq)
  | kicked {kicks : List Cpu} (hexit : (s.dispatchExit cfg cpu prev).1 = .kicked)
      (hheld : s.HeldElsewhere cpu) (hdsq : (s.dispatch cfg cpu prev).kernel.dsq = s.kernel.dsq)
      (hkicks : (s.dispatch cfg cpu prev).kicks = kicks ++ [cpu])

variable {cfg s cpu prev}

/-- The end of a dispatch, with the state it leaves. -/
theorem dispatch_ended (cfg : Config) (prev : Option T) (hcpu : cpu < s.nrCpuIds) :
    ∃ busy, (busy = true → (s.cpus cpu).stealClaim ≠ 0) ∧
      Ended s cpu busy (s.dispatchExit cfg cpu prev).1 (s.dispatch cfg cpu prev) := by
  rw [← dispatchExit_state]
  exact dispatchExit_ended cfg s cpu prev hcpu

theorem conserves_of_exit (hcpu : cpu < s.nrCpuIds)
    (hexit : (s.dispatchExit cfg cpu prev).1 = .continued ∨
      (s.dispatchExit cfg cpu prev).1 = .moved ∨
      (s.dispatchExit cfg cpu prev).1 = .kicked ∧ s.HeldElsewhere cpu) :
    Conserves cfg s cpu prev := by
  obtain ⟨busy, -, hended⟩ := dispatch_ended cfg prev hcpu
  rcases hexit with hexit | hexit | ⟨hexit, hheld⟩
  · rw [hexit] at hended
    cases hended with
    | continued hqueues => exact .continued hexit (congrArg Queues.dsq hqueues)
  · rw [hexit] at hended
    cases hended with
    | moved _ hmoved => exact .moved hexit hmoved
  · rw [hexit] at hended
    cases hended with
    | kicked _ hqueues hkicks =>
      exact .kicked hexit hheld (congrArg Queues.dsq hqueues) hkicks

/-- A dispatch moves at most one task, and only to its own CPU. -/
theorem dispatch_moves_at_most_one (cfg : Config) (s : Sched T) (cpu : Cpu) (prev : Option T) :
    (s.dispatch cfg cpu prev).kernel.dsq = s.kernel.dsq ∨
      ∃ p k srcCpu, Moved s (s.dispatch cfg cpu prev) p k srcCpu cpu := by
  by_cases hcpu : cpu < s.nrCpuIds
  · obtain ⟨busy, -, hended⟩ := dispatch_ended cfg prev hcpu
    generalize (s.dispatchExit cfg cpu prev).1 = exit at hended
    cases hended with
    | continued hqueues => exact .inl (congrArg Queues.dsq hqueues)
    | moved _ hmoved => exact .inr ⟨_, _, _, hmoved⟩
    | kicked _ hqueues _ => exact .inl (congrArg Queues.dsq hqueues)
    | idle hqueues _ => exact .inl (congrArg Queues.dsq hqueues)
    | stolen _ hmoved => exact .inr ⟨_, _, _, hmoved⟩
  · have hlookup : s.lookupCpuCtx cpu = none := if_neg hcpu
    exact .inl (by simp [Sched.dispatch, hlookup])

theorem Sched.RecordsAgree.offers (hagree : s.RecordsAgree) {p : T}
    (hqueued : p ∈ s.kernel.dsq (.classDsq k cpu)) (hallowed : (s.kernel.task p).cpusPtr cpu = true)
    (hfound : s.kernel.taskFromPid p = true) : s.queues.Offers cpu k :=
  ⟨p, hqueued, Queues.movable_iff.mpr ⟨⟨hfound, hallowed⟩, (hagree k cpu p).mp hqueued⟩⟩

end Conservation

section ExitingTask

/-- One CPU of two has a batch task in its queue and nothing else to do; `found` says whether the task
is still in the pid table. -/
def oneQueued (found : Bool) : Sched ℕ :=
  { quietHost.sched with
    kernel := { quietKernel with
      dsq := fun dsq => if dsq = .classDsq .batch 0 then [7] else []
      taskFromPid := fun _ => found }
    tasks := fun p => if p = 7 then
        some { resetTaskState .initial with
          classId := .batch, queuedCpu := some 0, state := .enqueued }
      else none
    cpus := fun _ => (quietHost.sched.cpus 0).updateEntity .batch fun entity =>
      { entity with nrQueued := 1 }
    classes := fun k => { vruntime := 0, nrQueued := if k = .batch then 1 else 0, nrRunning := 0 } }

theorem oneQueued_agrees (found : Bool) : (oneQueued found).RecordsAgree := by
  intro k cpu p
  have hfiling : ((oneQueued found).tasks p).map TaskCtx.filing =
      if p = 7 then some (.batch, some 0, .enqueued) else none := by
    by_cases hp : p = 7
    · subst hp
      rfl
    · simp [oneQueued, hp]
  rw [hfiling]
  by_cases hp : p = 7 <;> by_cases hdsq : k = .batch ∧ cpu = 0
  · simp [oneQueued, hp, hdsq]
  · have hother : ¬ (WorkloadClass.batch = k ∧ 0 = cpu) := fun h => hdsq ⟨h.1.symm, h.2.symm⟩
    simpa [oneQueued, hp, hdsq] using hother
  · simp [oneQueued, hp, hdsq]
  · simp [oneQueued, hp, hdsq]

end ExitingTask

end ScxAgent.Scheduler
