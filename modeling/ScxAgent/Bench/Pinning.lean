import ScxAgent.Bench.PairRuns

/-!
# Configured pinning

One machine with `pin_cpus: auto` makes `_run_pairs` take a pool, and every pair is then placed on
what the pool gives it, the CPUs that its machine configures or not.
-/

namespace ScxAgent.Bench

def placeSpec (spec : RunSpec) : Option Allocation → RunSpec
  | none => spec
  | some allocation =>
    { spec with machine := { spec.machine with pinCpus := some allocation.pinCpus } }

/-- The spec that `_run_pair` runs. -/
def Running.placed (running : Running) : RunSpec := placeSpec running.pair.spec running.allocation

namespace Runner

variable {s t : Runner} {event : Event} {popped : Popped}

/-- The running pairs have an allocation if and only if there is a pool. -/
def PlacedByPool (pooled : Bool) (s : Runner) : Prop :=
  s.pool.isSome = pooled ∧ ∀ running ∈ s.active, running.allocation.isSome = pooled

variable {pooled : Bool} (h : PlacedByPool pooled s)
include h

theorem PlacedByPool.goto (point : Point) :
    PlacedByPool pooled (s.goto point) := h

theorem PlacedByPool.submit (hpool : popped.pool.isSome = pooled)
    (hallocation : popped.allocation.isSome = pooled) : PlacedByPool pooled (s.submit popped) := by
  refine ⟨hpool, fun running hmem => ?_⟩
  rcases List.mem_append.mp hmem with hmem | hmem
  · exact h.2 running hmem
  · rw [List.mem_singleton.mp hmem]
    exact hallocation

theorem PlacedByPool.afterResult (running : Running) (error : Option RunError) (next : Point) :
    PlacedByPool pooled (s.afterResult running error next) := by
  have hsettled : PlacedByPool pooled (s.settle running) := by
    refine ⟨Eq.trans ?_ h.1, fun other hmem => h.2 other (List.mem_of_mem_filter hmem)⟩
    simp only [settle]
    split <;> simp_all
  cases error with
  | none => exact hsettled
  | some error => exact hsettled

theorem PlacedByPool.launch (launched : Bool) : PlacedByPool pooled (s.launch launched) := by
  unfold Runner.launch
  split
  · split
    · exact h
    · exact h
    · rename_i popped hpop
      have hpooled := h.1
      cases hpool : s.pool with
      | none =>
        rw [hpool] at hpop hpooled
        cases hpending : s.pending with
        | nil => simp [popAllocatablePair, hpending] at hpop
        | cons pair rest =>
          rw [hpending] at hpop
          cases hpop
          exact (h.submit hpooled hpooled).goto _
      | some pool =>
        rw [hpool] at hpop hpooled
        obtain ⟨_, _, allocation, pool', _, _, hallocation, hafter, _⟩ := popFrom_some hpop
        apply PlacedByPool.goto
        exact h.submit (by rw [hafter]; exact hpooled) (by rw [hallocation]; exact hpooled)
  · exact h

theorem PlacedByPool.startSerial (pair : ComparisonPair) (rest : List ComparisonPair) :
    PlacedByPool pooled (s.startSerial pair rest) := by
  have hpooled := h.1
  unfold Runner.startSerial
  split
  · exact h
  · rename_i hgranted
    cases hpool : s.pool with
    | none => simp [allocatePair, hpool] at hgranted
    | some pool =>
      rw [hpool] at hpooled
      apply PlacedByPool.goto
      exact h.submit hpooled hpooled
  · split
    · exact h
    · rename_i hpool
      rw [Bool.not_eq_true] at hpool
      apply PlacedByPool.goto
      exact h.submit (hpool.symm.trans hpooled) (hpool.symm.trans hpooled)

theorem PlacedByPool.step (hstep : s.step event = some t) : PlacedByPool pooled t := by
  cases event with
  | proceed =>
    simp only [Runner.step] at hstep
    split at hstep
    · split at hstep <;> cases hstep
      · exact h
      · exact h.startSerial _ _
    · split at hstep <;> cases hstep <;> exact h
    · cases hstep
      exact h.launch _
    · cases hstep
      unfold afterLaunching
      split
      · split <;> exact h
      · split <;> exact h
    · cases hstep
      exact h
    · cases hstep
  | completed done =>
    simp only [Runner.step] at hstep
    split at hstep
    · split at hstep <;> cases hstep
      exact h
    · cases hstep
  | result error =>
    simp only [Runner.step] at hstep
    split at hstep
    case h_3 => cases hstep
    all_goals
      obtain ⟨running, _, rfl⟩ := Option.map_eq_some_iff.mp hstep
      exact h.afterResult running error _

theorem PlacedByPool.run {events : List Event} (hrun : s.run events = some t) :
    PlacedByPool pooled t := by
  induction events generalizing s with
  | nil =>
    cases hrun
    exact h
  | cons event events ih =>
    obtain ⟨u, hstep, hrest⟩ := Option.bind_eq_some_iff.mp hrun
    exact ih (h.step hstep) hrest

end Runner

theorem runPairs_placedByPool (pairs : List ComparisonPair) (host : HostPool) (parallel : Parallel) :
    (runPairs pairs host parallel).PlacedByPool (autoPinning pairs) := by
  refine ⟨(runPairs_setting host pairs parallel).2, fun running hmem => ?_⟩
  have hidle : (runPairs pairs host parallel).active = [] := by
    unfold runPairs runPairsParallel
    dsimp only
    split_ifs <;> rfl
  rw [hidle] at hmem
  cases hmem

def pinnedPair (index : ℕ) : ComparisonPair := ⟨index, "pinned", 2, "2G", some "1,3"⟩

end ScxAgent.Bench
