import ScxAgent.Bench.HostPool

/-!
# Runs of the pair runner

What one allocation and one release do to the pool, and what every run of the runner preserves:
the free groups and those of the running pairs together are the groups of the host, whatever the
order in which the pairs finish.
-/

namespace ScxAgent.Bench

open List

/-! ## Allocation -/

@[simp] theorem cpusOf_nil : cpusOf [] = [] := rfl

@[simp] theorem cpusOf_cons (group : CoreGroup) (groups : List CoreGroup) :
    cpusOf (group :: groups) = group.siblings ++ cpusOf groups := rfl

@[simp] theorem cpusOf_append (groups groups' : List CoreGroup) :
    cpusOf (groups ++ groups') = cpusOf groups ++ cpusOf groups' := by
  simp [cpusOf]

/-- The groups taken are a prefix, and the loop stops only with enough CPUs or at the end. -/
theorem selectGroups_spec (vcpus : ℤ) (groups : List CoreGroup) (count : ℕ) :
    ∃ rest, groups = (selectGroups vcpus count groups).1 ++ rest ∧
      (selectGroups vcpus count groups).2 =
        count + (cpusOf (selectGroups vcpus count groups).1).length ∧
      (rest = [] ∨ vcpus ≤ (selectGroups vcpus count groups).2) := by
  induction groups generalizing count with
  | nil => exact ⟨[], rfl, rfl, .inl rfl⟩
  | cons group groups ih =>
    by_cases henough : vcpus ≤ ((count + group.siblings.length : ℕ) : ℤ)
    · refine ⟨groups, ?_⟩
      simp only [selectGroups, if_pos henough, cpusOf_cons, cpusOf_nil, append_nil]
      exact ⟨rfl, trivial, .inr henough⟩
    · obtain ⟨rest, hprefix, htotal, hstop⟩ := ih (count + group.siblings.length)
      refine ⟨rest, ?_⟩
      simp only [selectGroups, if_neg henough, cons_append, ← hprefix, cpusOf_cons,
        length_append, true_and]
      exact ⟨by omega, hstop⟩

/-- Every outcome of `allocate`. -/
inductive HostPool.Allocates (pool : HostPool) (spec : RunSpec) :
    Except RunError (Option (Allocation × HostPool)) → Prop
  | unreadable {error : RunError} : parseMemoryBytes spec.machine.memory = .error error →
      pool.Allocates spec (.error error)
  | refused {bytes : ℕ} : parseMemoryBytes spec.machine.memory = .ok bytes →
      pool.memoryFree < bytes ∨ (cpusOf pool.freeCores).length < spec.machine.vcpus →
      pool.Allocates spec (.ok none)
  | overshot {bytes : ℕ} {selected rest : List CoreGroup} {error : RunError} :
      parseMemoryBytes spec.machine.memory = .ok bytes → bytes ≤ pool.memoryFree →
      pool.freeCores = selected ++ rest →
      selected = (selectGroups spec.machine.vcpus 0 pool.freeCores).1 →
      spec.machine.vcpus < (cpusOf selected).length →
      pool.Allocates spec (.error error)
  | granted {bytes : ℕ} {selected rest : List CoreGroup} {allocation : Allocation} :
      parseMemoryBytes spec.machine.memory = .ok bytes → bytes ≤ pool.memoryFree →
      pool.freeCores = selected ++ rest →
      selected = (selectGroups spec.machine.vcpus 0 pool.freeCores).1 →
      ((cpusOf selected).length : ℤ) = spec.machine.vcpus →
      allocation.memoryBytes = bytes → allocation.placement.physicalCores = selected →
      pool.Allocates spec (.ok (some (allocation,
        { pool with
          freeCores := pool.freeCores.filter (· ∉ selected)
          memoryFree := pool.memoryFree - bytes })))

theorem HostPool.allocate_cases (pool : HostPool) (spec : RunSpec) :
    pool.Allocates spec (pool.allocate spec) := by
  obtain ⟨rest, hprefix, htotal, hstop⟩ := selectGroups_spec spec.machine.vcpus pool.freeCores 0
  rw [Nat.zero_add] at htotal
  unfold HostPool.allocate
  cases hbytes : parseMemoryBytes spec.machine.memory with
  | error error => exact .unreadable hbytes
  | ok bytes =>
    by_cases hmemory : pool.memoryFree < bytes
    · simp only [bind, Except.bind, if_pos hmemory]
      exact .refused hbytes (.inl hmemory)
    by_cases hfew : ((selectGroups spec.machine.vcpus 0 pool.freeCores).2 : ℤ) < spec.machine.vcpus
    · simp only [bind, Except.bind, if_neg hmemory, if_pos hfew]
      have hall : rest = [] := hstop.resolve_right (by omega)
      rw [hall, append_nil] at hprefix
      rw [htotal, ← hprefix] at hfew
      exact .refused hbytes (.inr hfew)
    by_cases hmany : ((selectGroups spec.machine.vcpus 0 pool.freeCores).2 : ℤ) ≠ spec.machine.vcpus
    · simp only [bind, Except.bind, if_neg hmemory, if_neg hfew, if_pos hmany]
      exact .overshot hbytes (by omega) hprefix rfl (by omega)
    · simp only [bind, Except.bind, if_neg hmemory, if_neg hfew, if_neg hmany]
      exact .granted hbytes (by omega) hprefix rfl (by omega) rfl rfl

/-! ## The share of a running pair -/

namespace Running

def groups (running : Running) : List CoreGroup :=
  (running.allocation.map fun allocation => allocation.placement.physicalCores).getD []

def cpus (running : Running) : List ℕ := cpusOf running.groups

def memoryBytes (running : Running) : ℕ :=
  (running.allocation.map Allocation.memoryBytes).getD 0

end Running

def memoryOf (active : List Running) : ℕ := (active.map Running.memoryBytes).sum

/-- A host whose core groups are disjoint and whose memory is an amount. -/
structure HostPool.Valid (host : HostPool) : Prop where
  disjoint : (cpusOf host.freeCores).Nodup
  memory : 0 ≤ host.memoryFree

/-- The free list and the active pairs share the host out among them. -/
structure Ledger (host pool : HostPool) (active : List Running) : Prop where
  cpus : (cpusOf pool.freeCores ++ active.flatMap Running.cpus).Perm (cpusOf host.freeCores)
  groups : ∀ group, group ∈ host.freeCores ↔
    group ∈ pool.freeCores ∨ ∃ running ∈ active, group ∈ running.groups
  memory : pool.memoryFree + memoryOf active = host.memoryFree
  free : 0 ≤ pool.memoryFree
  vcpus : ∀ running ∈ active, (running.cpus.length : ℤ) = running.pair.spec.machine.vcpus

variable {host : HostPool}

theorem Ledger.idle (h : host.Valid) :
    Ledger host host [] where
  cpus := by simp
  groups := by simp
  memory := by simp [memoryOf]
  free := h.memory
  vcpus := by simp

variable {pool : HostPool} {active : List Running}

theorem Ledger.perm {active' : List Running} (h : Ledger host pool active)
    (hperm : active.Perm active') :
    Ledger host pool active' where
  cpus := ((hperm.flatMap_right _).symm.append_left _).trans h.cpus
  groups group := by simp only [h.groups group, hperm.mem_iff]
  memory := by
    have hsum : memoryOf active = memoryOf active' := (hperm.map _).sum_nat
    rw [← hsum, h.memory]
  free := h.free
  vcpus running hmem := h.vcpus running (hperm.mem_iff.mpr hmem)

theorem Ledger.nodup (hvalid : host.Valid) (h : Ledger host pool active) :
    (cpusOf pool.freeCores ++ active.flatMap Running.cpus).Nodup :=
  h.cpus.nodup_iff.mpr hvalid.disjoint

/-- A group that comes twice among disjoint groups has no CPUs, so the groups that the filter of
`allocate` drops besides the selected ones carry none. -/
theorem cpusOf_filter_of_nodup {selected rest : List CoreGroup}
    (h : (cpusOf (selected ++ rest)).Nodup) :
    cpusOf (rest.filter (· ∉ selected)) = cpusOf rest := by
  induction rest with
  | nil => rfl
  | cons group rest ih =>
    have hrest : (cpusOf (selected ++ rest)).Nodup := by
      refine h.sublist ?_
      simp only [cpusOf_append, cpusOf_cons]
      exact (sublist_append_right _ _).append_left _
    by_cases hmem : group ∈ selected
    · have hempty : group.siblings = [] := by
        rw [cpusOf_append, nodup_append] at h
        rw [eq_nil_iff_forall_not_mem]
        intro cpu hcpu
        have hleft : cpu ∈ cpusOf selected := mem_flatMap.mpr ⟨group, hmem, hcpu⟩
        exact h.2.2 cpu hleft cpu (by simp [hcpu]) rfl
      rw [filter_cons_of_neg (by simpa using hmem), ih hrest, cpusOf_cons, hempty,
        nil_append]
    · rw [filter_cons_of_pos (by simpa using hmem), cpusOf_cons, cpusOf_cons, ih hrest]

variable {running : Running} {allocation : Allocation} {popped : Popped}

theorem Ledger.grant {selected rest : List CoreGroup} (hvalid : host.Valid)
    (h : Ledger host pool active) (hfree : pool.freeCores = selected ++ rest)
    (hgroups : running.groups = selected) (hmemory : running.memoryBytes ≤ pool.memoryFree)
    (hvcpus : ((cpusOf selected).length : ℤ) = running.pair.spec.machine.vcpus) :
    Ledger host
      { pool with
        freeCores := pool.freeCores.filter (· ∉ selected)
        memoryFree := pool.memoryFree - running.memoryBytes }
      (active ++ [running]) where
  cpus := by
    have hnodup : (cpusOf (selected ++ rest)).Nodup := by
      rw [← hfree]
      exact (nodup_append.mp (h.nodup hvalid)).1
    have hkept : cpusOf (pool.freeCores.filter (· ∉ selected)) = cpusOf rest := by
      rw [hfree, filter_append, filter_eq_nil_iff.mpr (by simp), nil_append,
        cpusOf_filter_of_nodup hnodup]
    have hcpus := h.cpus
    rw [hfree, cpusOf_append] at hcpus
    refine Perm.trans ?_ hcpus
    simp only [hkept, flatMap_append, flatMap_singleton, Running.cpus, hgroups]
    rw [← append_assoc]
    exact perm_append_comm.trans (by rw [append_assoc])
  groups group := by
    rw [h.groups group, hfree]
    simp only [mem_append, mem_filter, mem_singleton, decide_not,
      Bool.not_eq_eq_eq_not, Bool.not_true, decide_eq_false_iff_not]
    by_cases hmem : group ∈ selected
    · simp only [hmem, true_or, not_true_eq_false, and_false, false_or, true_iff]
      exact ⟨running, .inr rfl, hgroups ▸ hmem⟩
    · simp only [hmem, false_or, not_false_eq_true, and_true]
      constructor
      · rintro (hrest | ⟨other, hother, hin⟩)
        · exact .inl hrest
        · exact .inr ⟨other, .inl hother, hin⟩
      · rintro (hrest | ⟨other, hother | rfl, hin⟩)
        · exact .inl hrest
        · exact .inr ⟨other, hother, hin⟩
        · exact absurd (hgroups ▸ hin) hmem
  memory := by
    have hmem := h.memory
    simp only [memoryOf, map_append, map_cons, map_nil, sum_append,
      sum_cons, sum_nil] at hmem ⊢
    omega
  free := by
    change 0 ≤ pool.memoryFree - _
    omega
  vcpus other hother := by
    rcases mem_append.mp hother with hother | hother
    · exact h.vcpus other hother
    · rw [mem_singleton.mp hother, Running.cpus, hgroups]
      exact hvcpus

theorem Ledger.release (h : Ledger host pool (running :: active))
    (hallocation : running.allocation = some allocation) :
    Ledger host (pool.release allocation) active where
  cpus := by
    have hsorted : (cpusOf (pool.release allocation).freeCores).Perm
        (cpusOf (pool.freeCores ++ allocation.placement.physicalCores)) :=
      (perm_insertionSort _ _).flatMap_right _
    refine (hsorted.append_right _).trans (Perm.trans ?_ h.cpus)
    simp [Running.cpus, Running.groups, hallocation]
  groups group := by
    rw [h.groups group]
    simp [HostPool.release, mem_insertionSort, Running.groups, hallocation, or_assoc]
  memory := by
    have hmem := h.memory
    simp only [HostPool.release, memoryOf, map_cons, sum_cons, Running.memoryBytes,
      hallocation, Option.map_some, Option.getD_some] at hmem ⊢
    omega
  free := by
    have hfree := h.free
    simp only [HostPool.release]
    omega
  vcpus other hother := h.vcpus other (mem_cons_of_mem _ hother)

/-- A pair without an allocation holds nothing. -/
theorem Ledger.drop (h : Ledger host pool (running :: active))
    (hallocation : running.allocation = none) :
    Ledger host pool active where
  cpus := by
    have hcpus := h.cpus
    simpa [Running.cpus, Running.groups, hallocation] using hcpus
  groups group := by
    rw [h.groups group]
    simp [Running.groups, hallocation]
  memory := by
    have hmem := h.memory
    simpa [memoryOf, Running.memoryBytes, hallocation] using hmem
  free := h.free
  vcpus other hother := h.vcpus other (mem_cons_of_mem _ hother)

/-! ## Popping a pair -/

/-- A popped pair comes with an allocation by the pool; the pairs before it were refused. -/
theorem popFrom_some {pending : List ComparisonPair} (h : popFrom pool pending = .ok (some popped)) :
    ∃ before after allocation pool', pending = before ++ popped.pair :: after ∧
      popped.pending = before ++ after ∧ popped.allocation = some allocation ∧
      popped.pool = some pool' ∧
      pool.allocate popped.pair.spec = .ok (some (allocation, pool')) ∧
      ∀ pair ∈ before, pool.allocate pair.spec = .ok none := by
  induction pending generalizing popped with
  | nil => simp [popFrom] at h
  | cons pair rest ih =>
    simp only [popFrom, bind, Except.bind] at h
    cases halloc : pool.allocate pair.spec with
    | error error => simp [halloc] at h
    | ok granted =>
      rw [halloc] at h
      cases granted with
      | some granted =>
        obtain ⟨allocation, pool'⟩ := granted
        simp only [pure, Except.pure, Except.ok.injEq, Option.some.injEq] at h
        subst h
        exact ⟨[], rest, allocation, pool', rfl, rfl, rfl, rfl, halloc, by simp⟩
      | none =>
        dsimp only at h
        cases hrest : popFrom pool rest with
        | error error => simp [hrest] at h
        | ok later =>
          cases later with
          | none => simp [hrest, pure, Except.pure] at h
          | some later =>
            simp only [hrest, pure, Except.pure, Option.map_some, Except.ok.injEq,
              Option.some.injEq] at h
            subst h
            obtain ⟨before, after, allocation, pool', hsplit, hpending, hgranted, hpool, hown,
              hrefused⟩ := ih hrest
            refine ⟨pair :: before, after, allocation, pool', by simp [hsplit], by simp [hpending],
              hgranted, hpool, hown, ?_⟩
            simpa [halloc] using hrefused

/-! ## The invariant -/

namespace Runner

/-- What holds of the shares, wherever the main thread is. -/
structure Shares (host : HostPool) (s : Runner) : Prop where
  ledger : ∀ pool, s.pool = some pool → Ledger host pool s.active
  futures : (s.active.map Running.future).Nodup
  submitted : ∀ running ∈ s.active, running.future < s.started.length
  room : s.active.length ≤ s.maxParallel

/-- What the main thread knows about the active futures where it is. -/
def AtPoint (s : Runner) : Point → Prop
  | .serial => s.active = [] ∧ 1 ≤ s.maxParallel
  | .serialRunning => s.active.length = 1 ∧ 1 ≤ s.maxParallel
  | .waiting => s.active ≠ []
  | .collecting done => done.Nodup ∧ ∀ future ∈ done, future ∈ s.active.map Running.future
  | .returned => s.active = []
  | _ => True

structure Sound (host : HostPool) (s : Runner) : Prop extends Shares host s where
  atPoint : s.AtPoint s.point

variable {host : HostPool} {s : Runner}

theorem Shares.goto (h : Shares host s) (point : Point) : Shares host (s.goto point) where
  ledger := h.ledger
  futures := h.futures
  submitted := h.submitted
  room := h.room

theorem Shares.sound (h : Shares host s) {point : Point} (hpoint : s.AtPoint point) :
    Sound host (s.goto point) where
  toShares := h.goto point
  atPoint := by cases point <;> exact hpoint

/-- The share of a popped pair is taken from the pool. -/
theorem Shares.submit (hvalid : host.Valid) (h : Shares host s)
    (hroom : s.active.length < s.maxParallel)
    (hpool : ∀ pool', popped.pool = some pool' → ∃ pool allocation, s.pool = some pool ∧
      popped.allocation = some allocation ∧
      pool.allocate popped.pair.spec = .ok (some (allocation, pool'))) :
    Shares host (s.submit popped) where
  ledger pool' hpopped := by
    obtain ⟨pool, allocation, hbefore, hallocation, hgranted⟩ := hpool pool' hpopped
    have hcases := pool.allocate_cases popped.pair.spec
    rw [hgranted] at hcases
    cases hcases with
    | granted hbytes hmemory hfree _ hvcpus hown hcores =>
      subst hown hcores
      have hgroups : (Running.mk s.started.length popped.pair popped.allocation).groups =
          allocation.placement.physicalCores := by
        rw [Running.groups, hallocation]
        rfl
      have hshare : (Running.mk s.started.length popped.pair popped.allocation).memoryBytes =
          allocation.memoryBytes := by
        rw [Running.memoryBytes, hallocation]
        rfl
      have hgrant := (h.ledger pool hbefore).grant hvalid hfree hgroups (by rwa [hshare]) hvcpus
      rwa [hshare] at hgrant
  futures := by
    simp only [Runner.submit, map_append, map_cons, map_nil]
    refine nodup_append.mpr ⟨h.futures, by simp, ?_⟩
    intro future hfuture other hother
    obtain ⟨running, hrunning, rfl⟩ := mem_map.mp hfuture
    rw [mem_singleton.mp hother]
    exact (h.submitted running hrunning).ne
  submitted running hrunning := by
    simp only [Runner.submit, length_append, length_singleton] at hrunning ⊢
    rcases mem_append.mp hrunning with hold | hnew
    · exact (h.submitted running hold).trans (Nat.lt_succ_self _)
    · rw [mem_singleton.mp hnew]
      exact Nat.lt_succ_self _
  room := by
    simp only [Runner.submit, length_append, length_singleton]
    omega

variable {running : Running}

/-- The active entries are the one that is popped and the others. -/
theorem Shares.active_perm (h : Shares host s) (hmem : running ∈ s.active) :
    s.active.Perm (running :: (s.settle running).active) := by
  have hfutures := h.futures
  have hactive : (s.settle running).active = s.active.filter (·.future ≠ running.future) := rfl
  rw [hactive]
  clear h hactive
  generalize s.active = active at hmem hfutures
  induction active with
  | nil => exact absurd hmem not_mem_nil
  | cons first rest ih =>
    rw [map_cons, nodup_cons] at hfutures
    rcases mem_cons.mp hmem with rfl | hrest
    · rw [filter_cons_of_neg (by simp), filter_eq_self.mpr]
      intro other hother
      have hne : other.future ≠ running.future := by
        intro heq
        exact hfutures.1 (heq ▸ mem_map_of_mem hother)
      simpa using hne
    · have hne : first.future ≠ running.future := by
        intro heq
        exact hfutures.1 (heq ▸ mem_map_of_mem hrest)
      rw [filter_cons_of_pos (by simpa using hne)]
      exact ((ih hrest hfutures.2).cons first).trans (Perm.swap _ _ _)

theorem Shares.settle (h : Shares host s) (hmem : running ∈ s.active) :
    Shares host (s.settle running) where
  ledger pool' hpool' := by
    have hperm := h.active_perm hmem
    cases hpool : s.pool with
    | none => simp [Runner.settle, hpool] at hpool'
    | some pool =>
      have hledger := (h.ledger pool hpool).perm hperm
      cases hallocation : running.allocation with
      | some allocation =>
        simp only [Runner.settle, hpool, hallocation, Option.some.injEq] at hpool'
        rw [← hpool']
        exact hledger.release hallocation
      | none =>
        simp only [Runner.settle, hpool, hallocation, Option.some.injEq] at hpool'
        subst hpool'
        exact hledger.drop hallocation
  futures := h.futures.sublist (filter_sublist.map _)
  submitted other hother := h.submitted other (mem_of_mem_filter hother)
  room := (length_filter_le _ _).trans h.room

/-- A pair that the main thread may start next: it is pending, and with a pool it comes with an
allocation from that pool. -/
structure Pops (s : Runner) (popped : Popped) : Prop where
  pending : ∃ before after, s.pending = before ++ popped.pair :: after ∧
    popped.pending = before ++ after
  pooled : popped.pool.isSome = s.pool.isSome
  pool : ∀ pool', popped.pool = some pool' → ∃ pool allocation, s.pool = some pool ∧
    popped.allocation = some allocation ∧
    pool.allocate popped.pair.spec = .ok (some (allocation, pool'))

theorem popAllocatablePair_pops (h : popAllocatablePair s.pending s.pool = .ok (some popped)) :
    s.Pops popped := by
  cases hpool : s.pool with
  | none =>
    cases hpending : s.pending with
    | nil => simp [popAllocatablePair, hpool, hpending] at h
    | cons pair rest =>
      simp only [popAllocatablePair, hpool, hpending, Except.ok.injEq, Option.some.injEq] at h
      subst h
      exact ⟨⟨[], rest, hpending, rfl⟩, by simp [hpool], by simp⟩
  | some pool =>
    rw [hpool] at h
    obtain ⟨before, after, allocation, pool', hsplit, hrest, hallocation, hafter, hgranted, _⟩ :=
      popFrom_some h
    refine ⟨⟨before, after, hsplit, hrest⟩, by simp [hpool, hafter], ?_⟩
    intro pool₁ hpool₁
    rw [hafter, Option.some.injEq] at hpool₁
    subst hpool₁
    exact ⟨pool, allocation, hpool, hallocation, hgranted⟩

variable {pair : ComparisonPair} {rest : List ComparisonPair}

theorem allocatePair_pops {pool' : HostPool} (hpending : s.pending = pair :: rest)
    (h : allocatePair s.pool pair = .ok (some (allocation, pool'))) :
    s.Pops ⟨pair, rest, some allocation, some pool'⟩ := by
  cases hpool : s.pool with
  | none => simp [allocatePair, hpool] at h
  | some pool =>
    rw [hpool] at h
    refine ⟨⟨[], rest, hpending, rfl⟩, by simp [hpool], ?_⟩
    intro pool₁ hpool₁
    rw [Option.some.injEq] at hpool₁
    subst hpool₁
    exact ⟨pool, allocation, hpool, rfl, h⟩

/-- What one step does to the shares: nothing, or one pair starts, or one gives its share back. -/
inductive Changes (s : Runner) : Runner → Prop
  | same (point : Point) : Changes s (s.goto point)
  | submitted (popped : Popped) (point : Point) : s.Pops popped →
      s.active.length < s.maxParallel → Changes s ((s.submit popped).goto point)
  | settled (running : Running) (point : Point) : running ∈ s.active →
      Changes s ((s.settle running).goto point)

theorem launch_changes (launched : Bool) : Changes s (s.launch launched) := by
  unfold launch
  split
  · rename_i hroom
    cases hpop : popAllocatablePair s.pending s.pool with
    | error error => exact .same _
    | ok popped =>
      cases popped with
      | none => exact .same _
      | some popped => exact .submitted popped _ (popAllocatablePair_pops hpop) hroom.2
  · exact .same _

theorem afterLaunching_changes (launched : Bool) : Changes s (s.afterLaunching launched) := by
  unfold afterLaunching
  split
  · split <;> exact .same _
  · split <;> exact .same _

theorem startSerial_changes (hpending : s.pending = pair :: rest)
    (hroom : s.active.length < s.maxParallel) : Changes s (s.startSerial pair rest) := by
  unfold startSerial
  cases halloc : allocatePair s.pool pair with
  | error error => exact .same _
  | ok granted =>
    cases granted with
    | some granted => exact .submitted _ _ (allocatePair_pops hpending halloc) hroom
    | none =>
      dsimp only
      split
      · exact .same _
      · rename_i hpool
        exact .submitted _ _ ⟨⟨[], rest, hpending, rfl⟩, by simpa using hpool, by simp⟩ hroom

theorem afterResult_changes (hmem : running ∈ s.active) (error : Option RunError) (next : Point) :
    Changes s (s.afterResult running error next) := by
  cases error <;> exact .settled running _ hmem

theorem find_mem {future : ℕ} (h : s.find future = some running) :
    running ∈ s.active ∧ running.future = future :=
  ⟨mem_of_find?_eq_some h, by simpa using find?_some h⟩

variable {event : Event} {t : Runner}

theorem step_changes (h : Sound host s) (hstep : s.step event = some t) : Changes s t := by
  have hpoint := h.atPoint
  cases event with
  | proceed =>
    simp only [step] at hstep
    split at hstep
    · rename_i hat
      rw [hat] at hpoint
      split at hstep
      · cases hstep
        exact .same _
      · rename_i hpending
        cases hstep
        exact startSerial_changes hpending (by rw [hpoint.1]; exact hpoint.2)
    · split at hstep <;> cases hstep <;> exact .same _
    · cases hstep
      exact launch_changes _
    · cases hstep
      exact afterLaunching_changes _
    · cases hstep
      exact .same _
    · cases hstep
  | completed done =>
    simp only [step] at hstep
    split at hstep
    · split at hstep <;> cases hstep
      exact .same _
    · cases hstep
  | result error =>
    simp only [step] at hstep
    split at hstep
    · obtain ⟨running, hhead, rfl⟩ := Option.map_eq_some_iff.mp hstep
      exact afterResult_changes (mem_of_head? hhead) error _
    · obtain ⟨running, hfind, rfl⟩ := Option.map_eq_some_iff.mp hstep
      exact afterResult_changes (find_mem hfind).1 error _
    · cases hstep

theorem Changes.shares (hvalid : host.Valid) (h : Shares host s) (hchange : Changes s t) :
    Shares host t := by
  cases hchange with
  | same point => exact h.goto point
  | submitted popped point hpops hroom => exact (h.submit hvalid hroom hpops.pool).goto point
  | settled running point hmem => exact (h.settle hmem).goto point

/-- Where a step leads, the main thread knows what it has to know there. -/
theorem step_atPoint (h : Sound host s) (hstep : s.step event = some t) : t.AtPoint t.point := by
  have hpoint := h.atPoint
  cases event with
  | proceed =>
    simp only [step] at hstep
    split at hstep
    · rename_i hat
      rw [hat] at hpoint
      split at hstep
      · cases hstep
        exact hpoint.1
      · cases hstep
        unfold startSerial
        split
        · trivial
        · exact ⟨by simp [submit, goto, hpoint.1], hpoint.2⟩
        · split
          · trivial
          · exact ⟨by simp [submit, goto, hpoint.1], hpoint.2⟩
    · split at hstep
      · rename_i hdone
        cases hstep
        exact hdone.2
      · cases hstep
        trivial
    · cases hstep
      unfold launch
      split
      · split <;> trivial
      · trivial
    · cases hstep
      unfold afterLaunching
      split
      · rename_i hactive
        split
        · trivial
        · exact hactive
      · split <;> trivial
    · cases hstep
      trivial
    · cases hstep
  | completed done =>
    simp only [step] at hstep
    split at hstep
    · split at hstep
      · rename_i hmay
        cases hstep
        exact hmay.2
      · cases hstep
    · cases hstep
  | result error =>
    simp only [step] at hstep
    split at hstep
    · rename_i hat
      rw [hat] at hpoint
      obtain ⟨running, hactive⟩ := length_eq_one_iff.mp hpoint.1
      simp only [hactive, head?_cons, Option.map_some, Option.some.injEq] at hstep
      subst hstep
      cases error with
      | none => exact ⟨by simp [afterResult, goto, settle, hactive], hpoint.2⟩
      | some error => trivial
    · rename_i future rest hat
      rw [hat] at hpoint
      obtain ⟨running, hfind, rfl⟩ := Option.map_eq_some_iff.mp hstep
      obtain ⟨_, rfl⟩ := find_mem hfind
      cases error with
      | none =>
        refine ⟨(nodup_cons.mp hpoint.1).2, ?_⟩
        intro other hother
        obtain ⟨entry, hentry, rfl⟩ :=
          mem_map.mp (hpoint.2 other (mem_cons_of_mem _ hother))
        have hne : entry.future ≠ running.future := by
          intro heq
          exact (nodup_cons.mp hpoint.1).1 (heq ▸ hother)
        exact mem_map_of_mem (mem_filter.mpr ⟨hentry, by simpa using hne⟩)
      | some error => trivial
    · cases hstep

theorem step_sound (hvalid : host.Valid) (h : Sound host s) (hstep : s.step event = some t) :
    Sound host t where
  toShares := (step_changes h hstep).shares hvalid h.toShares
  atPoint := step_atPoint h hstep

/-- A run keeps what every step from a sound state keeps. -/
theorem run_keeps (hvalid : host.Valid) {I : Runner → Prop}
    (hI : ∀ s t event, Sound host s → I s → s.step event = some t → I t) {events : List Event}
    (h : Sound host s) (hs : I s) (hrun : s.run events = some t) : Sound host t ∧ I t := by
  induction events generalizing s with
  | nil =>
    cases hrun
    exact ⟨h, hs⟩
  | cons event events ih =>
    obtain ⟨u, hstep, hrest⟩ := Option.bind_eq_some_iff.mp hrun
    exact ih (step_sound hvalid h hstep) (hI s u event h hs hstep) hrest

theorem Changes.setting (h : Changes s t) :
    t.maxParallel = s.maxParallel ∧ t.pool.isSome = s.pool.isSome := by
  cases h with
  | same point => exact ⟨rfl, rfl⟩
  | submitted popped point hpops hroom => exact ⟨rfl, hpops.pooled⟩
  | settled running point hmem =>
    refine ⟨rfl, ?_⟩
    simp only [goto, settle]
    split <;> simp_all

/-! ## Exclusive resources -/

/-- The running pairs hold disjoint parts of the host, each as large as its machine, and what they
hold and what is free make up the host. -/
structure Exclusive (host pool : HostPool) (s : Runner) : Prop where
  disjoint : s.active.Pairwise fun running other => running.cpus.Disjoint other.cpus
  inside : ∀ running ∈ s.active, running.cpus ⊆ cpusOf host.freeCores
  vcpus : ∀ running ∈ s.active, running.cpus.Nodup ∧
    (running.cpus.length : ℤ) = running.pair.spec.machine.vcpus
  memory : pool.memoryFree + memoryOf s.active = host.memoryFree
  free : 0 ≤ pool.memoryFree

theorem Shares.exclusive (hvalid : host.Valid) (h : Shares host s) (hpool : s.pool = some pool) :
    Exclusive host pool s where
  disjoint := by
    have hnodup := (nodup_append.mp ((h.ledger pool hpool).nodup hvalid)).2.1
    exact (nodup_flatMap.mp hnodup).2
  inside running hmem cpu hcpu := by
    refine (h.ledger pool hpool).cpus.subset (mem_append_right _ ?_)
    exact mem_flatMap.mpr ⟨running, hmem, hcpu⟩
  vcpus running hmem := by
    have hnodup := (nodup_append.mp ((h.ledger pool hpool).nodup hvalid)).2.1
    exact ⟨(nodup_flatMap.mp hnodup).1 running hmem, (h.ledger pool hpool).vcpus running hmem⟩
  memory := (h.ledger pool hpool).memory
  free := (h.ledger pool hpool).free

/-- The pool holds what the host had at the start. -/
structure Whole (host pool : HostPool) : Prop where
  groups : ∀ group, group ∈ pool.freeCores ↔ group ∈ host.freeCores
  cpus : (cpusOf pool.freeCores).Perm (cpusOf host.freeCores)
  memory : pool.memoryFree = host.memoryFree

theorem Shares.whole (h : Shares host s) (hidle : s.active = []) (hpool : s.pool = some pool) :
    Whole host pool where
  groups group := by
    have hgroups := (h.ledger pool hpool).groups group
    simp only [hidle, not_mem_nil, false_and, exists_false, or_false] at hgroups
    exact hgroups.symm
  cpus := by
    have hcpus := (h.ledger pool hpool).cpus
    simpa [hidle] using hcpus
  memory := by
    have hmemory := (h.ledger pool hpool).memory
    simpa [hidle, memoryOf] using hmemory

end Runner

theorem runPairsParallel_sound {pairs : List ComparisonPair} {pool : Option HostPool} (limit : ℤ)
    (hledger : ∀ p, pool = some p → Ledger host p []) :
    (runPairsParallel pairs pool limit).Sound host := by
  have hstart : (Runner.mk limit.toNat pool pairs [] [] .outerLoop).Shares host :=
    ⟨hledger, nodup_nil, by simp, Nat.zero_le _⟩
  unfold runPairsParallel
  dsimp only
  split
  · exact hstart.sound trivial
  · exact hstart.sound trivial

theorem runPairs_sound (hvalid : host.Valid) (pairs : List ComparisonPair) (parallel : Parallel) :
    (runPairs pairs host parallel).Sound host := by
  have hledger : ∀ p, (if autoPinning pairs then some host else none) = some p →
      Ledger host p [] := by
    intro p hp
    split at hp
    · cases hp
      exact .idle hvalid
    · cases hp
  have hstart : (Runner.mk (maxParallel pairs parallel).toNat
      (if autoPinning pairs then some host else none) pairs [] [] .serial).Shares host :=
    ⟨hledger, nodup_nil, by simp, Nat.zero_le _⟩
  unfold runPairs
  dsimp only
  split
  · exact hstart.sound rfl
  split
  · exact hstart.sound trivial
  split
  · rename_i hlimit
    exact hstart.sound ⟨rfl, by rw [hlimit]; rfl⟩
  · exact runPairsParallel_sound _ hledger

theorem runPairs_setting (host : HostPool) (pairs : List ComparisonPair) (parallel : Parallel) :
    (runPairs pairs host parallel).maxParallel = (maxParallel pairs parallel).toNat ∧
      (runPairs pairs host parallel).pool.isSome = autoPinning pairs := by
  have hpooled : (if autoPinning pairs then some host else none).isSome = autoPinning pairs := by
    cases autoPinning pairs <;> rfl
  unfold runPairs
  dsimp only
  split
  · exact ⟨rfl, hpooled⟩
  split
  · exact ⟨rfl, hpooled⟩
  split
  · exact ⟨rfl, hpooled⟩
  · unfold runPairsParallel
    dsimp only
    split <;> exact ⟨rfl, hpooled⟩

/-- At every moment of `_run_pairs` the running pairs hold disjoint sets of the host's CPUs, each
as many as its machine has, and their memory and the free memory make up that of the host. There
are never more of them than the limit, and when all have finished the pool is whole again. -/
theorem running_pairs_exclusive {host : HostPool} (hvalid : host.Valid)
    (pairs : List ComparisonPair) (parallel : Parallel) {events : List Event} {s : Runner}
    (hrun : (runPairs pairs host parallel).run events = some s) :
    (s.pool.isSome ↔ autoPinning pairs) ∧
      (∀ pool, s.pool = some pool → Runner.Exclusive host pool s) ∧
      s.active.length ≤ (maxParallel pairs parallel).toNat ∧
      (s.point = .returned → ∀ pool, s.pool = some pool → Runner.Whole host pool) := by
  obtain ⟨hsound, hlimit, hpooled⟩ :=
    Runner.run_keeps hvalid
      (I := fun s => s.maxParallel = (maxParallel pairs parallel).toNat ∧
        s.pool.isSome = autoPinning pairs)
      (fun s t event h hs hstep => by
        obtain ⟨hlimit, hpooled⟩ := (Runner.step_changes h hstep).setting
        exact ⟨hlimit.trans hs.1, hpooled.trans hs.2⟩)
      (runPairs_sound hvalid pairs parallel) (runPairs_setting host pairs parallel) hrun
  refine ⟨by rw [hpooled], fun pool hpool => hsound.exclusive hvalid hpool, ?_, ?_⟩
  · rw [← hlimit]
    exact hsound.room
  · intro hreturned pool hpool
    have hidle := hsound.atPoint
    rw [hreturned] at hidle
    exact hsound.whole hidle hpool

/-- Two cores with two siblings each. -/
def twinHost : HostPool := ⟨[⟨0, 0, [0, 2]⟩, ⟨0, 1, [1, 3]⟩], 8 * 1024 ^ 3, "use_all_siblings"⟩

def twinPair (index : ℕ) : ComparisonPair := ⟨index, "small", 2, "2G", some "auto"⟩

theorem running_pairs_exclusive_twins :
    ∃ s pool, (runPairs [twinPair 1, twinPair 2] twinHost .auto).run
        [.proceed, .proceed, .proceed, .proceed] = some s ∧
      s.pool = some pool ∧ s.active.length = 2 ∧ Runner.Exclusive twinHost pool s := by
  have hvalid : twinHost.Valid := ⟨by decide, by decide⟩
  have hactive : ((runPairs [twinPair 1, twinPair 2] twinHost .auto).run
      [.proceed, .proceed, .proceed, .proceed]).map (fun s => s.active.length) = some 2 := by
    decide +kernel
  obtain ⟨s, hrun, hlength⟩ := Option.map_eq_some_iff.mp hactive
  obtain ⟨hpooled, hexclusive, _, _⟩ := running_pairs_exclusive hvalid _ _ hrun
  obtain ⟨pool, hpool⟩ := Option.isSome_iff_exists.mp (hpooled.mpr (by decide))
  exact ⟨s, pool, hrun, hpool, hlength, hexclusive pool hpool⟩

end ScxAgent.Bench
