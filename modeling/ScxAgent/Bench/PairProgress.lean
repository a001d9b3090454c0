import ScxAgent.Bench.PairRuns

/-!
# Progress of the pair runner

The pool only tries a prefix of its free list. When the groups of that prefix jump over the number
of CPUs that a pair asks for, `allocate` raises and the whole run ends, even if the pair could have
waited for other groups. `Clear` excludes this in the state before an attempt. Runs through clear
states start every pair once and return; a run that meets any other state raises there.
-/

namespace ScxAgent.Bench

open List Option

/-! ## Which attempts are granted, refused and raised -/

namespace HostPool

/-- `allocate` gives the pair a share. -/
def Accepts (pool : HostPool) (pair : ComparisonPair) : Prop :=
  ∃ allocation pool', pool.allocate pair.spec = .ok (some (allocation, pool'))

/-- The pair fits in the free memory, and the free groups, taken in order, jump over its number of
CPUs. -/
structure Overshoots (pool : HostPool) (pair : ComparisonPair) : Prop where
  memory : ∃ bytes : ℕ, parseMemoryBytes pair.spec.machine.memory = .ok bytes ∧
    bytes ≤ pool.memoryFree
  groups : ∃ taken group rest, pool.freeCores = taken ++ group :: rest ∧
    (taken = [] ∨ (cpusOf taken).length < pair.spec.machine.vcpus) ∧
    pair.spec.machine.vcpus < (cpusOf (taken ++ [group])).length

/-- There is not enough memory or there are not enough CPUs. -/
def Refuses (pool : HostPool) (pair : ComparisonPair) : Prop :=
  (∃ bytes : ℕ, parseMemoryBytes pair.spec.machine.memory = .ok bytes ∧
    pool.memoryFree < bytes) ∨ (cpusOf pool.freeCores).length < pair.spec.machine.vcpus

end HostPool

/-- A pair that some pool has accepted. -/
structure ComparisonPair.Proper (pair : ComparisonPair) : Prop where
  memory : ∃ bytes, parseMemoryBytes pair.spec.machine.memory = .ok bytes
  vcpus : 0 ≤ pair.spec.machine.vcpus

theorem selectGroups_eq {vcpus : ℤ} {taken : List CoreGroup} {group : CoreGroup}
    (rest : List CoreGroup) {count : ℕ}
    (hfew : taken = [] ∨ ((count + (cpusOf taken).length : ℕ) : ℤ) < vcpus)
    (henough : vcpus ≤ ((count + (cpusOf (taken ++ [group])).length : ℕ) : ℤ)) :
    selectGroups vcpus count (taken ++ group :: rest) =
      (taken ++ [group], count + (cpusOf (taken ++ [group])).length) := by
  induction taken generalizing count with
  | nil =>
    simp only [nil_append, cpusOf_cons, cpusOf_nil, append_nil] at henough ⊢
    simp only [selectGroups, if_pos henough]
  | cons first taken ih =>
    have hlt := hfew.resolve_left (cons_ne_nil _ _)
    simp only [cpusOf_cons, cons_append, length_append] at hlt henough ⊢
    have hmore : ¬ vcpus ≤ ((count + first.siblings.length : ℕ) : ℤ) := by omega
    have hnext : selectGroups vcpus (count + first.siblings.length) (taken ++ group :: rest) = _ :=
      ih (.inr (by omega)) (by omega)
    simp only [selectGroups, if_neg hmore, hnext, Prod.mk.injEq, true_and]
    omega

variable {groups : List CoreGroup}

/-- Without its last group the selection was not enough. -/
theorem selectGroups_stop (vcpus : ℤ) (hne : groups ≠ []) (count : ℕ) :
    ∃ taken group rest, groups = taken ++ group :: rest ∧
      (selectGroups vcpus count groups).1 = taken ++ [group] ∧
      (taken = [] ∨ ((count + (cpusOf taken).length : ℕ) : ℤ) < vcpus) := by
  induction groups generalizing count with
  | nil => exact absurd rfl hne
  | cons first groups ih =>
    by_cases henough : vcpus ≤ ((count + first.siblings.length : ℕ) : ℤ)
    · exact ⟨[], first, groups, rfl, by simp only [selectGroups, if_pos henough, nil_append],
        .inl rfl⟩
    · simp only [selectGroups, if_neg henough]
      by_cases hlast : groups = []
      · subst hlast
        exact ⟨[], first, [], rfl, rfl, .inl rfl⟩
      · obtain ⟨taken, group, rest, hsplit, hown, hfew⟩ := ih hlast (count + first.siblings.length)
        refine ⟨first :: taken, group, rest, by rw [hsplit]; rfl, by rw [hown]; rfl, .inr ?_⟩
        simp only [cpusOf_cons, length_append]
        rcases hfew with rfl | hfew
        · simp only [cpusOf_nil, length_nil]
          omega
        · omega

namespace HostPool

variable {pool : HostPool} {pair : ComparisonPair}

theorem Accepts.proper (h : pool.Accepts pair) : pair.Proper := by
  obtain ⟨allocation, pool', hgranted⟩ := h
  have hcases := pool.allocate_cases pair.spec
  rw [hgranted] at hcases
  cases hcases with
  | granted hbytes hmemory hfree _ hvcpus => exact ⟨⟨_, hbytes⟩, by omega⟩

theorem not_refuses {bytes : ℕ} {selected rest : List CoreGroup}
    (hbytes : parseMemoryBytes pair.spec.machine.memory = .ok bytes)
    (hmemory : bytes ≤ pool.memoryFree) (hfree : pool.freeCores = selected ++ rest)
    (hvcpus : pair.spec.machine.vcpus ≤ (cpusOf selected).length) : ¬ pool.Refuses pair := by
  rintro (⟨bytes', hbytes', hless⟩ | hless)
  · rw [hbytes, Except.ok.injEq] at hbytes'
    omega
  · rw [hfree, cpusOf_append, length_append] at hless
    omega

theorem Accepts.not_refuses (h : pool.Accepts pair) : ¬ pool.Refuses pair := by
  obtain ⟨allocation, pool', hgranted⟩ := h
  have hcases := pool.allocate_cases pair.spec
  rw [hgranted] at hcases
  cases hcases with
  | granted hbytes hmemory hfree _ hvcpus => exact HostPool.not_refuses hbytes hmemory hfree hvcpus.ge

theorem allocate_none_iff (hproper : pair.Proper) :
    pool.allocate pair.spec = .ok none ↔ pool.Refuses pair := by
  have hcases := pool.allocate_cases pair.spec
  obtain ⟨bytes, hbytes⟩ := hproper.memory
  constructor
  · intro hnone
    rw [hnone] at hcases
    cases hcases with
    | refused hbytes' hreason => exact hreason.imp (fun hless => ⟨_, hbytes', hless⟩) id
  · intro hrefuses
    generalize pool.allocate pair.spec = result at hcases
    cases hcases with
    | unreadable herror => simp [hbytes] at herror
    | refused => rfl
    | overshot hbytes' hmemory hfree _ hless =>
      exact absurd hrefuses (not_refuses hbytes' hmemory hfree hless.le)
    | granted hbytes' hmemory hfree _ hvcpus =>
      exact absurd hrefuses (not_refuses hbytes' hmemory hfree hvcpus.ge)

theorem overshoots_of_error (hproper : pair.Proper) {error : RunError}
    (h : pool.allocate pair.spec = .error error) : pool.Overshoots pair := by
  have hcases := pool.allocate_cases pair.spec
  obtain ⟨bytes, hbytes⟩ := hproper.memory
  have hvcpus := hproper.vcpus
  rw [h] at hcases
  cases hcases with
  | unreadable herror => simp [hbytes] at herror
  | overshot hbytes' hmemory hfree hselected hless =>
    have hne : pool.freeCores ≠ [] := by
      intro hnil
      rw [hselected, hnil] at hless
      simp only [selectGroups, cpusOf_nil, length_nil] at hless
      omega
    obtain ⟨taken, group, rest, hsplit, hown, hfew⟩ :=
      selectGroups_stop pair.spec.machine.vcpus hne 0
    rw [Nat.zero_add] at hfew
    exact ⟨⟨_, hbytes', hmemory⟩, taken, group, rest, hsplit, hfew, by
      rwa [hselected, hown] at hless⟩

theorem Overshoots.error (h : pool.Overshoots pair) :
    ∃ error, pool.allocate pair.spec = .error error := by
  obtain ⟨⟨bytes, hbytes, hmemory⟩, taken, group, rest, hsplit, hfew, hless⟩ := h
  have hselect : selectGroups pair.spec.machine.vcpus 0 (taken ++ group :: rest) = _ :=
    selectGroups_eq rest (by rwa [Nat.zero_add]) (by rw [Nat.zero_add]; exact hless.le)
  rw [← hsplit, Nat.zero_add] at hselect
  have hmemory' : ¬ pool.memoryFree < bytes := by omega
  have hfew' : ¬ ((cpusOf (taken ++ [group])).length : ℤ) < pair.spec.machine.vcpus := by omega
  have hmany : ((cpusOf (taken ++ [group])).length : ℤ) ≠ pair.spec.machine.vcpus := by omega
  unfold HostPool.allocate
  simp only [hbytes, bind, Except.bind, if_neg hmemory', hselect, if_neg hfew', if_pos hmany]
  exact ⟨_, rfl⟩

end HostPool

/-! ## Attempts of the runner -/

/-- The pending pairs up to some pair are refused, and that pair overshoots. -/
def HostPool.Trips (pool : HostPool) (pending : List ComparisonPair) : Prop :=
  ∃ before pair after, pending = before ++ pair :: after ∧
    (∀ other ∈ before, pool.Refuses other) ∧ pool.Overshoots pair

/-- No attempt of the main thread at this state raises. -/
def Runner.Clear (s : Runner) : Prop :=
  ∀ launched pool, s.point = .launching launched → s.pool = some pool →
    s.active.length < s.maxParallel → ¬ pool.Trips s.pending

variable {pool : HostPool} {pending : List ComparisonPair}

theorem popFrom_none (h : popFrom pool pending = .ok none) :
    ∀ pair ∈ pending, pool.allocate pair.spec = .ok none := by
  induction pending with
  | nil => simp
  | cons pair rest ih =>
    simp only [popFrom, bind, Except.bind] at h
    cases halloc : pool.allocate pair.spec with
    | error error => simp [halloc] at h
    | ok granted =>
      rw [halloc] at h
      cases granted with
      | some granted => simp [pure, Except.pure] at h
      | none =>
        dsimp only at h
        cases hrest : popFrom pool rest with
        | error error => simp [hrest] at h
        | ok later =>
          cases later with
          | some later => simp [hrest, pure, Except.pure] at h
          | none => exact forall_mem_cons.mpr ⟨halloc, ih hrest⟩

theorem popFrom_error_iff (hproper : ∀ pair ∈ pending, pair.Proper) :
    (∃ error, popFrom pool pending = .error error) ↔ pool.Trips pending := by
  induction pending with
  | nil =>
    constructor
    · rintro ⟨error, herror⟩
      simp [popFrom] at herror
    · rintro ⟨before, pair, after, hsplit, _⟩
      simp at hsplit
  | cons pair rest ih =>
    have hrest := ih fun other hother => hproper other (mem_cons_of_mem _ hother)
    have hown := hproper pair mem_cons_self
    cases halloc : pool.allocate pair.spec with
    | error error =>
      refine iff_of_true ⟨error, by simp only [popFrom, halloc, bind, Except.bind]⟩ ?_
      exact ⟨[], pair, rest, rfl, by simp, HostPool.overshoots_of_error hown halloc⟩
    | ok granted =>
      -- A pair that does not raise can only be among the refused ones.
      have hquiet : ¬ pool.Overshoots pair := by
        intro hover
        obtain ⟨error, herror⟩ := hover.error
        simp [halloc] at herror
      cases granted with
      | some granted =>
        refine iff_of_false ?_ ?_
        · rintro ⟨error, herror⟩
          simp [popFrom, halloc, bind, Except.bind, pure, Except.pure] at herror
        · rintro ⟨before, other, after, hsplit, hrefused, hover⟩
          cases before with
          | nil =>
            cases hsplit
            exact hquiet hover
          | cons first before =>
            cases hsplit
            have hnone := (HostPool.allocate_none_iff hown).mpr (hrefused pair mem_cons_self)
            simp [halloc] at hnone
      | none =>
        have hrefuses := (HostPool.allocate_none_iff hown).mp halloc
        have hpop : (∃ error, popFrom pool (pair :: rest) = .error error) ↔
            ∃ error, popFrom pool rest = .error error := by
          cases hlater : popFrom pool rest with
          | error error => simp [popFrom, halloc, hlater, bind, Except.bind]
          | ok later => simp [popFrom, halloc, hlater, bind, Except.bind, pure, Except.pure]
        rw [hpop, hrest]
        constructor
        · rintro ⟨before, other, after, hsplit, hrefused, hover⟩
          exact ⟨pair :: before, other, after, by rw [hsplit]; rfl,
            forall_mem_cons.mpr ⟨hrefuses, hrefused⟩, hover⟩
        · rintro ⟨before, other, after, hsplit, hrefused, hover⟩
          cases before with
          | nil =>
            cases hsplit
            exact absurd hover hquiet
          | cons first before =>
            cases hsplit
            exact ⟨before, other, after, rfl, (forall_mem_cons.mp hrefused).2, hover⟩

/-- The result of the event, if it has one, is not an error. -/
def Event.Finishes : Event → Prop
  | .result error => error = none
  | _ => True

/-! ## Every step makes progress -/

namespace Runner

variable {host : HostPool} {s t : Runner} {pairs : List ComparisonPair}

/-- How far a point is from the next start or end of a pair. -/
def rank : Point → ℕ
  | .serial | .outerLoop => 4
  | .launching true => 6
  | .launching false => 3
  | .launchingDone true => 5
  | .launchingDone false => 2
  | .waiting => 1
  | .collecting [] => 5
  | .collecting (_ :: _) | .serialRunning | .returned | .raised _ => 0

def weight (s : Runner) : ℕ := 10 * s.pending.length + 6 * s.active.length + rank s.point

theorem weight_goto (point : Point) :
    (s.goto point).weight = 10 * s.pending.length + 6 * s.active.length + rank point := rfl

theorem weight_of {point : Point} (h : s.point = point) :
    s.weight = 10 * s.pending.length + 6 * s.active.length + rank point := by
  rw [← h, weight]

theorem Pops.weight_submit {popped : Popped} (h : s.Pops popped) (point : Point) :
    ((s.submit popped).goto point).weight + 4 =
      10 * s.pending.length + 6 * s.active.length + rank point := by
  obtain ⟨before, after, hsplit, hrest⟩ := h.pending
  rw [weight_goto]
  simp only [submit, hsplit, hrest, length_append, length_cons, length_nil]
  omega

variable {running : Running}

theorem Shares.weight_settle (h : Shares host s) (hmem : running ∈ s.active) (point : Point) :
    ((s.settle running).goto point).weight + 6 =
      10 * s.pending.length + 6 * s.active.length + rank point := by
  have hlength := (h.active_perm hmem).length_eq
  rw [length_cons] at hlength
  rw [weight_goto, hlength]
  change 10 * s.pending.length + _ + _ + 6 = _
  omega

theorem launch_weight (launched : Bool) (hpoint : s.point = .launching launched) :
    (s.launch launched).weight < s.weight := by
  have hdone : (s.goto (.launchingDone launched)).weight < s.weight := by
    rw [weight_goto, weight_of hpoint]
    cases launched <;> simp [rank]
  unfold launch
  split
  · cases hpop : popAllocatablePair s.pending s.pool with
    | error error =>
      change (s.goto _).weight < _
      rw [weight_goto, weight_of hpoint]
      cases launched <;> simp [rank]
    | ok popped =>
      cases popped with
      | none => exact hdone
      | some popped =>
        have hweight := (popAllocatablePair_pops hpop).weight_submit (.launching true)
        rw [weight_of hpoint]
        cases launched <;> simp only [rank] at hweight ⊢ <;> omega
  · exact hdone

theorem afterLaunching_weight (launched : Bool) (hpoint : s.point = .launchingDone launched) :
    (s.afterLaunching launched).weight < s.weight := by
  rw [weight_of hpoint]
  unfold afterLaunching
  split
  · split
    · rename_i hagain
      rw [weight_goto, hagain.1]
      simp [rank]
    · rw [weight_goto]
      cases launched <;> simp [rank]
  · split <;> rw [raise, weight_goto] <;> cases launched <;> simp [rank]

variable {pair : ComparisonPair} {event : Event}

theorem startSerial_weight {rest : List ComparisonPair} (hpoint : s.point = .serial)
    (hpending : s.pending = pair :: rest) : (s.startSerial pair rest).weight < s.weight := by
  have hraise : ∀ error, (s.raise error).weight < s.weight := by
    intro error
    rw [raise, weight_goto, weight_of hpoint]
    simp [rank]
  have hsubmit : ∀ popped, s.Pops popped →
      ((s.submit popped).goto .serialRunning).weight < s.weight := by
    intro popped hpops
    have hweight := hpops.weight_submit .serialRunning
    rw [weight_of hpoint]
    simp only [rank] at hweight ⊢
    omega
  unfold startSerial
  split
  · exact hraise _
  · rename_i halloc
    exact hsubmit _ (allocatePair_pops hpending halloc)
  · split
    · exact hraise _
    · rename_i hpool
      exact hsubmit _ ⟨⟨[], rest, hpending, rfl⟩, by simpa using hpool, by simp⟩

theorem Shares.afterResult_weight (h : Shares host s) (hmem : running ∈ s.active)
    (error : Option RunError) {next : Point} (hnext : rank next ≤ 5) :
    (s.afterResult running error next).weight < s.weight := by
  have hlow : 10 * s.pending.length + 6 * s.active.length ≤ s.weight := Nat.le_add_right _ _
  cases error with
  | none =>
    have hweight := h.weight_settle hmem next
    simp only [afterResult]
    omega
  | some error =>
    have hweight := h.weight_settle hmem (.raised error)
    simp only [afterResult, raise]
    simp only [rank] at hweight
    omega

theorem step_weight (h : Sound host s) (hstep : s.step event = some t) : t.weight < s.weight := by
  cases event with
  | proceed =>
    simp only [step] at hstep
    split at hstep
    · rename_i hat
      split at hstep
      · cases hstep
        rw [weight_goto, weight_of hat]
        simp [rank]
      · rename_i hpending
        cases hstep
        exact startSerial_weight hat hpending
    · rename_i hat
      split at hstep <;> cases hstep <;> rw [weight_goto, weight_of hat] <;> simp [rank]
    · rename_i hat
      cases hstep
      exact launch_weight _ hat
    · rename_i hat
      cases hstep
      exact afterLaunching_weight _ hat
    · rename_i hat
      cases hstep
      rw [weight_goto, weight_of hat]
      simp [rank]
    · cases hstep
  | completed done =>
    simp only [step] at hstep
    split at hstep
    · rename_i hat
      split at hstep
      · rename_i hmay
        cases hstep
        obtain ⟨future, rest, rfl⟩ := exists_cons_of_ne_nil hmay.1
        rw [weight_goto, weight_of hat]
        simp [rank]
      · cases hstep
    · cases hstep
  | result error =>
    simp only [step] at hstep
    split at hstep
    · obtain ⟨running, hhead, rfl⟩ := map_eq_some_iff.mp hstep
      exact h.toShares.afterResult_weight (mem_of_head? hhead) error (by simp [rank])
    · obtain ⟨running, hfind, rfl⟩ := map_eq_some_iff.mp hstep
      refine h.toShares.afterResult_weight (find_mem hfind).1 error ?_
      rename_i rest _
      cases rest <;> simp [rank]
    · cases hstep

variable {events : List Event}

/-- No run is longer than the weight it starts with. -/
theorem run_weight (hvalid : host.Valid) (h : Sound host s) (hrun : s.run events = some t) :
    events.length + t.weight ≤ s.weight := by
  induction events generalizing s with
  | nil =>
    cases hrun
    simp
  | cons event events ih =>
    obtain ⟨u, hstep, hrest⟩ := bind_eq_some_iff.mp hrun
    have hlater := ih (step_sound hvalid h hstep) hrest
    have hless := step_weight h hstep
    rw [length_cons]
    omega

/-! ## Clear runs -/

/-- What is still to be done where the main thread is. -/
def Ahead (s : Runner) : Point → Prop
  | .serial | .serialRunning | .raised _ => False
  | .launching _ => s.pending ≠ [] ∨ s.active ≠ []
  | .launchingDone _ => s.active ≠ []
  | .returned => s.pending = []
  | _ => True

/-- The parallel loop goes on as it should: every pair has been started or is pending. -/
structure OnTrack (host : HostPool) (pairs : List ComparisonPair) (s : Runner) : Prop
    extends Sound host s where
  pooled : s.pool.isSome
  limit : 1 ≤ s.maxParallel
  jobs : (s.started ++ s.pending).Perm pairs
  ahead : s.Ahead s.point

theorem Changes.jobs (h : Changes s t) (hjobs : (s.started ++ s.pending).Perm pairs) :
    (t.started ++ t.pending).Perm pairs := by
  cases h with
  | same point => exact hjobs
  | submitted popped point hpops _ =>
    obtain ⟨before, after, hsplit, hrest⟩ := hpops.pending
    refine Perm.trans ?_ hjobs
    simp only [goto, submit, hsplit, hrest, append_assoc, singleton_append]
    exact Perm.append_left _ perm_middle.symm
  | settled running point _ => exact hjobs

section Accepting

variable (haccepts : ∀ pair ∈ pairs, host.Accepts pair)
include haccepts

theorem OnTrack.proper (h : OnTrack host pairs s) :
    ∀ pair ∈ s.pending, pair.Proper := fun pair hpair =>
  (haccepts pair (h.jobs.mem_iff.mp (mem_append_right _ hpair))).proper

/-- With the whole pool the first pending pair is not refused. -/
theorem OnTrack.not_refused (h : OnTrack host pairs s) (hpool : s.pool = some pool)
    (hidle : s.active = []) (hpair : pair ∈ s.pending) : ¬ pool.Refuses pair := by
  have hwhole := h.whole hidle hpool
  have haccept := haccepts pair (h.jobs.mem_iff.mp (mem_append_right _ hpair))
  intro hrefuses
  apply haccept.not_refuses
  unfold HostPool.Refuses at hrefuses ⊢
  rwa [hwhole.memory, hwhole.cpus.length_eq] at hrefuses

theorem OnTrack.launch (h : OnTrack host pairs s) {launched : Bool}
    (hpoint : s.point = .launching launched) (hclear : s.Clear) :
    (s.launch launched).Ahead (s.launch launched).point := by
  have hahead := h.ahead
  rw [hpoint] at hahead
  obtain ⟨pool, hpool⟩ := isSome_iff_exists.mp h.pooled
  unfold Runner.launch
  split
  · rename_i hroom
    cases hpop : popAllocatablePair s.pending s.pool with
    | error error =>
      rw [hpool] at hpop
      exact hclear launched pool hpoint hpool hroom.2
        ((popFrom_error_iff (h.proper haccepts)).mp ⟨error, hpop⟩)
    | ok popped =>
      cases popped with
      | some popped => exact .inr (by simp [goto, submit])
      | none =>
        rw [hpool] at hpop
        intro hidle
        obtain ⟨pair, rest, hpending⟩ := exists_cons_of_ne_nil hroom.1
        have hpair : pair ∈ s.pending := by simp [hpending]
        refine h.not_refused haccepts hpool hidle hpair ?_
        exact (HostPool.allocate_none_iff (h.proper haccepts pair hpair)).mp
          (popFrom_none hpop pair hpair)
  · rename_i hfull
    intro hidle
    change s.active = [] at hidle
    have hlimit := h.limit
    rcases hahead with hpending | hactive
    · exact hfull ⟨hpending, by rw [hidle]; exact hlimit⟩
    · exact hactive hidle

theorem OnTrack.step (hvalid : host.Valid) (h : OnTrack host pairs s) (hclear : s.Clear)
    (hfinishes : event.Finishes) (hstep : s.step event = some t) : OnTrack host pairs t := by
  have hchanges := step_changes h.toSound hstep
  refine ⟨step_sound hvalid h.toSound hstep, ?_, ?_, hchanges.jobs h.jobs, ?_⟩
  · rw [hchanges.setting.2]
    exact h.pooled
  · rw [hchanges.setting.1]
    exact h.limit
  have hahead := h.ahead
  cases event with
  | proceed =>
    simp only [Runner.step] at hstep
    split at hstep
    · rename_i hat
      rw [hat] at hahead
      exact hahead.elim
    · split at hstep
      · rename_i hdone
        cases hstep
        exact hdone.1
      · rename_i hmore
        cases hstep
        exact Classical.not_and_iff_not_or_not.mp hmore
    · rename_i hat
      cases hstep
      exact h.launch haccepts hat hclear
    · rename_i hat
      rw [hat] at hahead
      cases hstep
      change s.active ≠ [] at hahead
      unfold afterLaunching
      rw [if_pos hahead]
      split <;> trivial
    · cases hstep
      trivial
    · cases hstep
  | completed done =>
    simp only [Runner.step] at hstep
    split at hstep
    · split at hstep <;> cases hstep
      trivial
    · cases hstep
  | result error =>
    have hnone : error = none := hfinishes
    simp only [Runner.step, hnone] at hstep
    split at hstep
    · rename_i hat
      rw [hat] at hahead
      exact hahead.elim
    · obtain ⟨running, hfind, rfl⟩ := map_eq_some_iff.mp hstep
      trivial
    · cases hstep

end Accepting

/-- Until it has returned, a run on track can go on. -/
theorem OnTrack.goesOn (h : OnTrack host pairs s) (hpoint : s.point ≠ .returned) :
    ∃ event, event.Finishes ∧ (s.step event).isSome := by
  have hahead := h.ahead
  have hat := h.atPoint
  cases hwhere : s.point with
  | serial | serialRunning | raised =>
    rw [hwhere] at hahead
    exact hahead.elim
  | returned => exact absurd hwhere hpoint
  | outerLoop =>
    refine ⟨.proceed, trivial, ?_⟩
    simp only [Runner.step, hwhere]
    split <;> rfl
  | launching launched => exact ⟨.proceed, trivial, by simp only [Runner.step, hwhere]; rfl⟩
  | launchingDone launched => exact ⟨.proceed, trivial, by simp only [Runner.step, hwhere]; rfl⟩
  | waiting =>
    rw [hwhere] at hat
    obtain ⟨running, rest, hactive⟩ := exists_cons_of_ne_nil hat
    have hmay : s.MayComplete [running.future] := by
      refine ⟨cons_ne_nil _ _, nodup_singleton _, ?_⟩
      simp [hactive]
    refine ⟨.completed [running.future], trivial, ?_⟩
    simp only [Runner.step, hwhere, if_pos hmay]
    rfl
  | collecting done =>
    rw [hwhere] at hat
    cases done with
    | nil => exact ⟨.proceed, trivial, by simp only [Runner.step, hwhere]; rfl⟩
    | cons future rest =>
      obtain ⟨running, hmem, hown⟩ := mem_map.mp (hat.2 future mem_cons_self)
      have hfound : (s.find future).isSome := find?_isSome.mpr ⟨running, hmem, by simpa⟩
      refine ⟨.result none, rfl, ?_⟩
      simpa only [Runner.step, hwhere, isSome_map] using hfound

theorem run_append {front rest : List Event} :
    s.run (front ++ rest) = (s.run front).bind fun u => u.run rest := by
  simp only [run, foldlM_append]
  rfl

/-- Every state that the run goes through is clear. -/
def ClearRun (s : Runner) (events : List Event) : Prop :=
  ∀ front u, front <+: events → s.run front = some u → u.Clear

theorem OnTrack.run (hvalid : host.Valid) (haccepts : ∀ pair ∈ pairs, host.Accepts pair)
    (hfinish : ∀ event ∈ events, event.Finishes) (h : OnTrack host pairs s)
    (hclear : s.ClearRun events) (hrun : s.run events = some t) : OnTrack host pairs t := by
  induction events generalizing s with
  | nil =>
    cases hrun
    exact h
  | cons event events ih =>
    obtain ⟨u, hstep, hrest⟩ := bind_eq_some_iff.mp hrun
    have hown : s.Clear := hclear [] s nil_prefix rfl
    refine ih (fun other hother => hfinish other (mem_cons_of_mem _ hother))
      (h.step haccepts hvalid hown (hfinish event mem_cons_self) hstep) ?_ hrest
    intro front v hfront hv
    refine hclear (event :: front) v (cons_prefix_cons.mpr ⟨rfl, hfront⟩) ?_
    exact bind_eq_some_iff.mpr ⟨u, hstep, hv⟩

/-- A run that goes through a state that is not clear does not return. -/
theorem clear_of_returned (hproper : ∀ pair ∈ s.pending, pair.Proper) (hrun : s.run events = some t)
    (hreturned : t.point = .returned) : s.Clear := by
  intro launched pool hpoint hpool hroom htrips
  have hpending : s.pending ≠ [] := by
    obtain ⟨before, pair, after, hsplit, _⟩ := htrips
    simp [hsplit]
  obtain ⟨error, herror⟩ := (popFrom_error_iff hproper).mpr htrips
  have hraises : s.launch launched = s.raise error := by
    unfold Runner.launch
    rw [if_pos ⟨hpending, hroom⟩, hpool]
    simp only [popAllocatablePair, herror]
  cases events with
  | nil =>
    cases hrun
    rw [hpoint] at hreturned
    cases hreturned
  | cons event events =>
    obtain ⟨u, hstep, hrest⟩ := bind_eq_some_iff.mp hrun
    have hu : u = s.raise error := by
      cases event with
      | proceed =>
        simp only [Runner.step, hpoint, hraises, some.injEq] at hstep
        exact hstep.symm
      | completed done => simp [Runner.step, hpoint] at hstep
      | result error => simp [Runner.step, hpoint] at hstep
    subst hu
    cases events with
    | nil =>
      cases hrest
      cases hreturned
    | cons event events =>
      obtain ⟨v, hnext, _⟩ := bind_eq_some_iff.mp hrest
      cases event <;> cases hnext

end Runner

/-! ## Uniform hosts -/

/-- All cores have the same number of siblings. -/
def HostPool.Uniform (host : HostPool) (width : ℕ) : Prop :=
  ∀ group ∈ host.freeCores, group.siblings.length = width

variable {width : ℕ}

theorem length_cpusOf (h : ∀ group ∈ groups, group.siblings.length = width) :
    (cpusOf groups).length = groups.length * width := by
  induction groups with
  | nil => simp
  | cons group groups ih =>
    rw [forall_mem_cons] at h
    rw [cpusOf_cons, length_append, ih h.2, h.1, length_cons, Nat.succ_mul, Nat.add_comm]

variable {host : HostPool}

/-- On a uniform host an accepted pair asks for a multiple of the width, which no prefix of the free
list jumps over. -/
theorem HostPool.Uniform.not_overshoots {pair : ComparisonPair} (h : host.Uniform width)
    (haccepts : host.Accepts pair) (hsub : ∀ group ∈ pool.freeCores, group ∈ host.freeCores) :
    ¬ pool.Overshoots pair := by
  rintro ⟨-, taken, group, rest, hsplit, hfew, hmany⟩
  obtain ⟨allocation, pool', hgranted⟩ := haccepts
  have hcases := host.allocate_cases pair.spec
  rw [hgranted] at hcases
  cases hcases with
  | @granted bytes selected others _ hbytes hmemory hfree hselected hvcpus =>
    have hmem : ∀ other ∈ taken ++ group :: rest, other.siblings.length = width := by
      intro other hother
      rw [← hsplit] at hother
      exact h other (hsub other hother)
    have htaken : (cpusOf taken).length = taken.length * width :=
      length_cpusOf fun other hother => hmem other (mem_append_left _ hother)
    have hnext : (cpusOf (taken ++ [group])).length = (taken.length + 1) * width := by
      rw [cpusOf_append, length_append, htaken, cpusOf_cons, cpusOf_nil, append_nil,
        hmem group (by simp), Nat.succ_mul]
    have hasked : (cpusOf selected).length = selected.length * width :=
      length_cpusOf fun other hother => h other (by rw [hfree]; exact mem_append_left _ hother)
    rw [← hvcpus, hasked, hnext, Int.ofNat_lt] at hmany
    have hatMost : selected.length < taken.length + 1 := Nat.lt_of_mul_lt_mul_right hmany
    rcases hfew with rfl | hfew
    · -- Something is selected, since the host has groups.
      have hne : host.freeCores ≠ [] := ne_nil_of_mem (hsub group (by simp [hsplit]))
      obtain ⟨before, last, _, _, hown, _⟩ := selectGroups_stop pair.spec.machine.vcpus hne 0
      rw [hselected, hown, length_append, length_singleton] at hatMost
      simp at hatMost
    · rw [← hvcpus, hasked, htaken, Int.ofNat_lt] at hfew
      have hatLeast : taken.length < selected.length := Nat.lt_of_mul_lt_mul_right hfew
      omega

/-- On a uniform host every run is clear. -/
theorem uniform_clearRun (hvalid : host.Valid) (huniform : host.Uniform width)
    {pairs : List ComparisonPair} (haccepts : ∀ pair ∈ pairs, host.Accepts pair) {s : Runner}
    (h : s.OnTrack host pairs) (events : List Event) : s.ClearRun events := by
  rintro front u - hfront launched pool _ hpool _ ⟨before, pair, after, hsplit, _, hover⟩
  obtain ⟨hsound, hjobs⟩ := Runner.run_keeps hvalid
    (I := fun s => (s.started ++ s.pending).Perm pairs)
    (fun s t event h hs hstep => (Runner.step_changes h hstep).jobs hs) h.toSound h.jobs hfront
  have hpair : pair ∈ pairs := hjobs.mem_iff.mp (by simp [hsplit])
  refine huniform.not_overshoots (haccepts pair hpair) ?_ hover
  intro group hgroup
  exact ((hsound.ledger pool hpool).groups group).mpr (.inl hgroup)

theorem runPairsParallel_onTrack (hvalid : host.Valid) (pairs : List ComparisonPair) {limit : ℤ}
    (hlimit : 2 ≤ limit) : (runPairsParallel pairs (some host) limit).OnTrack host pairs := by
  have hsound : (runPairsParallel pairs (some host) limit).Sound host := by
    refine runPairsParallel_sound limit ?_
    intro pool hpool
    cases hpool
    exact .idle hvalid
  have hstart : runPairsParallel pairs (some host) limit =
      ⟨limit.toNat, some host, pairs, [], [], .outerLoop⟩ := by
    unfold runPairsParallel
    rw [if_neg (by omega)]
  refine ⟨hsound, ?_, ?_, ?_, ?_⟩ <;> rw [hstart]
  · rfl
  · change 1 ≤ limit.toNat
    omega
  · rfl
  · trivial

/-- A run of `_run_pairs_parallel` in which the pairs finish without error has a bounded number of
steps. When it cannot go on, it has returned with every pair started once if and only if every
state it went through was clear. -/
theorem parallel_run_completes_iff_clear {host : HostPool} (hvalid : host.Valid)
    {pairs : List ComparisonPair} (haccepts : ∀ pair ∈ pairs, host.Accepts pair) {limit : ℤ}
    (hlimit : 2 ≤ limit) {events : List Event} {t : Runner}
    (hrun : (runPairsParallel pairs (some host) limit).run events = some t)
    (hfinish : ∀ event ∈ events, event.Finishes) :
    events.length ≤ 10 * pairs.length + 4 ∧
      ((∃ event, event.Finishes ∧ (t.step event).isSome) ∨
        (t.point = .returned ∧ t.started.Perm pairs ↔
          (runPairsParallel pairs (some host) limit).ClearRun events)) := by
  have hstart := runPairsParallel_onTrack hvalid pairs hlimit
  constructor
  · have hweight := Runner.run_weight hvalid hstart.toSound hrun
    have hfirst : (runPairsParallel pairs (some host) limit).weight = 10 * pairs.length + 4 := by
      unfold runPairsParallel
      rw [if_neg (by omega)]
      rfl
    omega
  by_cases hon : ∃ event, event.Finishes ∧ (t.step event).isSome
  · exact .inl hon
  right
  constructor
  · rintro ⟨hreturned, _⟩ front u ⟨rest, hsplit⟩ hfront
    have hjobs := (Runner.run_keeps hvalid (I := fun s => (s.started ++ s.pending).Perm pairs)
      (fun s t event h hs hstep => (Runner.step_changes h hstep).jobs hs)
      hstart.toSound hstart.jobs hfront).2
    have hrest : u.run rest = some t := by
      rw [← hsplit, Runner.run_append, hfront] at hrun
      exact hrun
    refine Runner.clear_of_returned ?_ hrest hreturned
    intro pair hpair
    exact (haccepts pair (hjobs.mem_iff.mp (mem_append_right _ hpair))).proper
  · intro hclear
    have htrack := hstart.run hvalid haccepts hfinish hclear hrun
    have hreturned : t.point = .returned := by
      by_contra hpoint
      exact hon (htrack.goesOn hpoint)
    have hahead := htrack.ahead
    have hjobs := htrack.jobs
    rw [hreturned] at hahead
    change t.pending = [] at hahead
    rw [hahead, append_nil] at hjobs
    exact ⟨hreturned, hjobs⟩

/-- Both pairs start, the second one finishes first. -/
def twinEvents : List Event :=
  [.proceed, .proceed, .proceed, .proceed, .proceed, .completed [1], .result none, .proceed,
    .proceed, .proceed, .proceed, .completed [0], .result none, .proceed, .proceed]

theorem parallel_run_completes_twins :
    ∃ t, (runPairsParallel [twinPair 1, twinPair 2] (some twinHost) 2).run twinEvents = some t ∧
      t.point = .returned ∧
      (runPairsParallel [twinPair 1, twinPair 2] (some twinHost) 2).ClearRun twinEvents := by
  have haccepts : ∀ pair ∈ [twinPair 1, twinPair 2], twinHost.Accepts pair := by
    intro pair hpair
    rcases mem_pair.mp hpair with rfl | rfl <;> exact ⟨_, _, rfl⟩
  have hend : ((runPairsParallel [twinPair 1, twinPair 2] (some twinHost) 2).run twinEvents).map
      (fun t => (t.point, t.started)) = some (.returned, [twinPair 1, twinPair 2]) := by
    decide +kernel
  obtain ⟨t, hrun, hend⟩ := map_eq_some_iff.mp hend
  obtain ⟨hpoint, hstarted⟩ := Prod.mk.inj hend
  refine ⟨t, hrun, hpoint, ?_⟩
  have hresult := (parallel_run_completes_iff_clear ⟨by decide, by decide⟩ haccepts (by decide) hrun
    (by simp [twinEvents, Event.Finishes])).2
  refine (hresult.resolve_left ?_).mp ⟨hpoint, by rw [hstarted]⟩
  rintro ⟨event, _, hstep⟩
  cases event <;> simp [Runner.step, hpoint] at hstep

/-- On a uniform host a run whose pairs finish without error returns in a bounded number of steps,
with every pair started once. -/
theorem parallel_run_completes_on_uniform (hvalid : host.Valid) (huniform : host.Uniform width)
    {pairs : List ComparisonPair} (haccepts : ∀ pair ∈ pairs, host.Accepts pair) {limit : ℤ}
    (hlimit : 2 ≤ limit) {events : List Event} {t : Runner}
    (hrun : (runPairsParallel pairs (some host) limit).run events = some t)
    (hfinish : ∀ event ∈ events, event.Finishes) :
    events.length ≤ 10 * pairs.length + 4 ∧
      ((∃ event, event.Finishes ∧ (t.step event).isSome) ∨
        t.point = .returned ∧ t.started.Perm pairs) := by
  have hstart := runPairsParallel_onTrack hvalid pairs hlimit
  have htrack := hstart.run hvalid haccepts hfinish
    (uniform_clearRun hvalid huniform haccepts hstart events) hrun
  have hweight := Runner.run_weight hvalid hstart.toSound hrun
  have hfirst : (runPairsParallel pairs (some host) limit).weight = 10 * pairs.length + 4 := by
    unfold runPairsParallel
    rw [if_neg (by omega)]
    rfl
  refine ⟨by omega, ?_⟩
  rw [or_iff_not_imp_left]
  intro hstuck
  have hreturned : t.point = .returned := by_contra fun hpoint => hstuck (htrack.goesOn hpoint)
  have hahead := htrack.ahead
  have hjobs := htrack.jobs
  rw [hreturned] at hahead
  change t.pending = [] at hahead
  rw [hahead, append_nil] at hjobs
  exact ⟨hreturned, hjobs⟩

theorem parallel_run_completes_on_twins :
    ∃ t, (runPairsParallel [twinPair 1, twinPair 2] (some twinHost) 2).run twinEvents = some t ∧
      t.started.Perm [twinPair 1, twinPair 2] := by
  have haccepts : ∀ pair ∈ [twinPair 1, twinPair 2], twinHost.Accepts pair := by
    intro pair hpair
    rcases mem_pair.mp hpair with rfl | rfl <;> exact ⟨_, _, rfl⟩
  have hend : ((runPairsParallel [twinPair 1, twinPair 2] (some twinHost) 2).run twinEvents).map
      (·.point) = some .returned := by
    decide +kernel
  obtain ⟨t, hrun, hpoint⟩ := map_eq_some_iff.mp hend
  have huniform : twinHost.Uniform 2 := by
    unfold HostPool.Uniform
    decide
  have hresult := (parallel_run_completes_on_uniform ⟨by decide, by decide⟩ huniform haccepts
    (by decide) hrun (by simp [twinEvents, Event.Finishes])).2
  refine ⟨t, hrun, (hresult.resolve_left ?_).2⟩
  rintro ⟨event, _, hstep⟩
  cases event <;> simp [Runner.step, hpoint] at hstep

/-- A core with one sibling and a core with two. -/
def hybridHost : HostPool := ⟨[⟨0, 0, [0]⟩, ⟨0, 1, [1, 2]⟩], 8 * 1024 ^ 3, "use_all_siblings"⟩

def singlePair (index : ℕ) : ComparisonPair := ⟨index, "tiny", 1, "1G", some "auto"⟩

/-- The second pair does not wait for the core that the first one holds. -/
theorem parallel_run_raises_on_hybrid :
    hybridHost.Valid ∧ (∀ pair ∈ [singlePair 1, singlePair 2], hybridHost.Accepts pair) ∧
      ∃ t, (runPairsParallel [singlePair 1, singlePair 2] (some hybridHost) 2).run
          [.proceed, .proceed, .proceed] = some t ∧
        t.started = [singlePair 1] ∧
        t.point = .raised (.configError
          ("machines.tiny.vcpus must match whole SMT sibling groups; " ++
            "requested 1, next allocation would provide 2")) := by
  refine ⟨⟨by decide, by decide⟩, ?_, ?_⟩
  · intro pair hpair
    rcases mem_pair.mp hpair with rfl | rfl <;> exact ⟨_, _, rfl⟩
  · have hend : ((runPairsParallel [singlePair 1, singlePair 2] (some hybridHost) 2).run
        [.proceed, .proceed, .proceed]).map (fun t => (t.started, t.point)) =
        some ([singlePair 1], .raised (.configError
          ("machines.tiny.vcpus must match whole SMT sibling groups; " ++
            "requested 1, next allocation would provide 2"))) := by
      decide +kernel
    obtain ⟨t, hrun, hend⟩ := map_eq_some_iff.mp hend
    obtain ⟨hstarted, hpoint⟩ := Prod.mk.inj hend
    exact ⟨t, hrun, hstarted, hpoint⟩

end ScxAgent.Bench
