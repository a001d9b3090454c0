import Mathlib
import ScxAgent.Bench.CpuList

/-!
# The host resource pool and the runner of comparison pairs

`bench/scripts/run.py` gives every comparison pair whole sibling groups of isolated CPUs and an
amount of memory. The pool hands out a prefix of its free list. The pairs are started in order
of what can be allocated, and whichever finishes first gives its share back. The runner is a state
machine here: it stops at each point where the source waits for another thread, so a run is
determined by the futures that `wait` returns and by the results of these.
-/

namespace ScxAgent.Bench

open PyText

structure CoreGroup where
  packageId : ℤ
  coreId : ℤ
  siblings : List ℕ
  deriving DecidableEq, Repr

/-- The order of the keys `(package_id, core_id, siblings)`. -/
def CoreGroup.le (a b : CoreGroup) : Prop :=
  a.packageId < b.packageId ∨ a.packageId = b.packageId ∧
    (a.coreId < b.coreId ∨ a.coreId = b.coreId ∧ a.siblings ≤ b.siblings)

instance : DecidableRel CoreGroup.le := fun a b => by unfold CoreGroup.le; infer_instance

/-- The fields of a machine that the runner reads. -/
structure Machine where
  vcpus : ℤ
  memory : String
  pinCpus : Option String
  deriving DecidableEq, Repr

structure RunSpec where
  machineName : String
  machine : Machine
  deriving DecidableEq, Repr

structure ComparisonPair where
  index : ℕ
  spec : RunSpec
  deriving DecidableEq, Repr

inductive RunError where
  | configError (message : String)
  | valueError
  | indexError
  /-- The error of a pair, as its future reports it. -/
  | pairFailed (reason : String)
  deriving DecidableEq, Repr

/-! ## Sizes -/

def unitOf (c : Char) : Option ℕ :=
  if c = 'K' then some 1024
  else if c = 'M' then some (1024 ^ 2)
  else if c = 'G' then some (1024 ^ 3)
  else if c = 'T' then some (1024 ^ 4)
  else none

/-- The digits of a number and what they are multiplied by. -/
def splitUnit (text : Text) : Text × ℕ :=
  match text.getLast?.bind unitOf with
  | some multiplier => (text.dropLast, multiplier)
  | none => (text, 1)

def parseMemoryBytes (value : String) : Except RunError ℕ :=
  let text := (strip value.toList).map Char.toUpper
  let (number, multiplier) := splitUnit text
  if isDigits number then .ok (digitsValue number * multiplier)
  else .error (.configError s!"invalid memory size: {value}")

def formatSortedCpuList (cpus : List ℕ) : String := formatCpuList (cpus.insertionSort (· ≤ ·))

/-! ## The pool -/

structure Placement where
  cpuSource : String
  smtPolicy : String
  pinCpus : String
  reservedCpus : String
  memory : String
  physicalCores : List CoreGroup
  deriving DecidableEq, Repr

structure Allocation where
  pinCpus : String
  reservedCpus : String
  memoryBytes : ℕ
  placement : Placement
  deriving DecidableEq, Repr

structure HostPool where
  freeCores : List CoreGroup
  memoryFree : ℤ
  smtPolicy : String
  deriving DecidableEq, Repr

/-- The CPUs of a list of groups. -/
def cpusOf (groups : List CoreGroup) : List ℕ := groups.flatMap CoreGroup.siblings

/-- The loop of `allocate`: groups are taken until there are enough CPUs or no groups. -/
def selectGroups (vcpus : ℤ) : ℕ → List CoreGroup → List CoreGroup × ℕ
  | logicalCount, [] => ([], logicalCount)
  | logicalCount, group :: rest =>
    let logicalCount := logicalCount + group.siblings.length
    if vcpus ≤ logicalCount then ([group], logicalCount)
    else
      let (selected, total) := selectGroups vcpus logicalCount rest
      (group :: selected, total)

def HostPool.placementFor (pool : HostPool) (spec : RunSpec) (selected : List CoreGroup) :
    Placement where
  cpuSource := "isolated"
  smtPolicy := pool.smtPolicy
  pinCpus := formatSortedCpuList (cpusOf selected)
  reservedCpus := formatSortedCpuList (cpusOf selected)
  memory := spec.machine.memory
  physicalCores := selected

def HostPool.allocate (pool : HostPool) (spec : RunSpec) :
    Except RunError (Option (Allocation × HostPool)) := do
  let memoryBytes ← parseMemoryBytes spec.machine.memory
  if pool.memoryFree < memoryBytes then return none
  let (selected, logicalCount) := selectGroups spec.machine.vcpus 0 pool.freeCores
  if logicalCount < spec.machine.vcpus then return none
  if logicalCount ≠ spec.machine.vcpus then
    throw (.configError
      (s!"machines.{spec.machineName}.vcpus must match whole SMT sibling groups; " ++
        s!"requested {spec.machine.vcpus}, next allocation would provide {logicalCount}"))
  let placement := pool.placementFor spec selected
  return some (⟨placement.pinCpus, placement.reservedCpus, memoryBytes, placement⟩,
    { pool with
      freeCores := pool.freeCores.filter (· ∉ selected)
      memoryFree := pool.memoryFree - memoryBytes })

def HostPool.release (pool : HostPool) (allocation : Allocation) : HostPool :=
  { pool with
    freeCores := (pool.freeCores ++ allocation.placement.physicalCores).insertionSort CoreGroup.le
    memoryFree := pool.memoryFree + allocation.memoryBytes }

/-! ## The runner -/

/-- An entry of the dictionary of active futures. -/
structure Running where
  future : ℕ
  pair : ComparisonPair
  allocation : Option Allocation
  deriving DecidableEq, Repr

/-- Where the main thread is. -/
inductive Point where
  /-- `for pair in pairs`, with one pair at a time -/
  | serial
  /-- the pair of the serial loop runs -/
  | serialRunning
  /-- `while pending or active` -/
  | outerLoop
  /-- `while pending and len(active) < max_parallel` -/
  | launching (launched : Bool)
  /-- behind that loop -/
  | launchingDone (launched : Bool)
  /-- in `wait` -/
  | waiting
  /-- `for future in done` -/
  | collecting (done : List ℕ)
  | returned
  | raised (error : RunError)
  deriving DecidableEq, Repr

structure Runner where
  maxParallel : ℕ
  pool : Option HostPool
  pending : List ComparisonPair
  active : List Running
  /-- The pairs whose run has been started, in this order. -/
  started : List ComparisonPair
  point : Point
  deriving DecidableEq, Repr

def allocatePair (pool : Option HostPool) (pair : ComparisonPair) :
    Except RunError (Option (Allocation × HostPool)) :=
  match pool with
  | none => .ok none
  | some pool => pool.allocate pair.spec

/-- What is left of the pending pairs when one of them has been popped, that pair, its allocation
and the pool. -/
structure Popped where
  pair : ComparisonPair
  pending : List ComparisonPair
  allocation : Option Allocation
  pool : Option HostPool
  deriving DecidableEq, Repr

def popFrom (pool : HostPool) : List ComparisonPair → Except RunError (Option Popped)
  | [] => .ok none
  | pair :: rest => do
    match ← pool.allocate pair.spec with
    | some (allocation, pool') => return some ⟨pair, rest, some allocation, some pool'⟩
    | none =>
      return (← popFrom pool rest).map fun popped =>
        { popped with pending := pair :: popped.pending }

def popAllocatablePair (pending : List ComparisonPair) (pool : Option HostPool) :
    Except RunError (Option Popped) :=
  match pool, pending with
  | none, [] => .error .indexError
  | none, pair :: rest => .ok (some ⟨pair, rest, none, none⟩)
  | some pool, pending => popFrom pool pending

def insufficientResources (pair : ComparisonPair) : RunError :=
  .configError
    (s!"insufficient isolated CPU or memory resources for pair {pair.index}: " ++
      s!"machine={pair.spec.machineName} vcpus={pair.spec.machine.vcpus} " ++
      s!"memory={pair.spec.machine.memory}")

namespace Runner

def goto (s : Runner) (point : Point) : Runner := { s with point }

def raise (s : Runner) (error : RunError) : Runner := s.goto (.raised error)

/-- `executor.submit`: the future is the number of pairs submitted before. -/
def submit (s : Runner) (popped : Popped) : Runner :=
  { s with
    pool := popped.pool
    pending := popped.pending
    active := s.active ++ [⟨s.started.length, popped.pair, popped.allocation⟩]
    started := s.started ++ [popped.pair] }

/-- `active.pop(future)` and, whatever the result was, the release of its allocation. -/
def settle (s : Runner) (running : Running) : Runner :=
  { s with
    active := s.active.filter (·.future ≠ running.future)
    pool := match s.pool, running.allocation with
      | some pool, some allocation => some (pool.release allocation)
      | pool, _ => pool }

def find (s : Runner) (future : ℕ) : Option Running := s.active.find? (·.future = future)

end Runner

/-- What the other threads decide. -/
inductive Event where
  /-- Nothing: the main thread goes on by itself. -/
  | proceed
  /-- `wait` returns these futures; the loop goes through them in this order. -/
  | completed (done : List ℕ)
  /-- The result of the future at hand, or of the pair of the serial loop. -/
  | result (error : Option RunError)
  deriving DecidableEq, Repr

namespace Runner

def startSerial (s : Runner) (pair : ComparisonPair) (rest : List ComparisonPair) : Runner :=
  match allocatePair s.pool pair with
  | .error error => s.raise error
  | .ok (some (allocation, pool)) =>
    (s.submit ⟨pair, rest, some allocation, some pool⟩).goto .serialRunning
  | .ok none =>
    if s.pool.isSome then s.raise (insufficientResources pair)
    else (s.submit ⟨pair, rest, none, none⟩).goto .serialRunning

def launch (s : Runner) (launched : Bool) : Runner :=
  if s.pending ≠ [] ∧ s.active.length < s.maxParallel then
    match popAllocatablePair s.pending s.pool with
    | .error error => s.raise error
    | .ok none => s.goto (.launchingDone launched)
    | .ok (some popped) => (s.submit popped).goto (.launching true)
  else s.goto (.launchingDone launched)

def afterLaunching (s : Runner) (launched : Bool) : Runner :=
  if s.active ≠ [] then
    if launched ∧ s.pending ≠ [] ∧ s.active.length < s.maxParallel then s.goto .outerLoop
    else s.goto .waiting
  else
    match s.pending with
    | [] => s.raise .indexError
    | blocked :: _ => s.raise (insufficientResources blocked)

def afterResult (s : Runner) (running : Running) (error : Option RunError) (next : Point) :
    Runner :=
  match error with
  | none => (s.settle running).goto next
  | some error => (s.settle running).raise error

/-- The futures that `wait` may return: some of the active ones, each once. -/
def MayComplete (s : Runner) (done : List ℕ) : Prop :=
  done ≠ [] ∧ done.Nodup ∧ ∀ future ∈ done, future ∈ s.active.map Running.future

instance (s : Runner) (done : List ℕ) : Decidable (s.MayComplete done) := by
  unfold MayComplete; infer_instance

/-- One step of the main thread; `none` where the event cannot happen. -/
def step (s : Runner) : Event → Option Runner
  | .proceed =>
    match s.point with
    | .serial =>
      match s.pending with
      | [] => some (s.goto .returned)
      | pair :: rest => some (s.startSerial pair rest)
    | .outerLoop =>
      if s.pending = [] ∧ s.active = [] then some (s.goto .returned)
      else some (s.goto (.launching false))
    | .launching launched => some (s.launch launched)
    | .launchingDone launched => some (s.afterLaunching launched)
    | .collecting [] => some (s.goto .outerLoop)
    | _ => none
  | .completed done =>
    match s.point with
    | .waiting => if s.MayComplete done then some (s.goto (.collecting done)) else none
    | _ => none
  | .result error =>
    match s.point with
    | .serialRunning => s.active.head?.map fun running => s.afterResult running error .serial
    | .collecting (future :: rest) =>
      (s.find future).map fun running => s.afterResult running error (.collecting rest)
    | _ => none

def run (s : Runner) (events : List Event) : Option Runner := events.foldlM step s

end Runner

inductive Parallel where
  | auto
  | count (n : ℤ)
  deriving DecidableEq, Repr

def autoPinning (pairs : List ComparisonPair) : Bool :=
  pairs.any fun pair => pair.spec.machine.pinCpus == some "auto"

def maxParallel (pairs : List ComparisonPair) : Parallel → ℤ
  | .auto => pairs.length
  | .count n => n

/-- `_run_pairs_parallel` at its start. The thread pool refuses a limit below one. -/
def runPairsParallel (pairs : List ComparisonPair) (pool : Option HostPool) (limit : ℤ) : Runner :=
  let runner : Runner := ⟨limit.toNat, pool, pairs, [], [], .outerLoop⟩
  if limit ≤ 0 then runner.raise .valueError else runner

/-- `_run_pairs` at its start, where `host` is the pool that the configuration gives. -/
def runPairs (pairs : List ComparisonPair) (host : HostPool) (parallel : Parallel) : Runner :=
  let limit := maxParallel pairs parallel
  let pool := if autoPinning pairs then some host else none
  let runner : Runner := ⟨limit.toNat, pool, pairs, [], [], .serial⟩
  if pairs = [] then runner.goto .returned
  else if 1 < limit ∧ ¬ autoPinning pairs then
    runner.raise (.configError "parallel execution requires machines.*.pin_cpus: auto")
  else if limit = 1 then runner
  else runPairsParallel pairs pool limit

end ScxAgent.Bench
