import Mathlib.Data.List.Sort
import ScxAgent.Bench.CpuList

/-!
# Host isolation

`bench/env/isolation.py` reserves CPUs of the host for benchmarks. `prepare` saves what it is going
to change and edits the kernel command line in the GRUB defaults, `apply-runtime` fixes the
frequency of the reserved CPUs and moves interrupts away from them, and `restore` writes the saved
values back. Every operation on a file succeeds here, the caller is root, and the service that
`prepare` starts is one more `apply-runtime`.
-/

namespace ScxAgent.Bench.Isolation

open PyText

inductive Setting where
  | scalingGovernor
  | scalingMinFreq
  | scalingMaxFreq
  deriving DecidableEq, Repr

/-- The files that say which CPUs serve interrupts. -/
inductive IrqFile where
  | smpAffinityList (irq : ℕ)
  | rpsCpus (queue : String)
  | xpsCpus (queue : String)
  deriving DecidableEq, Repr

inductive Failure where
  | configError (message : String)
  | runtimeError (message : String)
  /-- an exception that `main` does not catch -/
  | uncaught (message : String)
  deriving DecidableEq, Repr

/-- The saved state, as far as it is read back. -/
structure SavedState where
  targetCpus : List ℕ
  housekeepingCpus : List ℕ
  irqCpus : List ℕ
  originalGrub : Text
  cpufreq : List (ℕ × (Setting → Text))
  irq : List (IrqFile × Text)

structure World where
  hostCpus : List ℕ
  grub : Text
  /-- The directory `cpufreq` of a CPU and the files in it. -/
  cpufreq : ℕ → Option (Setting → Option Text)
  irq : List (IrqFile × Text)
  saved : Option SavedState

/-- What `prepare` takes from the configuration: the lists of the executor, and the CPUs of the
machines that the plan uses. -/
structure Config where
  isolatedCpus : Option Text
  irqCpus : Option Text
  pinCpus : List Text
  deriving DecidableEq, Repr

/-- `shlex.split`; the error is the message of its `ValueError`. -/
class Shlex where
  split : Text → Except String (List Text)

/-! ## The kernel command line -/

def bootArgKeys : List Text :=
  ["isolcpus".toList, "nohz_full".toList, "rcu_nocbs".toList, "irqaffinity".toList]

def bootArgs (targetCpuList irqCpuList : Text) : List Text :=
  ["isolcpus=domain,managed_irq,".toList ++ targetCpuList, "nohz_full=".toList ++ targetCpuList,
    "rcu_nocbs=".toList ++ targetCpuList, "irqaffinity=".toList ++ irqCpuList]

def joinCmdline (tokens : List Text) : Text := join [' '] tokens

def grubVariable : Text := "GRUB_CMDLINE_LINUX_DEFAULT".toList

/-- The line cut into what stands before the opening quote, the quote, and what stands between
the quotes. -/
def matchGrubVar (line : Text) : Option (Text × Char × Text) :=
  let indent := line.takeWhile isSpace
  let body := line.dropWhile isSpace
  if grubVariable.isPrefixOf body then
    let behind := body.drop grubVariable.length
    let gap := behind.takeWhile isSpace
    match behind.dropWhile isSpace with
    | equals :: value =>
      if equals = '=' then
        let gap' := value.takeWhile isSpace
        match value.dropWhile isSpace with
        | quote :: quoted =>
          let quoted := rstrip quoted
          if (quote = '\'' ∨ quote = '"') ∧ quoted.getLast? = some quote then
            some (indent ++ grubVariable ++ gap ++ ['='] ++ gap', quote, quoted.dropLast)
          else none
        | [] => none
      else none
    | [] => none
  else none

section

variable [Shlex]

def setGrubVar (line : Text) (bootArgs : List Text) : Except Failure Text :=
  match matchGrubVar line with
  | none => .error (.runtimeError
      s!"unsupported GRUB_CMDLINE_LINUX_DEFAULT format: {String.ofList line}")
  | some (start, quote, value) =>
    match Shlex.split value with
    | .error message => .error (.uncaught message)
    | .ok tokens =>
      let tokens := tokens.filter fun token =>
        ((splitOnce '=' token).elim token Prod.fst) ∉ bootArgKeys
      .ok (start ++ [quote] ++ joinCmdline (tokens ++ bootArgs) ++ [quote])

def updateLines (bootArgs : List Text) : List Text → Except Failure (List Text × Bool)
  | [] => .ok ([], false)
  | line :: rest =>
    if (grubVariable ++ ['=']).isPrefixOf (strip line) then do
      let line ← setGrubVar line bootArgs
      let (rest, _) ← updateLines bootArgs rest
      return (line :: rest, true)
    else do
      let (rest, updated) ← updateLines bootArgs rest
      return (line :: rest, updated)

def updateGrubCmdline (text : Text) (bootArgs : List Text) : Except Failure Text := do
  let (lines, updated) ← updateLines bootArgs (splitlines text)
  let lines :=
    if updated then lines
    else lines ++ [grubVariable ++ "=\"".toList ++ joinCmdline bootArgs ++ ['"']]
  return join ['\n'] lines ++ ['\n']

end

/-! ## Files -/

/-- `read_text` and `strip`. -/
def readValue (contents : Text) : Text := strip (universalNewlines contents)

namespace World

def file (w : World) (cpu : ℕ) (setting : Setting) : Option Text :=
  (w.cpufreq cpu).bind fun files => files setting

/-- `read_text_optional`. -/
def value (w : World) (cpu : ℕ) (setting : Setting) : Text :=
  ((w.file cpu setting).map readValue).getD []

/-- Writes a frequency file if it exists. -/
def write (w : World) (cpu : ℕ) (setting : Setting) (text : Text) : World :=
  { w with
    cpufreq := fun other => (w.cpufreq other).map fun files name =>
      if other = cpu ∧ name = setting then (files name).map fun _ => text else files name }

def captureCpufreq (w : World) (cpus : List ℕ) : List (ℕ × (Setting → Text)) :=
  (cpus.filter fun cpu => (w.cpufreq cpu).isSome).map fun cpu => (cpu, w.value cpu)

def captureIrqState (w : World) : List (IrqFile × Text) :=
  w.irq.map fun (path, contents) => (path, readValue contents)

def fixedGovernor : Text := "performance".toList

def setFixedCpufreq (w : World) : List (ℕ × (Setting → Text)) → World × Except Failure Unit
  | [] => (w, .ok ())
  | (cpu, values) :: rest =>
    let maxFreq := values .scalingMaxFreq
    if (w.cpufreq cpu).isNone then
      (w, .error (.runtimeError s!"CPU {cpu} does not expose cpufreq controls"))
    else if maxFreq = [] then
      (w, .error (.runtimeError s!"CPU {cpu} has no saved scaling_max_freq"))
    else
      setFixedCpufreq
        (((w.write cpu .scalingGovernor fixedGovernor).write cpu .scalingMaxFreq maxFreq).write
          cpu .scalingMinFreq maxFreq) rest

/-- Writes a saved value back unless nothing was saved. -/
def writeBack (w : World) (cpu : ℕ) (values : Setting → Text) (setting : Setting) : World :=
  if values setting = [] then w else w.write cpu setting (values setting)

def restoreCpufreq (w : World) : List (ℕ × (Setting → Text)) → World
  | [] => w
  | (cpu, values) :: rest =>
    restoreCpufreq
      (((w.writeBack cpu values .scalingMaxFreq).writeBack cpu values .scalingMinFreq).writeBack
        cpu values .scalingGovernor) rest

def restoreIrqState (w : World) (state : List (IrqFile × Text)) : World :=
  { w with
    irq := w.irq.map fun (path, contents) => (path, (state.lookup path).getD contents) }

end World

/-! ## Interrupts -/

def hexDigits (n : ℕ) : Text := Nat.toDigits 16 n

/-- Eight digits. -/
def hexChunk (n : ℕ) : Text := List.replicate (8 - (hexDigits n).length) '0' ++ hexDigits n

/-- The chunks of a mask, the lowest 32 bits first; `fuel` bounds their number. -/
def maskChunks : ℕ → ℕ → List Text
  | 0, _ => []
  | fuel + 1, mask =>
    if mask = 0 then []
    else if mask / 2 ^ 32 = 0 then [hexDigits mask]
    else hexChunk (mask % 2 ^ 32) :: maskChunks fuel (mask / 2 ^ 32)

def formatCpuMask (cpus : List ℕ) : Text :=
  let mask := cpus.foldl (fun mask cpu => mask ||| 1 <<< cpu) 0
  if mask = 0 then ['0'] else join [','] (maskChunks mask mask).reverse

/-- What is written to an interrupt file. -/
def irqTarget (cpus : List ℕ) : IrqFile → Text
  | .smpAffinityList _ => (formatCpuList (cpus.insertionSort (· ≤ ·))).toList
  | .rpsCpus _ | .xpsCpus _ => formatCpuMask (cpus.insertionSort (· ≤ ·))

/-- What is reported of an interrupt that may still go to an isolated CPU. -/
def affinityError (isolatedCpus : List ℕ) : IrqFile × Text → Option String
  | (.smpAffinityList irq, contents) =>
    let overlap := ((parseCpuList (readValue contents)).toOption.getD []).filter (· ∈ isolatedCpus)
    if overlap = [] then none
    else
      some (s!"/proc/irq/{irq}/smp_affinity_list still overlaps isolated CPU(s): " ++
        toString (overlap.insertionSort (· ≤ ·)))
  | _ => none

def World.applyIrqIsolation (w : World) (cpus isolatedCpus : List ℕ) :
    World × Except Failure Unit :=
  let w := { w with irq := w.irq.map fun (path, _) => (path, irqTarget cpus path) }
  match w.irq.filterMap (affinityError isolatedCpus) with
  | [] => (w, .ok ())
  | errors => (w, .error (.runtimeError ("; ".intercalate errors)))

/-! ## Commands -/

def statePath : String := "/var/lib/scx-bench/isolation-state.json"

def collectPins : List Text → Except Failure (List ℕ)
  | [] => .ok []
  | pinCpus :: rest =>
    if pinCpus = "auto".toList then
      .error (.configError "executor.isolated_cpus is required when machines use pin_cpus: auto")
    else do
      let cpus ← (parseCpuList pinCpus).mapError .configError
      return cpus ++ (← collectPins rest)

def collectTargetCpus (config : Config) : Except Failure (List ℕ) :=
  match config.isolatedCpus with
  | some (first :: rest) => (parseCpuList (first :: rest)).mapError .configError
  | _ => do
    let cpus ← collectPins config.pinCpus
    return cpus.dedup.insertionSort (· ≤ ·)

section

variable [Shlex]

/-- The CPUs that serve interrupts. -/
def World.irqCpusFor (w : World) (config : Config) (targetCpus housekeepingCpus : List ℕ) :
    Except Failure (List ℕ) :=
  let irqText := match config.irqCpus with
    | some (first :: rest) => first :: rest
    | _ => (formatCpuList housekeepingCpus).toList
  match parseCpuList irqText with
  | .error message => .error (.configError message)
  | .ok irqCpus =>
    let unknown := (irqCpus.filter (· ∉ w.hostCpus)).insertionSort (· ≤ ·)
    let overlap := (irqCpus.filter (· ∈ targetCpus)).insertionSort (· ≤ ·)
    if unknown ≠ [] then
      .error (.runtimeError s!"configured IRQ CPU(s) do not exist on host: {unknown}")
    else if overlap ≠ [] then
      .error (.runtimeError
        s!"executor.irq_cpus must not overlap isolated benchmark CPU(s): {overlap}")
    else .ok irqCpus

/-- The CPUs to be isolated and those that are left for everything else. -/
def World.splitCpus (w : World) (config : Config) : Except Failure (List ℕ × List ℕ) :=
  match collectTargetCpus config with
  | .error failure => .error failure
  | .ok targetCpus =>
    let unknown := (targetCpus.filter (· ∉ w.hostCpus)).insertionSort (· ≤ ·)
    let housekeepingCpus := w.hostCpus.filter (· ∉ targetCpus)
    if unknown ≠ [] then
      .error (.runtimeError s!"configured CPU(s) do not exist on host: {unknown}")
    else if housekeepingCpus = [] then
      .error (.runtimeError "at least one housekeeping CPU is required")
    else .ok (targetCpus, housekeepingCpus)

/-- What `prepare` does before it writes: the state to be saved and the new GRUB defaults. -/
def World.plan (w : World) (config : Config) : Except Failure (SavedState × Text) := do
  let (targetCpus, housekeepingCpus) ← w.splitCpus config
  let irqCpus ← w.irqCpusFor config targetCpus housekeepingCpus
  let originalGrub := universalNewlines w.grub
  let newGrub ← updateGrubCmdline originalGrub
    (bootArgs (formatCpuList targetCpus).toList (formatCpuList irqCpus).toList)
  return (⟨targetCpus, housekeepingCpus, irqCpus, originalGrub, w.captureCpufreq targetCpus,
    w.captureIrqState⟩, newGrub)

def World.prepare (w : World) (config : Config) (force : Bool) : World × Except Failure Unit :=
  if w.saved.isSome ∧ ¬ force then
    (w, .error (.runtimeError s!"state already exists: {statePath}; restore first or use --force"))
  else
    match w.plan config with
    | .error failure => (w, .error failure)
    | .ok (state, newGrub) => ({ w with saved := some state, grub := newGrub }, .ok ())

def World.restore (w : World) : World × Except Failure Unit :=
  match w.saved with
  | none => (w, .ok ())
  | some state =>
    let w := { w with grub := state.originalGrub }
    let w := (w.restoreCpufreq state.cpufreq).restoreIrqState state.irq
    ({ w with saved := none }, .ok ())

def World.applyRuntime (w : World) : World × Except Failure Unit :=
  match w.saved with
  | none => (w, .error (.runtimeError s!"state does not exist: {statePath}"))
  | some state =>
    match w.setFixedCpufreq state.cpufreq with
    | (w, .error failure) => (w, .error failure)
    | (w, .ok ()) =>
      let irqCpus := if state.irqCpus = [] then state.housekeepingCpus else state.irqCpus
      if irqCpus = [] then (w, .ok ()) else w.applyIrqIsolation irqCpus state.targetCpus

inductive Command where
  | prepare (config : Config) (force : Bool)
  | applyRuntime
  | restore
  deriving DecidableEq, Repr

def World.exec (w : World) : Command → World × Except Failure Unit
  | .prepare config force => w.prepare config force
  | .applyRuntime => w.applyRuntime
  | .restore => w.restore

/-- The world after a sequence of commands, whatever each of them reports. -/
def World.run (w : World) (commands : List Command) : World :=
  commands.foldl (fun w command => (w.exec command).1) w

end

end ScxAgent.Bench.Isolation
