import ScxAgent.PyText

/-!
# CPU lists

The lists of CPUs that configurations and kernel files write as `0-3,7`.
-/

namespace ScxAgent.Bench

open PyText

/-- One part of a list; the error is the message of a `ConfigError`. -/
def parseCpuPart (part : Text) : Except String (List ℕ) :=
  match splitOnce '-' part with
  | some (startText, endText) =>
    let start := digitsValue startText
    let last := digitsValue endText
    if !isDigits startText || !isDigits endText then
      .error s!"invalid CPU range: {String.ofList part}"
    else if last < start then .error s!"invalid CPU range: {String.ofList part}"
    else .ok (List.range' start (last + 1 - start))
  | none =>
    if !isDigits part then .error s!"invalid CPU id: {String.ofList part}"
    else .ok [digitsValue part]

def parseCpuParts (value : Text) : List Text → Except String (List ℕ)
  | [] => .ok []
  | part :: rest => do
    let part := strip part
    if part = [] then throw s!"invalid CPU list: {String.ofList value}"
    let cpus ← parseCpuPart part
    return cpus ++ (← parseCpuParts value rest)

def parseCpuList (value : Text) : Except String (List ℕ) := do
  let cpus ← parseCpuParts value (split ',' value)
  if ¬ cpus.Nodup then throw s!"duplicate CPU id in list: {String.ofList value}"
  return cpus

def formatRange (start last : ℕ) : String :=
  if start ≠ last then s!"{start}-{last}" else toString start

/-- The ranges of a list that starts at `start` and has been read up to `prev`. -/
def formatRanges (start prev : ℕ) : List ℕ → List String
  | [] => [formatRange start prev]
  | cpu :: rest =>
    if cpu = prev + 1 then formatRanges start cpu rest
    else formatRange start prev :: formatRanges cpu cpu rest

def formatCpuList : List ℕ → String
  | [] => ""
  | start :: rest => ",".intercalate (formatRanges start start rest)

end ScxAgent.Bench
