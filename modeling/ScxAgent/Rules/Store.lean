import Mathlib
import ScxAgent.Rules.Comm
import ScxAgent.JsonFields
import ScxAgent.FileReplace

/-!
# The rule store

Base rules are fixed when the daemon starts; learned rules are changed by compare-and-set and kept in
a file that is replaced atomically. A `RuleSet` carries the proofs that its two layers are disjoint
and that the effective table is their union and fits into the BPF map.
-/

namespace ScxAgent.Rules

open StepLogic OutcomeLogic FileReplace JsonText

def rulesSchemaVersion : UInt32 := 1

def maxRules : ℕ := 1024

abbrev RuleTable := Std.ExtTreeMap Comm RuleClass

inductive RuleSource where
  | base
  | learned
  deriving DecidableEq, Repr

structure EffectiveRule where
  ruleClass : RuleClass
  source : RuleSource
  deriving DecidableEq

structure RuleSet where
  revision : UInt64
  base : RuleTable
  learned : RuleTable
  effective : RuleTable
  disjoint : ∀ comm ∈ learned, comm ∉ base
  effective_eq : effective = learned ∪ base
  bounded : effective.size ≤ maxRules

namespace RuleSet

theorem disjoint_of_find? {base learned : RuleTable}
    (h : learned.keys.find? (base.contains ·) = none) : ∀ comm ∈ learned, comm ∉ base := by
  intro comm hlearned hbase
  have hfalse := List.find?_eq_none.mp h comm (Std.ExtTreeMap.mem_keys.mpr hlearned)
  exact hfalse (Std.ExtTreeMap.contains_iff_mem.mpr hbase)

def new (base learned : RuleTable) (revision : UInt64) : Except String RuleSet :=
  match h : learned.keys.find? (base.contains ·) with
  | some comm => .error s!"learned rule for comm '{comm}' conflicts with a read-only base rule"
  | none =>
    let effective := learned ∪ base
    if hsize : effective.size > maxRules then
      .error s!"effective rule table contains {effective.size} entries, maximum is {maxRules}"
    else .ok ⟨revision, base, learned, effective, disjoint_of_find? h, rfl, not_lt.mp hsize⟩

def learnedState (rules : RuleSet) (comm : Comm) : RuleState :=
  .fromOption rules.learned[comm]?

def effectiveRule (rules : RuleSet) (comm : Comm) : Option EffectiveRule :=
  match rules.base[comm]? with
  | some ruleClass => some ⟨ruleClass, .base⟩
  | none => rules.learned[comm]?.map fun ruleClass => ⟨ruleClass, .learned⟩

end RuleSet

inductive CasStatus where
  | applied
  | noop
  | conflict
  deriving DecidableEq, Repr

structure CasResult where
  status : CasStatus
  comm : Comm
  previous : RuleState
  current : RuleState
  effective : RuleState
  revision : UInt64

/-! ## The stored document -/

structure StoredRule where
  comm : Comm
  ruleClass : RuleClass

structure StoredDocument where
  schemaVersion : UInt32
  revision : UInt64
  rules : List StoredRule

def RuleClass.text : RuleClass → String
  | .latency => "latency"
  | .batch => "batch"

def RuleClass.decode : Json → Option RuleClass :=
  variant [("latency", .latency), ("batch", .batch)]

def Comm.decode (json : Json) : Option Comm := (text json).bind fun value => (Comm.new value).toOption

namespace StoredRule

def encode (rule : StoredRule) : Json :=
  .obj [("comm", .str rule.comm.value), ("class", .str rule.ruleClass.text)]

def decode (json : Json) : Option StoredRule :=
  match fields ["comm", "class"] json with
  | some [comm, ruleClass] => do
    let comm ← required Comm.decode comm
    let ruleClass ← required RuleClass.decode ruleClass
    some ⟨comm, ruleClass⟩
  | _ => none

end StoredRule

namespace StoredDocument

def encode (document : StoredDocument) : Json :=
  .obj [("schema_version", .num document.schemaVersion.toNat),
    ("revision", .num document.revision.toNat),
    ("rules", .arr (document.rules.map StoredRule.encode))]

def decode (json : Json) : Option StoredDocument :=
  match fields ["schema_version", "revision", "rules"] json with
  | some [schemaVersion, revision, rules] => do
    let schemaVersion ← required word32 schemaVersion
    let revision ← required word64 revision
    let rules ← required (sequence StoredRule.decode) rules
    some ⟨schemaVersion, revision, rules⟩
  | _ => none

end StoredDocument

def canonicalDocument (revision : UInt64) (learned : RuleTable) : ByteArray :=
  let document : StoredDocument :=
    { schemaVersion := rulesSchemaVersion, revision
      rules := learned.toList.map fun (comm, ruleClass) => ⟨comm, ruleClass⟩ }
  (write pretty document.encode ++ "\n").toByteArray

def RuleSet.canonicalLearnedJson (rules : RuleSet) : ByteArray :=
  canonicalDocument rules.revision rules.learned

/-! ## Files -/

/-- What the store needs of its surroundings; the texts of parse errors are not modelled. -/
structure Platform where
  processId : ℕ
  parseError : ByteArray → String

structure StorePath where
  display : String
  parent : String
  fileName : String

section Files

variable (os : Platform) (path : StorePath)

/-- The rules of a document, no name twice. -/
def collectRules : RuleTable → List StoredRule → Except String RuleTable
  | learned, [] => .ok learned
  | learned, rule :: rules =>
    if learned.contains rule.comm then
      .error s!"duplicate learned rule for comm '{rule.comm}' in {path.display}"
    else collectRules (learned.insert rule.comm rule.ruleClass) rules

def parseDocument (bytes : ByteArray) : Except String (RuleTable × UInt64) :=
  match (readBytes bytes).bind StoredDocument.decode with
  | none => .error s!"parsing learned rules {path.display}: {os.parseError bytes}"
  | some document =>
    if document.schemaVersion ≠ rulesSchemaVersion then
      .error s!"unsupported learned rules schema_version {document.schemaVersion} in {path.display}; expected {rulesSchemaVersion}"
    else (collectRules path ∅ document.rules).map fun learned => (learned, document.revision)

def loadDocument : Proc Directory String (RuleTable × UInt64) := do
  match ← readFile path.fileName with
  | .error error => raise s!"reading learned rules {path.display}: {error.message}"
  | .ok none => pure (∅, 0)
  | .ok (some bytes) => ofExcept (parseDocument os path bytes)

def tempName (count : UInt64) : String := s!".{path.fileName}.{os.processId}.{count}.tmp"

/-- At most `attempts` names are tried. -/
def createTempFile : ℕ → Proc Directory String String
  | 0 => raise s!"could not allocate a temporary rules file in {path.parent}"
  | attempts + 1 => do
    let count ← nextCount
    match ← createNew (tempName os path count) with
    | .ok () => pure (tempName os path count)
    | .error error =>
      if error.alreadyExists then createTempFile attempts
      else raise s!"creating temporary rules file {tempName os path count}: {error.message}"

inductive ReplaceOutcome where
  | durable
  | renamedButUnsynced (error : String)

/-- The calls up to the rename. -/
def replaceFile (temp : String) (contents : ByteArray) : Proc Directory String Unit := do
  (← writeAll temp contents) |> orRaise fun error =>
    s!"writing temporary rules file {temp}: {error.message}"
  (← touch) |> orRaise fun error => s!"syncing temporary rules file {temp}: {error.message}"
  (← rename temp path.fileName) |> orRaise fun error =>
    s!"replacing learned rules {path.display} with {temp}: {error.message}"

/-- The parent directory is opened and synced. -/
def syncParent : Proc Directory String ReplaceOutcome := do
  match ← touch with
  | .error error => pure (.renamedButUnsynced (unsynced error))
  | .ok () =>
    match ← touch with
    | .error error => pure (.renamedButUnsynced (unsynced error))
    | .ok () => pure .durable
where
  unsynced (error : IoError) : String :=
    s!"syncing learned rules directory {path.parent}: {error.message}"

def atomicReplace (contents : ByteArray) : Proc Directory String ReplaceOutcome := do
  let temp ← createTempFile os path 32
  match ← attempt (replaceFile path temp contents) with
  | .error error => do
    let _ ← removeFile temp
    raise error
  | .ok () => syncParent path

def ensureParentDirectory : Proc Directory String Unit := do
  (← touch) |> orRaise fun error =>
    s!"creating learned rules directory {path.parent}: {error.message}"
  let isDirectory ← (← metadataIsDirectory) |> orRaise fun error =>
    s!"inspecting learned rules directory {path.parent}: {error.message}"
  if isDirectory then pure ()
  else raise s!"learned rules parent '{path.parent}' is not a directory"

end Files

/-! ## The store -/

structure RuleStore where
  path : StorePath
  rules : RuleSet
  persistenceUncertain : Bool

/-- The path of the learned rules as it is given to the daemon. -/
structure LearnedPath where
  display : String
  parent : String
  fileName : Option String

/-- The store together with the directory of its file. -/
structure Keeper where
  store : RuleStore
  disk : Directory

namespace RuleStore

variable (os : Platform)

def openAt (path : LearnedPath) (base : RuleTable) : Proc Directory String RuleStore :=
  match path.fileName with
  | none => raise s!"learned rules path '{path.display}' has no file name"
  | some fileName => do
    let path : StorePath := ⟨path.display, path.parent, fileName⟩
    ensureParentDirectory path
    let (learned, revision) ← loadDocument os path
    let rules ← ofExcept ((RuleSet.new base learned revision).mapError fun error =>
      s!"validating learned rules from {path.display}: {error}")
    pure ⟨path, rules, false⟩

def readPersisted (store : RuleStore) : Proc Directory String (RuleTable × UInt64) :=
  loadDocument os store.path

def casResult (store : RuleStore) (status : CasStatus) (comm : Comm) (previous current : RuleState) :
    CasResult where
  status := status
  comm := comm
  previous := previous
  current := current
  effective := .fromOption store.rules.effective[comm]?
  revision := store.rules.revision

/-- The learned rules once `comm` has the desired state. -/
def learnedAfter (learned : RuleTable) (comm : Comm) : RuleState → RuleTable
  | .absent => learned.erase comm
  | .present ruleClass => learned.insert comm ruleClass

end RuleStore

namespace Keeper

variable (os : Platform)

def onDisk {α : Type} (p : Proc Directory String α) : Proc Keeper String α :=
  focus disk (fun disk k => { k with disk }) p

/-- The rules are written; memory follows once the file was replaced. -/
def commit (comm : Comm) (previous desired : RuleState) (next : RuleSet) :
    Proc Keeper String CasResult := do
  let store := (← get).store
  match ← onDisk (atomicReplace os store.path next.canonicalLearnedJson) with
  | .durable =>
    modify fun k => { k with store := { k.store with rules := next } }
    pure ((← get).store.casResult .applied comm previous desired)
  | .renamedButUnsynced error =>
    modify fun k => { k with store := { k.store with rules := next, persistenceUncertain := true } }
    raise error

def compareAndSet (comm : Comm) (expected desired : RuleState) : Proc Keeper String CasResult := do
  let store := (← get).store
  if store.rules.base.contains comm then
    raise s!"comm '{comm}' is owned by a read-only base rule"
  else
    let previous := store.rules.learnedState comm
    if previous ≠ expected then pure (store.casResult .conflict comm previous previous)
    else if previous = desired then pure (store.casResult .noop comm previous desired)
    else if store.rules.revision + 1 = 0 then raise "learned rule revision overflow"
    else
      let next ← ofExcept (RuleSet.new store.rules.base
        (RuleStore.learnedAfter store.rules.learned comm desired) (store.rules.revision + 1))
      commit os comm previous desired next

end Keeper

end ScxAgent.Rules
