import ScxAgent.MutationDomain
import ScxAgent.Activation.Batching
import ScxAgent.Control.Wire

/-!
# The control handler of the daemon

A rule lives in three places: the memory of the rule store, its file, and the BPF rules map. A
compare-and-set writes file and memory first and publishes to the map after; when the publication
fails it rolls the store back. Errors are the texts that the daemon answers with. The directory and
the BPF side each carry a plan of the calls that fail.
-/

namespace ScxAgent.Control

open StepLogic OutcomeLogic FileReplace Rules Activation Scheduler

/-- What the daemon shares with the BPF programs. -/
structure BpfSide where
  rules : RuleKey → Option UInt32
  rulesSeq : UInt64
  ruleMissComms : RuleKey → Bool
  taskStateErrors : UInt64
  ruleRefreshDeferred : UInt64
  /-- How many map calls were made. -/
  calls : ℕ
  /-- Whether the map call of this number fails; it then leaves the map as it was. -/
  faults : ℕ → Option String

structure Daemon where
  ruleStore : Option RuleStore
  disk : Directory
  bpf : BpfSide
  activationBatcher : ActivationBatcher
  schedulerInstanceId : String
  defaultClass : RuleClass
  fatalControlError : Option String

section Calls

variable {α : Type}

def mapCall (effect : BpfSide → α × BpfSide) : Proc Daemon String (Except String α) := fun d =>
  let bpf := { d.bpf with calls := d.bpf.calls + 1 }
  match d.bpf.faults d.bpf.calls with
  | some error => (.ok (.error error), { d with bpf })
  | none => (.ok (.ok (effect bpf).1), { d with bpf := (effect bpf).2 })

def onDisk (p : Proc Directory String α) : Proc Daemon String α :=
  focus Daemon.disk (fun disk d => { d with disk }) p

end Calls

def lookupRule (comm : Comm) : Proc Daemon String (Except String (Option UInt32)) :=
  mapCall fun bpf => (bpf.rules comm.asBpfKey, bpf)

def writeRule (comm : Comm) (id : Option UInt32) : Proc Daemon String (Except String Unit) :=
  mapCall fun bpf => ((), { bpf with rules := Function.update bpf.rules comm.asBpfKey id })

def writeRulesSeq (value : UInt64) : Proc Daemon String Unit :=
  modify fun d => { d with bpf := { d.bpf with rulesSeq := value } }

/-- The map calls of a publication. -/
def updateRule (comm : Comm) : RuleState → Proc Daemon String Unit
  | .present ruleClass => do
    (← writeRule comm (some ruleClass.asBpfId)) |> orRaise fun error => s!"updating BPF rule: {error}"
  | .absent => do
    match ← lookupRule comm with
    | .error error => raise error
    | .ok none => pure ()
    | .ok (some _) =>
      (← writeRule comm none) |> orRaise fun error => s!"deleting BPF rule: {error}"

def publishRule (comm : Comm) (state : RuleState) : Proc Daemon String Unit := do
  let stable := (← get).bpf.rulesSeq &&& ~~~1
  writeRulesSeq (stable + 1)
  let result ← attempt (updateRule comm state)
  writeRulesSeq (stable + 2)
  result |> orRaise fun error => s!"publishing BPF rule: {error}"

/-- The class behind the value of the map. -/
def classOfId : Option UInt32 → Except String (Option RuleClass)
  | none => .ok none
  | some id =>
    match RuleClass.ofBpfId id with
    | some ruleClass => .ok (some ruleClass)
    | none => .error s!"rules_map returned invalid class id {id}"

def activeRule (comm : Comm) : Proc Daemon String (Option RuleClass) := do
  let value ← (← lookupRule comm) |> orRaise id
  ofExcept (classOfId value)

def enabledStore : Proc Daemon String RuleStore := fun d =>
  match d.ruleStore with
  | none => (.error (.error "learned rule store is disabled"), d)
  | some store => (.ok store, d)

section Handler

variable (os : Platform)

/-- The rules in the file, and whether they are those of the store. -/
def persistedSnapshot : Proc Daemon String (Rules.RuleTable × Bool) := do
  let store ← enabledStore
  let (learned, revision) ← onDisk (store.readPersisted os)
  pure (learned, revision = store.rules.revision ∧ learned = store.rules.learned)

def sourceOf (defaultClass : RuleClass) : Option EffectiveRule → RuleClass × WireRuleSource
  | some ⟨ruleClass, .base⟩ => (ruleClass, .base)
  | some ⟨ruleClass, .learned⟩ => (ruleClass, .learned)
  | none => (defaultClass, .default)

def ruleObservationWithPersisted (comm : Comm) (learned : Rules.RuleTable) (matchesStore : Bool) :
    Proc Daemon String RuleObservation := do
  let store ← enabledStore
  let effective := store.rules.effectiveRule comm
  let activeClass ← activeRule comm
  let (ruleClass, source) := sourceOf (← get).defaultClass effective
  pure
    { comm := comm.value, ruleClass, source, activeClass, persistedClass := learned[comm]?
      consistent := activeClass = effective.map (·.ruleClass) && matchesStore }

def ruleObservation (comm : Comm) : Proc Daemon String RuleObservation := do
  let (learned, matchesStore) ← persistedSnapshot os
  ruleObservationWithPersisted comm learned matchesStore

def clearRuleMiss (comm : Comm) : Proc Daemon String Unit := do
  match ← mapCall fun bpf => (bpf.ruleMissComms comm.asBpfKey, bpf) with
  | .ok true =>
    let _ ← mapCall fun bpf =>
      ((), { bpf with ruleMissComms := Function.update bpf.ruleMissComms comm.asBpfKey false })
    modify fun d => { d with activationBatcher := d.activationBatcher.removePending comm }
  | _ => modify fun d => { d with activationBatcher := d.activationBatcher.removePending comm }

/-- A name that has a rule now was not missed. -/
def clearIfPresent (comm : Comm) : RuleState → Proc Daemon String Unit
  | .present _ => clearRuleMiss comm
  | .absent => pure ()

def setFatal (error : String) : Proc Daemon String Unit :=
  modify fun d => { d with fatalControlError := some error }

/-- `RuleStore::compare_and_set` on the store of the daemon. -/
def storeCompareAndSet (comm : Comm) (expected desired : RuleState) :
    Proc Daemon String CasResult := do
  let store ← enabledStore
  focus (fun d => (⟨store, d.disk⟩ : Keeper))
    (fun k d => { d with ruleStore := some k.store, disk := k.disk })
    (Keeper.compareAndSet os comm expected desired)

/-- The end of a request whose compare-and-set has failed. -/
def refuseRule (error : String) : Proc Daemon String CasResult := do
  if (← get).ruleStore.any RuleStore.persistenceUncertain then
    setFatal s!"learned-rule rename completed but durability is uncertain: {error}"
    raise error
  else raise error

/-- Nothing was to be done in the store; the map is brought in line with it. -/
def reconcileRule (comm : Comm) (cas : CasResult) : Proc Daemon String CasResult := do
  if (← activeRule comm) = cas.effective.toClass then
    clearIfPresent comm cas.current
    pure cas
  else
    match ← attempt (publishRule comm cas.effective) with
    | .error error =>
      setFatal s!"failed to reconcile persistent rule with BPF state: {error}"
      raise error
    | .ok () =>
      clearIfPresent comm cas.current
      pure cas

/-- The store goes back to the previous rule, and the map follows. -/
def rollBackRule (comm : Comm) (cas : CasResult) : Proc Daemon String Unit := do
  let rollback ← (← attempt (storeCompareAndSet os comm cas.current cas.previous)) |> orRaise fun error =>
    s!"rolling back persistent rule after BPF publish failure: {error}"
  (← attempt (publishRule comm rollback.effective)) |> orRaise fun error =>
    s!"restoring BPF rule after publish failure: {error}"

/-- The store has changed; the map follows, or the store goes back. -/
def publishApplied (comm : Comm) (cas : CasResult) : Proc Daemon String CasResult := do
  match ← attempt (publishRule comm cas.effective) with
  | .ok () =>
    clearIfPresent comm cas.current
    pure cas
  | .error error =>
    match ← attempt (rollBackRule os comm cas) with
    | .ok () => raise error
    | .error recoveryError =>
      setFatal s!"rule publish failed ({error}) and recovery failed ({recoveryError})"
      raise error

/-- What a compare-and-set request does before it reads back the rule for its answer. -/
def changeRule (comm : Comm) (expected desired : RuleState) : Proc Daemon String CasResult := do
  let store ← enabledStore
  if store.rules.base.contains comm then
    raise s!"comm '{comm}' is owned by a read-only base rule"
  else
    match ← attempt (storeCompareAndSet os comm expected desired) with
    | .error error => refuseRule error
    | .ok cas =>
      match cas.status with
      | .conflict => pure cas
      | .noop => reconcileRule comm cas
      | .applied => publishApplied os comm cas

variable [Sha256]

def hexDigest (value : List UInt8) : String := String.ofList (lowerHex (Sha256.digest value).toList)

/-- `u32::to_le_bytes`. -/
def leBytes (id : UInt32) : List UInt8 :=
  [id.toUInt8, (id >>> 8).toUInt8, (id >>> 16).toUInt8, (id >>> 24).toUInt8]

def effectiveDigest (rules : Rules.RuleTable) : String :=
  s!"sha256:{hexDigest (rules.toList.flatMap fun (comm, ruleClass) =>
    List.ofFn comm.asBpfKey ++ leBytes ruleClass.asBpfId)}"

def controlResponse (d : Daemon) (requestId : String) (status : ControlStatus)
    (current : Option RuleState) (rules : List RuleObservation) (message : Option String) :
    ControlResponse where
  version := controlVersion
  requestId := requestId
  status := status
  current := current.map WireState.ofState
  rules := rules
  revision := (d.ruleStore.map (·.rules.revision)).getD 0
  rulesSeq := d.bpf.rulesSeq
  effectiveDigest := effectiveDigest ((d.ruleStore.map (·.rules.effective)).getD ∅)
  stats := some ⟨d.bpf.taskStateErrors, d.bpf.ruleRefreshDeferred⟩
  workloadFingerprint := some s!"sha256:{hexDigest (asBytes d.schedulerInstanceId)}"
  message := message

def CasStatus.answer : CasStatus → ControlStatus × Option String
  | .conflict => (.conflict, some "learned rule changed since prepare")
  | .noop => (.noop, none)
  | .applied => (.applied, none)

/-- A field that `validate` has found present. -/
def validated {α : Type} : Option α → Proc Daemon String α
  | some a => pure a
  | none => abort

def getRule (request : ControlRequest) : Proc Daemon String ControlResponse := do
  let comm ← ofExcept (Comm.new (← validated request.comm))
  let store ← enabledStore
  let current := store.rules.learnedState comm
  let observation ← ruleObservation os comm
  pure (controlResponse (← get) request.requestId .ok (some current) [observation] none)

def snapshot (request : ControlRequest) : Proc Daemon String ControlResponse := do
  let comms ← (← validated request.comms).mapM fun comm => ofExcept (Comm.new comm)
  let (learned, matchesStore) ← persistedSnapshot os
  let rules ← comms.mapM fun comm => ruleObservationWithPersisted comm learned matchesStore
  pure (controlResponse (← get) request.requestId .ok none rules none)

/-- The rule is changed, read back and reported. -/
def answerChange (requestId : String) (comm : Comm) (expected desired : RuleState) :
    Proc Daemon String ControlResponse := do
  let cas ← changeRule os comm expected desired
  let observation ← ruleObservation os comm
  pure (controlResponse (← get) requestId (CasStatus.answer cas.status).1 (some cas.current)
    [observation] (CasStatus.answer cas.status).2)

def compareAndSetRule (request : ControlRequest) : Proc Daemon String ControlResponse := do
  let comm ← ofExcept (Comm.new (← validated request.comm))
  let expected ← ofExcept (← validated request.expected).toState
  let desired ← ofExcept (← validated request.desired).toState
  answerChange os request.requestId comm expected desired

def handleControlInner (request : ControlRequest) : Proc Daemon String ControlResponse := do
  ofExcept request.validate
  match request.op with
  | .getRule => getRule os request
  | .snapshot => snapshot os request
  | .compareAndSetRule => compareAndSetRule os request

def handleControl (request : ControlRequest) : Proc Daemon String ControlResponse := do
  match ← attempt (handleControlInner os request) with
  | .ok response => pure response
  | .error error =>
    pure (controlResponse (← get) request.requestId .error none [] (some error))

end Handler

/-! ## Startup -/

def loadRules (rules : Rules.RuleTable) : Proc Daemon String Unit :=
  rules.toList.forM fun (comm, ruleClass) => do
    (← writeRule comm (some ruleClass.asBpfId)) |> orRaise id

def openStore (os : Platform) (base : Rules.RuleTable) :
    Option LearnedPath → Proc Daemon String (Option RuleStore)
  | none => pure none
  | some path => do
    let store ← (← attempt (onDisk (RuleStore.openAt os path base))) |> orRaise fun error =>
      s!"loading learned rules: {error}"
    pure (some store)

/-- The part of the start that concerns rules. -/
def startUp (os : Platform) (learnedRules : Option LearnedPath) (base : Rules.RuleTable) :
    Proc Daemon String Unit := do
  let ruleStore ← openStore os base learnedRules
  modify fun d => { d with ruleStore }
  loadRules ((ruleStore.map (·.rules.effective)).getD base)
  writeRulesSeq 2

end ScxAgent.Control
