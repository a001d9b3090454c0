import ScxAgent.StepLogic
import ScxAgent.TransactionLog

/-!
# The transaction kernel

The state and the operations of `kernel/transaction/kernel.rs`, apart from `recover`. An
operation runs on a `Machine`: the kernel, the world its drivers act on, and a
trace. The trace is no part of the program. It keeps every external call with
its reply, and with the log and the world as they were when the call was issued.
-/

namespace ScxAgent

open Std StepLogic

/-- `u64::saturating_add`. -/
def saturatingAdd (a b : ℕ) : ℕ := min (a + b) (2 ^ 64 - 1)

variable (V W ω : Type)

inductive Call where
  | prepare (capabilityId : CapabilityId) (request : MutationPrepareRequest V)
      (reply : Reply ProviderError (PreparedMutation V))
  | apply (changeId : ChangeId) (request : MutationApplyRequest V)
      (reply : Reply ProviderError (MutationReceipt V))
  | status (query : MutationQuery) (reply : Reply ProviderError (MutationStatus V))
  | verify (changeId : ChangeId) (request : MutationVerifyRequest V)
      (reply : Reply ProviderError (MutationVerification V))
  | restore (changeId : ChangeId) (request : MutationRestoreRequest V)
      (reply : Reply ProviderError (MutationReceipt V))
  | finalize (changeId : ChangeId) (request : MutationFinalizeRequest V)
      (reply : Reply ProviderError (MutationReceipt V))
  | append (entry : WalEntry V) (reply : Reply WalError Unit)
  | recovered (entries : List (WalEntry V))

structure Event where
  wal : ω
  world : W
  call : Call V

structure TransactionKernel [Sha256] where
  transactionId : TransactionId
  intentPin : EvaluationIntentPin
  capabilities : CapabilitySnapshot V W
  wal : ω
  changes : TreeMap ChangeId (ChangeRecord V)
  resourceHeads : TreeMap ResourceKey ChangeId
  changeOrder : List ChangeId
  nextSequence : ℕ
  operationCounter : ℕ
  activeCandidate : Option Candidate
  commitAuthorization : Option CommitAuthorization
  sealed : Option TransactionSeal

structure Machine [Sha256] where
  kernel : TransactionKernel V W ω
  world : W
  trace : List (Event V W ω)

abbrev KernelM [Sha256] (α : Type) :=
  Proc (Machine V W ω) TransactionError α

variable {V W ω} [Sha256]

/-! ## External calls -/

def kernel : KernelM V W ω (TransactionKernel V W ω) := do
  return (← get).kernel

def updateKernel (f : TransactionKernel V W ω → TransactionKernel V W ω) : KernelM V W ω Unit :=
  modify fun m => { m with kernel := f m.kernel }

def callDriver {α : Type} (method : W → Reply ProviderError α × W)
    (event : Reply ProviderError α → Call V) : KernelM V W ω (Except ProviderError α) := fun m =>
  let answer := method m.world
  let after : Machine V W ω :=
    { m with
      world := answer.2
      trace := m.trace ++ [⟨m.kernel.wal, m.world, event answer.1⟩] }
  match answer.1 with
  | .crashed => (.error .crashed, after)
  | .answered result => (.ok result, after)

def callWal (method : ω → WalEntry V → Reply WalError Unit × ω) (event : WalEvent V) :
    KernelM V W ω (Except WalError Unit) := fun m =>
  let entry : WalEntry V := ⟨m.kernel.nextSequence, m.kernel.transactionId, event⟩
  let answer := method m.kernel.wal entry
  let after : Machine V W ω :=
    { m with
      kernel := { m.kernel with wal := answer.2 }
      trace := m.trace ++ [⟨m.kernel.wal, m.world, .append entry answer.1⟩] }
  match answer.1 with
  | .crashed => (.error .crashed, after)
  | .answered result => (.ok result, after)

/-- `self.changes[change_id]`, which panics on an unknown change. -/
def changeAt (changeId : ChangeId) : KernelM V W ω (ChangeRecord V) := do
  match (← kernel).changes[changeId]? with
  | some change => pure change
  | none => abort

/-! ## Helpers without effects on the log or on a resource -/

def providerError (error : ProviderError) : TransactionError := ⟨.provider, toString error⟩

def walError (error : WalError) : TransactionError := ⟨.wal, toString error⟩

def operationText (transactionId : TransactionId) (label : String) (counter : ℕ) : String :=
  s!"{transactionId}/{label}/{counter}"

def nextOperationId (label : String) : KernelM V W ω OperationId := do
  updateKernel fun k => { k with operationCounter := saturatingAdd k.operationCounter 1 }
  let k ← kernel
  match TextId.new (operationText k.transactionId label k.operationCounter) with
  | .ok operationId => pure operationId
  | .error error => raise ⟨.invalidState, error⟩

def ensureOpen : KernelM V W ω Unit := do
  match (← kernel).sealed with
  | some outcome => raise ⟨.sealed, s!"transaction is already sealed as {outcome.debug}"⟩
  | none => pure ()

namespace TransactionKernel

def allChanges (k : TransactionKernel V W ω) : List (ChangeRecord V) :=
  k.changeOrder.filterMap fun changeId => k.changes[changeId]?

def driver (k : TransactionKernel V W ω) (capabilityId : CapabilityId) :
    Except TransactionError (MutationDriver V W) :=
  match k.capabilities.mutations[capabilityId]? with
  | some driver => .ok driver
  | none => .error ⟨.capabilityUnavailable,
      s!"mutation capability '{capabilityId}' is unavailable"⟩

def driverForRecord (k : TransactionKernel V W ω) (record : ChangeRecord V) :
    Except TransactionError (MutationDriver V W) := do
  let driver ← k.driver record.capabilityId
  if driver.capabilityMeta.provider ≠ record.prepared.provider then
    .error ⟨.pinMismatch, s!"provider pin for change '{record.changeId}' no longer matches"⟩
  else .ok driver

def validateCandidateChange (k : TransactionKernel V W ω) (resources : TreeSet ResourceKey)
    (changeId : ChangeId) : Except TransactionError (TreeSet ResourceKey) :=
  match k.changes[changeId]? with
  | none => .error ⟨.invalidCandidate, s!"candidate references unknown change '{changeId}'"⟩
  | some change =>
    if ¬ change.experimentVerified then
      .error ⟨.invalidCandidate,
        s!"candidate change '{changeId}' has no durable successful experiment"⟩
    else if k.resourceHeads[change.resource]? ≠ some changeId then
      .error ⟨.invalidCandidate, s!"candidate change '{changeId}' has been superseded"⟩
    else if resources.contains change.resource then
      .error ⟨.duplicateResource, s!"candidate repeats resource '{change.resource}'"⟩
    else .ok (resources.insert change.resource)

def validateCandidate (k : TransactionKernel V W ω) (candidate : Candidate) :
    Except TransactionError Unit := do
  let _ ← candidate.changeIds.foldlM k.validateCandidateChange ∅

end TransactionKernel

def validateStateDigest [Serialize V] (state : MutationState V) (label : String)
    (kind : TransactionErrorKind) : Except TransactionError Unit :=
  match contentDigest state.value with
  | .error error => .error ⟨kind, s!"failed to compute {label} digest: {error}"⟩
  | .ok expected =>
    if state.digest ≠ expected then
      .error ⟨kind, s!"{label} digest does not match its value"⟩
    else .ok ()

def TransactionKernel.validatePrepared [DecidableEq V] [Serialize V]
    (k : TransactionKernel V W ω) (capabilityId : CapabilityId) (prepared : PreparedMutation V) :
    Except TransactionError Unit := do
  if prepared.capabilityId ≠ capabilityId then
    .error ⟨.pinMismatch, "driver prepared a different capability id"⟩
  else match k.capabilities.metadata[capabilityId]? with
  | none => .error ⟨.capabilityUnavailable,
      s!"capability '{capabilityId}' is absent from the snapshot"⟩
  | some capability =>
    if prepared.provider ≠ capability.provider then
      .error ⟨.pinMismatch, s!"provider pin changed while preparing '{capabilityId}'"⟩
    else
      validateStateDigest prepared.baseline "prepared baseline" .invalidState
      validateStateDigest prepared.desired "prepared desired state" .invalidState
      if prepared.baseline.value = prepared.desired.value then
        .error ⟨.invalidState, "mutation baseline and desired states are identical"⟩
      else .ok ()

inductive ExpectedState where
  | baseline
  | desired

def ExpectedState.select : ExpectedState → PreparedMutation V → MutationState V
  | .baseline, prepared => prepared.baseline
  | .desired, prepared => prepared.desired

def matchesExpected (changeId : ChangeId) (expected : ExpectedState) : KernelM V W ω Bool := do
  let record ← changeAt changeId
  let k ← kernel
  let driver ← ofExcept (k.driverForRecord record)
  match TextId.new (operationText k.transactionId "verify" k.operationCounter) with
  | .error error => raise ⟨.invalidState, error⟩
  | .ok operationId =>
    let request : MutationVerifyRequest V :=
      ⟨operationId, record.prepared, expected.select record.prepared⟩
    match ← callDriver (driver.verify request) (.verify changeId request) with
    | .ok verification => pure verification.matched
    | .error error => raise (providerError error)

variable [TransactionWal V ω]

/-! ## Writing the log -/

def appendEvent (event : WalEvent V) : KernelM V W ω Unit := do
  match ← callWal TransactionWal.appendDurable event with
  | .error error => raise (walError error)
  | .ok () => updateKernel fun k => { k with nextSequence := k.nextSequence + 1 }

def sealWith (outcome : TransactionSeal) : KernelM V W ω Unit := do
  match ← callWal TransactionWal.sealEntry (.sealed outcome) with
  | .error error => raise (walError error)
  | .ok () =>
    updateKernel fun k => { k with nextSequence := k.nextSequence + 1, sealed := some outcome }

def insertChanges (changes : TreeMap ChangeId (ChangeRecord V))
    (terminalChanges : List (ChangeRecord V)) : TreeMap ChangeId (ChangeRecord V) :=
  terminalChanges.foldl (fun changes change => changes.insert change.changeId change) changes

def commitSeal (authorization : CommitAuthorization) (terminalChanges : List (ChangeRecord V)) :
    KernelM V W ω Unit := do
  match ← callWal TransactionWal.sealEntry (.commitSealed authorization terminalChanges) with
  | .error error =>
    raise ⟨.commitOutcomeUnknown, s!"commit seal outcome is unknown: {error}"⟩
  | .ok () =>
    updateKernel fun k => { k with
      nextSequence := k.nextSequence + 1
      changes := insertChanges k.changes terminalChanges
      commitAuthorization := some authorization
      sealed := some .committed }

def appendOperationIntent (changeId : ChangeId) (operationId : OperationId)
    (operation : OperationIntentKind) : KernelM V W ω Unit :=
  appendEvent (.operationIntent changeId operationId operation)

def persistChange (changeId : ChangeId) (state : ChangeState) (operationId : OperationId)
    (receipt : Option (MutationReceipt V)) (message : Option String)
    (markExperimentVerified : Bool) : KernelM V W ω Unit := do
  match (← kernel).changes[changeId]? with
  | none => raise ⟨.invalidState, s!"unknown change '{changeId}'"⟩
  | some change =>
    let snapshot : ChangeRecord V := { change with
      state := state
      lastOperationId := operationId
      lastReceipt := receipt
      message := message
      experimentVerified := markExperimentVerified || change.experimentVerified }
    appendEvent (.changeUpsert snapshot)
    updateKernel fun k => { k with changes := k.changes.insert changeId snapshot }

def updateChange (changeId : ChangeId) (state : ChangeState) (operationId : OperationId)
    (receipt : Option (MutationReceipt V)) (message : Option String) : KernelM V W ω Unit :=
  persistChange changeId state operationId receipt message false

def updateAfterEffect (changeId : ChangeId) (state : ChangeState) (operationId : OperationId)
    (receipt : Option (MutationReceipt V)) (message : Option String)
    (markExperimentVerified : Bool) : KernelM V W ω Unit := do
  match ← attempt (persistChange changeId state operationId receipt message
      markExperimentVerified) with
  | .ok () => pure ()
  | .error error =>
    updateKernel fun k => { k with
      changes := match k.changes[changeId]? with
        | none => k.changes
        | some change => k.changes.insert changeId { change with
            state := .appliedUnknown
            lastOperationId := operationId
            message := some "effect completed but its result was not durable in the WAL" } }
    raise error

def setUnknown (changeId : ChangeId) (operationId : OperationId)
    (receipt : Option (MutationReceipt V)) (message : String) : KernelM V W ω Unit :=
  updateChange changeId .appliedUnknown operationId receipt (some message)

/-- Ends in an error in every case, so its result has any type. -/
def markApplyUnknown {α : Type} (changeId : ChangeId) (operationId : OperationId)
    (receipt : Option (MutationReceipt V)) (message : String) : KernelM V W ω α := do
  setUnknown changeId operationId receipt message
  raise ⟨.appliedUnknown, s!"apply outcome for change '{changeId}' is unknown: {message}"⟩

/-- Ends in the error that `unknown_after_provider_error` returns. -/
def unknownAfterProviderError {α : Type} (changeId : ChangeId) (operationId : OperationId)
    (error : ProviderError) : KernelM V W ω α := do
  let message := s!"provider operation outcome is unknown: {error}"
  match ← attempt (setUnknown changeId operationId none message) with
  | .error persistError => raise persistError
  | .ok () => raise ⟨.appliedUnknown, s!"change '{changeId}': {message}"⟩

def markDrift {α : Type} (changeId : ChangeId) (message : String) : KernelM V W ω α := do
  let operationId ← nextOperationId "drift"
  updateChange changeId .driftDetected operationId none (some message)
  raise ⟨.externalDrift, s!"external drift detected for change '{changeId}': {message}"⟩

def ensureExpected (changeId : ChangeId) (expected : ExpectedState) : KernelM V W ω Unit := do
  if ← matchesExpected changeId expected then pure ()
  else markDrift changeId "resource changed outside the transaction"

/-! ## Effects on one change -/

/-- The part of `apply_and_verify` that issues the apply and settles its outcome. -/
def applyOutcome (changeId : ChangeId) (operationId : OperationId) (record : ChangeRecord V)
    (driver : MutationDriver V W) : KernelM V W ω (Option (MutationReceipt V)) := do
  let request : MutationApplyRequest V := ⟨operationId, record.prepared⟩
  match ← callDriver (driver.apply request) (.apply changeId request) with
  | .ok receipt =>
    match receipt.state with
    | .applied => pure (some receipt)
    | .notApplied =>
      updateChange changeId .failedNotApplied operationId (some receipt)
        (some "driver reported not applied")
      raise ⟨.provider, s!"change '{changeId}' was not applied"⟩
    | _ =>
      markApplyUnknown changeId operationId (some receipt)
        "driver returned an ambiguous apply state"
  | .error error =>
    match ← callDriver (driver.status ⟨operationId⟩) (.status ⟨operationId⟩) with
    | .ok ⟨_, .applied, _, _⟩ => pure none
    | .ok ⟨_, .notApplied, _, _⟩ =>
      updateChange changeId .failedNotApplied operationId none
        (some s!"apply failed and status is not-applied: {error}")
      raise (providerError error)
    | _ =>
      markApplyUnknown changeId operationId none
        s!"apply failed and status could not prove the outcome: {error}"

/-- The rest of `apply_and_verify`, after the apply has been announced. -/
def applyAnnounced (changeId : ChangeId) (operationId : OperationId)
    (successState : ChangeState) : KernelM V W ω Unit := do
  let record ← changeAt changeId
  let driver ← ofExcept ((← kernel).driverForRecord record)
  let receipt ← applyOutcome changeId operationId record driver
  let request : MutationVerifyRequest V := ⟨operationId, record.prepared, record.prepared.desired⟩
  match ← callDriver (driver.verify request) (.verify changeId request) with
  | .ok verification =>
    if verification.matched then
      updateAfterEffect changeId successState operationId receipt none
        (successState == .appliedVerified)
    else
      markApplyUnknown changeId operationId receipt
        "applied value did not match the prepared desired state"
  | .error error =>
    markApplyUnknown changeId operationId receipt
      s!"applied value could not be verified: {error}"

def applyAndVerify (changeId : ChangeId) (operationId : OperationId) (successState : ChangeState)
    (intentAlreadyAppended : Bool) : KernelM V W ω Unit := do
  if !intentAlreadyAppended && (← changeAt changeId).state != .intentDurable then
    appendOperationIntent changeId operationId .apply
  applyAnnounced changeId operationId successState

/-- The part of `restore_one` that issues the restore and settles its receipt. -/
def restoreReceipt [Inhabited V] (changeId : ChangeId) (operationId : OperationId)
    (record : ChangeRecord V) (driver : MutationDriver V W) :
    KernelM V W ω (MutationReceipt V) := do
  let request : MutationRestoreRequest V := ⟨operationId, record.prepared⟩
  match ← callDriver (driver.restore request) (.restore changeId request) with
  | .ok receipt =>
    if receipt.state = .restored then pure receipt
    else
      setUnknown changeId operationId (some receipt) "restore returned an ambiguous state"
      raise ⟨.appliedUnknown, s!"restore outcome for change '{changeId}' is unknown"⟩
  | .error error =>
    match ← callDriver (driver.status ⟨operationId⟩) (.status ⟨operationId⟩) with
    | .ok ⟨_, .restored, _, _⟩ =>
      pure ⟨operationId, .restored, some record.prepared.baseline, default⟩
    | _ => unknownAfterProviderError changeId operationId error

/-- The rest of `restore_one`, reached when the resource holds the desired value. -/
def restoreDesired [Inhabited V] (changeId : ChangeId) (restoredState : ChangeState) :
    KernelM V W ω Unit := do
  let operationId ← nextOperationId "restore"
  appendOperationIntent changeId operationId .restore
  let record ← changeAt changeId
  let driver ← ofExcept ((← kernel).driverForRecord record)
  let receipt ← restoreReceipt changeId operationId record driver
  if ← matchesExpected changeId .baseline then
    updateAfterEffect changeId restoredState operationId (some receipt) none false
  else
    setUnknown changeId operationId (some receipt)
      "restore completed but baseline readback did not match"
    raise ⟨.appliedUnknown, s!"restored state of change '{changeId}' could not be verified"⟩

def restoreOne [Inhabited V] (changeId : ChangeId) (restoredState : ChangeState) :
    KernelM V W ω Unit := do
  let state := (← changeAt changeId).state
  if state = .finalized then
    raise ⟨.invalidState, s!"finalized change '{changeId}' cannot be restored"⟩
  else if state = .rolledBack ∧ restoredState = .rolledBack then
    ensureExpected changeId .baseline
  else if ← matchesExpected changeId .baseline then
    if state ≠ restoredState then
      let operationId ← nextOperationId "baseline-observed"
      updateChange changeId restoredState operationId none none
  else if ← matchesExpected changeId .desired then
    restoreDesired changeId restoredState
  else
    markDrift changeId "resource matches neither baseline nor desired state"

end ScxAgent
