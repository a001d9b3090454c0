import ScxAgent.TransactionRecovery

/-!
# The store's inspection of a log

`inspect_log` of `kernel/transaction/store.rs`. Startup recovery sorts the logs it finds by
this function, which reads a log without the capabilities that wrote it.
-/

namespace ScxAgent

open Std

variable {V : Type}

structure FileIdentity where
  device : ℕ
  inode : ℕ
  deriving DecidableEq

structure RecoveryChange where
  changeId : ChangeId
  supersedes : Option ChangeId
  capabilityId : CapabilityId
  resource : ResourceKey
  experimentVerified : Bool
  state : ChangeState
  deriving DecidableEq

def ChangeRecord.recoveryChange (change : ChangeRecord V) : RecoveryChange :=
  { changeId := change.changeId
    supersedes := change.supersedes
    capabilityId := change.capabilityId
    resource := change.resource
    experimentVerified := change.experimentVerified
    state := change.state }

structure PendingTransaction where
  transactionId : TransactionId
  intentPin : EvaluationIntentPin
  capabilityGeneration : ℕ
  path : String
  entryCount : ℕ
  nextSequence : ℕ
  changes : List RecoveryChange
  pendingOperationCount : ℕ
  hasAppliedUnknown : Bool
  identity : FileIdentity
  deriving DecidableEq

structure SealedTransaction where
  transactionId : TransactionId
  intentPin : EvaluationIntentPin
  path : String
  outcome : TransactionSeal
  authorization : Option CommitAuthorization
  deriving DecidableEq

inductive LogState where
  | pending (transaction : PendingTransaction)
  | sealed (transaction : SealedTransaction)
  deriving DecidableEq

/-- The accumulators of the loop of `inspect_log`. -/
structure Inspection where
  intentPin : Option EvaluationIntentPin
  capabilityGeneration : Option ℕ
  changes : TreeMap ChangeId RecoveryChange
  resourceHeads : TreeMap ResourceKey ChangeId
  resourceBaselines : TreeMap ResourceKey Digest
  resourceProviders : TreeMap ResourceKey ProviderPin
  knownChanges : TreeSet ChangeId
  pendingOperations : TreeMap ChangeId (OperationId × OperationIntentKind)
  sealed : Option TransactionSeal
  commitAuthorization : Option CommitAuthorization

def Inspection.initial : Inspection := ⟨none, none, ∅, ∅, ∅, ∅, ∅, ∅, none, none⟩

section Entries

variable [DecidableEq V] [Serialize V] [Sha256]

def digestMatches (state : MutationState V) : Bool :=
  match contentDigest state.value with
  | .ok digest => digest = state.digest
  | .error _ => false

def checkUpdate (previous : RecoveryChange) (change : ChangeRecord V) : Except WalError Unit :=
  if previous.resource ≠ change.resource ∨ previous.capabilityId ≠ change.capabilityId ∨
      previous.supersedes ≠ change.supersedes then
    .error ⟨s!"change '{change.changeId}' changed capability or resource identity in the WAL"⟩
  else if previous.experimentVerified ∧ ¬ change.experimentVerified then
    .error ⟨s!"change '{change.changeId}' cleared durable experiment verification"⟩
  else if ¬ previous.experimentVerified ∧ change.experimentVerified ∧
      change.state ≠ .appliedVerified then
    .error ⟨s!"change '{change.changeId}' gained experiment verification outside initial apply"⟩
  else .ok ()

/-- Accepts the first record of a change and makes it the head of its resource. -/
def inspectFirst (st : Inspection) (change : ChangeRecord V) : Except WalError Inspection :=
  if st.changes.size ≥ maxChangesPerTransaction then
    .error ⟨s!"transaction WAL contains more than {maxChangesPerTransaction} changes"⟩
  else if change.experimentVerified then
    .error ⟨s!"first WAL record for change '{change.changeId}' is already experiment-verified"⟩
  else if change.state ≠ .intentDurable then
    .error ⟨s!"first WAL record for change '{change.changeId}' is not an apply intent"⟩
  else match change.supersedes with
  | none =>
    match st.resourceHeads[change.resource]? with
    | some owner => .error ⟨s!"resource '{change.resource}' is already owned by '{owner
        }' but '{change.changeId}' has no revision link"⟩
    | none => .ok { st with
        resourceBaselines :=
          st.resourceBaselines.insert change.resource change.prepared.baseline.digest
        resourceProviders := st.resourceProviders.insert change.resource change.prepared.provider
        resourceHeads := st.resourceHeads.insert change.resource change.changeId }
  | some previousId =>
    match st.changes[previousId]? with
    | none => .error ⟨s!"change '{change.changeId}' supersedes unknown change '{previousId}'"⟩
    | some previous =>
      if st.resourceHeads[change.resource]? ≠ some previousId ∨
          previous.state ≠ .baselineRestored ∨ ¬ previous.experimentVerified ∨
          previous.capabilityId ≠ change.capabilityId ∨
          st.resourceBaselines[change.resource]? ≠ some change.prepared.baseline.digest ∨
          st.resourceProviders[change.resource]? ≠ some change.prepared.provider then
        .error ⟨s!"change '{change.changeId}' has an invalid predecessor '{previousId}'"⟩
      else .ok { st with
        resourceHeads := st.resourceHeads.insert change.resource change.changeId }

def inspectUpsert (expectedTransactionId : TransactionId) (st : Inspection)
    (change : ChangeRecord V) : Except WalError Inspection := do
  if st.intentPin.isNone then .error ⟨"change appears before transaction start"⟩
  else if change.transactionId ≠ expectedTransactionId then
    .error ⟨s!"change '{change.changeId}' belongs to a different transaction"⟩
  else if !digestMatches change.prepared.baseline || !digestMatches change.prepared.desired then
    .error ⟨s!"change '{change.changeId
      }' contains a state digest that does not match its value"⟩
  else if change.prepared.baseline.value = change.prepared.desired.value then
    .error ⟨s!"change '{change.changeId}' has identical baseline and desired states"⟩
  else
    let st ← match st.changes[change.changeId]? with
      | some previous => do
        checkUpdate previous change
        pure st
      | none => inspectFirst st change
    if change.state.verified ∧ ¬ change.experimentVerified then
      .error ⟨s!"change '{change.changeId
        }' has a verified state without experiment evidence"⟩
    else .ok { st with
      knownChanges := st.knownChanges.insert change.changeId
      pendingOperations :=
        resolveIntent st.pendingOperations change.changeId change.lastOperationId
      changes := st.changes.insert change.changeId change.recoveryChange }

/-- A known change has a record, so the source's indexing of `changes` does not panic. -/
def inspectIntent (st : Inspection) (changeId : ChangeId) (operationId : OperationId)
    (operation : OperationIntentKind) : Except WalError Inspection :=
  if ¬ st.knownChanges.contains changeId then
    .error ⟨s!"operation intent references unknown change '{changeId}'"⟩
  else if operation = .finalize ∧ ¬ (st.changes[changeId]?).any fun change =>
      change.state = .candidateApplied && change.experimentVerified then
    .error ⟨s!"finalize intent references non-candidate change '{changeId}'"⟩
  else .ok { st with
    pendingOperations := st.pendingOperations.insert changeId (operationId, operation) }

def inspectTerminal (expectedTransactionId : TransactionId) (st : Inspection)
    (seen : TreeSet ChangeId) (terminal : ChangeRecord V) :
    Except WalError (TreeSet ChangeId) :=
  if terminal.transactionId ≠ expectedTransactionId ∨
      ¬ (terminal.state = .finalized ∨ terminal.state = .rolledBack) ∨
      (terminal.state = .finalized ∧ ¬ terminal.experimentVerified) ∨
      seen.contains terminal.changeId then
    .error ⟨"commit seal contains invalid terminal changes"⟩
  else match st.changes[terminal.changeId]? with
  | none => .error ⟨s!"commit seal references unknown change '{terminal.changeId}'"⟩
  | some previous =>
    if previous.capabilityId ≠ terminal.capabilityId ∨ previous.resource ≠ terminal.resource ∨
        previous.supersedes ≠ terminal.supersedes ∨
        previous.experimentVerified ≠ terminal.experimentVerified ∨
        (terminal.state = .finalized ∧ previous.state ≠ .candidateApplied) ∨
        (terminal.state = .rolledBack ∧ previous.state ≠ .baselineRestored) then
      .error ⟨s!"commit seal changed identity or experiment evidence for '{
        terminal.changeId}'"⟩
    else if terminal.state = .finalized ∧
        st.resourceHeads[terminal.resource]? ≠ some terminal.changeId then
      .error ⟨s!"commit seal finalized superseded change '{terminal.changeId}'"⟩
    else .ok (seen.insert terminal.changeId)

def insertRecoveryChanges (changes : TreeMap ChangeId RecoveryChange)
    (terminalChanges : List (ChangeRecord V)) : TreeMap ChangeId RecoveryChange :=
  terminalChanges.foldl
    (fun changes terminal => changes.insert terminal.changeId terminal.recoveryChange) changes

def inspectCommit (expectedTransactionId : TransactionId) (st : Inspection)
    (authorization : CommitAuthorization) (terminalChanges : List (ChangeRecord V)) :
    Except WalError Inspection := do
  if st.sealed.isSome ∨ ¬ st.pendingOperations.isEmpty ∨ terminalChanges = [] ∨
      terminalChanges.length ≠ st.changes.size then
    .error ⟨"commit seal is not a complete, acknowledged terminal record"⟩
  else
    let _ ← terminalChanges.foldlM (inspectTerminal expectedTransactionId st) ∅
    match Candidate.new (finalizedIds terminalChanges) with
    | .error error => .error ⟨s!"commit seal has an invalid candidate: {error}"⟩
    | .ok committedCandidate =>
      if authorization.candidateDigest ≠ committedCandidate.digest then
        .error ⟨"commit authorization does not match the committed candidate"⟩
      else if some authorization.intentPin ≠ st.intentPin then
        .error ⟨"commit authorization does not match the transaction evaluation intent"⟩
      else .ok { st with
        sealed := some .committed
        commitAuthorization := some authorization
        changes := insertRecoveryChanges st.changes terminalChanges }

/-- One turn of the loop of `inspect_log` over a log of `total` entries. -/
def inspectEntry (expectedTransactionId : TransactionId) (total : ℕ) (st : Inspection)
    (item : WalEntry V × ℕ) : Except WalError Inspection :=
  let entry := item.1
  let index := item.2
  if entry.transactionId ≠ expectedTransactionId then
    .error ⟨s!"WAL entry {index + 1} transaction id does not match its filename"⟩
  else if entry.sequence ≠ index then
    .error ⟨s!"WAL sequence gap at entry {index + 1}: expected {index}, got {entry.sequence}"⟩
  else match entry.event with
  | .started intentPin capabilityGeneration =>
    if index ≠ 0 ∨ st.intentPin.isSome then
      .error ⟨"transaction WAL must contain exactly one leading start record"⟩
    else .ok { st with
      intentPin := some intentPin
      capabilityGeneration := some capabilityGeneration }
  | .changeUpsert change => inspectUpsert expectedTransactionId st change
  | .operationIntent changeId operationId operation =>
    inspectIntent st changeId operationId operation
  | .sealed outcome =>
    if outcome = .committed then
      .error ⟨"committed transaction seal is missing commit authorization"⟩
    else if index + 1 ≠ total ∨ st.sealed.isSome then
      .error ⟨"transaction seal must be the final and only seal record"⟩
    else .ok { st with sealed := some outcome }
  | .commitSealed authorization terminalChanges =>
    if index + 1 ≠ total then
      .error ⟨"commit seal is not a complete, acknowledged terminal record"⟩
    else inspectCommit expectedTransactionId st authorization terminalChanges

end Entries

/-- The changes come out of the map in the order that the source sorts them into. -/
def Inspection.pendingTransaction (st : Inspection) (path : String)
    (transactionId : TransactionId) (intentPin : EvaluationIntentPin) (capabilityGeneration : ℕ)
    (entryCount : ℕ) (identity : FileIdentity) : PendingTransaction :=
  let changes := st.changes.toList.map fun entry => entry.2
  { transactionId, intentPin, capabilityGeneration, path, entryCount
    nextSequence := entryCount
    changes
    pendingOperationCount := st.pendingOperations.size
    hasAppliedUnknown :=
      (st.pendingOperations.toList.any fun entry => entry.2.2 ≠ .finalize) ||
        changes.any fun change => change.state = .intentDurable || change.state = .appliedUnknown
    identity }

def Inspection.finish (st : Inspection) (path : String) (transactionId : TransactionId)
    (entryCount : ℕ) (identity : FileIdentity) : Except WalError LogState :=
  match st.intentPin with
  | none => .error ⟨"transaction WAL has no start record"⟩
  | some intentPin =>
    match st.sealed with
    | some outcome =>
      if ¬ st.pendingOperations.isEmpty then
        .error ⟨"sealed transaction WAL contains unresolved operation intents"⟩
      else if !st.changes.toList.all fun entry =>
          terminalUnder outcome entry.2.state entry.2.experimentVerified then
        .error ⟨"sealed transaction WAL contains non-terminal change state"⟩
      else match outcome, st.commitAuthorization with
      | .rolledBack, _ =>
        .ok (.sealed { transactionId, intentPin, path, outcome, authorization := none })
      | .committed, some authorization =>
        .ok (.sealed
          { transactionId, intentPin, path, outcome, authorization := some authorization })
      | .committed, none => .error ⟨"committed transaction seal has no authorization"⟩
    | none =>
      match st.capabilityGeneration with
      | none => .error ⟨"transaction WAL start has no generation"⟩
      | some generation =>
        .ok (.pending
          (st.pendingTransaction path transactionId intentPin generation entryCount identity))

def inspectEntries [DecidableEq V] [Serialize V] [Sha256] (transactionId : TransactionId)
    (entries : List (WalEntry V)) : Except WalError Inspection :=
  entries.zipIdx.foldlM (inspectEntry transactionId entries.length) Inspection.initial

def inspectLog [DecidableEq V] [Serialize V] [Sha256] (path : String)
    (expectedTransactionId : TransactionId) (entries : List (WalEntry V))
    (identity : FileIdentity) : Except WalError LogState := do
  if entries = [] then .error ⟨"transaction WAL is empty"⟩
  else
    let st ← inspectEntries expectedTransactionId entries
    st.finish path expectedTransactionId entries.length identity

end ScxAgent
