import ScxAgent.KernelCalls

/-!
# Recovery from the log

`TransactionKernel::recover` and the checks it makes. A replay visits the entries once and
keeps its accumulators in a `Replay`. What follows the loop of the source turns the final
accumulators into a kernel.
-/

namespace ScxAgent

open Std StepLogic

variable {V W ω : Type}

structure Replay (V : Type) where
  changes : TreeMap ChangeId (ChangeRecord V)
  changeOrder : List ChangeId
  resourceHeads : TreeMap ResourceKey ChangeId
  pendingIntents : TreeMap ChangeId (OperationId × OperationIntentKind)
  sealed : Option TransactionSeal
  commitAuthorization : Option CommitAuthorization
  sawStart : Bool
  expectedSequence : ℕ

def Replay.initial : Replay V := ⟨∅, [], ∅, ∅, none, none, false, 0⟩

def corruptWal (message : String) : TransactionError := ⟨.corruptWal, message⟩

/-! ## Checks on one record -/

section Checks

variable [DecidableEq V] [Serialize V] [Sha256]

def validateRecoveredChange (change : ChangeRecord V) (transactionId : TransactionId)
    (capabilities : CapabilitySnapshot V W) : Except TransactionError Unit := do
  if change.transactionId ≠ transactionId ∨ change.resource ≠ change.prepared.resource ∨
      change.capabilityId ≠ change.prepared.capabilityId ∨
      change.supersedes = some change.changeId then
    .error (corruptWal s!"change '{change.changeId}' has inconsistent persisted identity")
  else
    validateStateDigest change.prepared.baseline "persisted baseline" .corruptWal
    if change.prepared.baseline = change.prepared.desired then
      .error (corruptWal s!"change '{change.changeId}' has identical baseline and desired states")
    else
      validateStateDigest change.prepared.desired "persisted desired state" .corruptWal
      if change.state.verified ∧ ¬ change.experimentVerified then
        .error (corruptWal s!"change '{change.changeId
          }' claims a verified state without durable experiment evidence")
      else match capabilities.metadata[change.capabilityId]? with
      | none => .error ⟨.capabilityUnavailable,
          s!"capability '{change.capabilityId}' is unavailable during recovery"⟩
      | some capability =>
        if capability.provider ≠ change.prepared.provider ∨
            (capabilities.mutations[change.capabilityId]?).isNone then
          .error ⟨.pinMismatch, s!"provider pin mismatch for recovered change '{change.changeId}'"⟩
        else .ok ()

def validateRecoveredRevision (change : ChangeRecord V)
    (changes : TreeMap ChangeId (ChangeRecord V)) (resourceHeads : TreeMap ResourceKey ChangeId) :
    Except TransactionError Unit :=
  if change.state ≠ .intentDurable then
    .error (corruptWal s!"first WAL record for change '{change.changeId}' is not an apply intent")
  else match change.supersedes with
  | none =>
    match resourceHeads[change.resource]? with
    | some owner => .error (corruptWal s!"resource '{change.resource
        }' is already owned by change '{owner}' but '{change.changeId}' has no revision link")
    | none => .ok ()
  | some previousId =>
    if resourceHeads[change.resource]? ≠ some previousId then
      .error (corruptWal s!"change '{change.changeId
        }' does not supersede the latest revision of resource '{change.resource}'")
    else match changes[previousId]? with
    | none => .error (corruptWal
        s!"change '{change.changeId}' supersedes unknown change '{previousId}'")
    | some previous =>
      if previous.state ≠ .baselineRestored ∨ ¬ previous.experimentVerified ∨
          previous.capabilityId ≠ change.capabilityId ∨
          previous.prepared.provider ≠ change.prepared.provider ∨
          previous.prepared.baseline ≠ change.prepared.baseline then
        .error (corruptWal
          s!"change '{change.changeId}' has an invalid predecessor '{previousId}'")
      else .ok ()

def validateRecoveredTransition (previous next : ChangeRecord V) : Except TransactionError Unit :=
  if previous.transactionId ≠ next.transactionId ∨ previous.changeId ≠ next.changeId ∨
      previous.supersedes ≠ next.supersedes ∨ previous.capabilityId ≠ next.capabilityId ∨
      previous.resource ≠ next.resource ∨ previous.prepared ≠ next.prepared then
    .error (corruptWal s!"immutable identity changed for WAL change '{previous.changeId}'")
  else if previous.experimentVerified ∧ ¬ next.experimentVerified then
    .error (corruptWal s!"experiment verification was cleared for change '{previous.changeId}'")
  else if ¬ previous.experimentVerified ∧ next.experimentVerified ∧
      next.state ≠ .appliedVerified then
    .error (corruptWal s!"change '{previous.changeId
      }' gained experiment verification outside initial apply")
  else .ok ()

/-! ## Replaying one entry -/

def resolveIntent (pending : TreeMap ChangeId (OperationId × OperationIntentKind))
    (changeId : ChangeId) (operationId : OperationId) :
    TreeMap ChangeId (OperationId × OperationIntentKind) :=
  match pending[changeId]? with
  | some (intended, _) => if intended = operationId then pending.erase changeId else pending
  | none => pending

def Replay.recordChange (st : Replay V) (change : ChangeRecord V) : Replay V :=
  { st with
    pendingIntents := resolveIntent st.pendingIntents change.changeId change.lastOperationId
    changes := st.changes.insert change.changeId change }

def Replay.createChange (st : Replay V) (change : ChangeRecord V) : Replay V :=
  { st with
    resourceHeads := st.resourceHeads.insert change.resource change.changeId
    changeOrder := st.changeOrder ++ [change.changeId] }.recordChange change

def replayUpsert (transactionId : TransactionId) (capabilities : CapabilitySnapshot V W)
    (st : Replay V) (change : ChangeRecord V) : Except TransactionError (Replay V) := do
  validateRecoveredChange change transactionId capabilities
  match st.changes[change.changeId]? with
  | some previous =>
    validateRecoveredTransition previous change
    .ok (st.recordChange change)
  | none =>
    if st.changes.size ≥ maxChangesPerTransaction then
      .error (corruptWal
        s!"transaction WAL contains more than {maxChangesPerTransaction} changes")
    else if change.experimentVerified then
      .error (corruptWal s!"first WAL record for change '{change.changeId
        }' is already experiment-verified")
    else
      validateRecoveredRevision change st.changes st.resourceHeads
      .ok (st.createChange change)

def replayIntent (st : Replay V) (changeId : ChangeId) (operationId : OperationId)
    (operation : OperationIntentKind) : Except TransactionError (Replay V) :=
  match st.changes[changeId]? with
  | none => .error (corruptWal s!"operation intent references unknown change '{changeId}'")
  | some change =>
    if operation = .finalize ∧ (change.state ≠ .candidateApplied ∨ ¬ change.experimentVerified) then
      .error (corruptWal s!"finalize intent references non-candidate change '{changeId}'")
    else
      .ok { st with
        pendingIntents := st.pendingIntents.insert changeId (operationId, operation) }

def checkTerminal (transactionId : TransactionId) (capabilities : CapabilitySnapshot V W)
    (st : Replay V) (seen : TreeSet ChangeId) (terminal : ChangeRecord V) :
    Except TransactionError (TreeSet ChangeId) := do
  validateRecoveredChange terminal transactionId capabilities
  match st.changes[terminal.changeId]? with
  | none => .error (corruptWal
      s!"commit seal references unknown change '{terminal.changeId}'")
  | some previous =>
    validateRecoveredTransition previous terminal
    if (terminal.state = .finalized ∧ previous.state ≠ .candidateApplied) ∨
        (terminal.state = .rolledBack ∧ previous.state ≠ .baselineRestored) then
      .error (corruptWal "commit seal contains an invalid terminal state transition")
    else if ¬ (terminal.state = .finalized ∨ terminal.state = .rolledBack) ∨
        seen.contains terminal.changeId then
      .error (corruptWal "commit seal contains duplicate or non-terminal changes")
    else if terminal.state = .finalized ∧
        st.resourceHeads[terminal.resource]? ≠ some terminal.changeId then
      .error (corruptWal s!"commit seal finalized superseded change '{terminal.changeId}'")
    else .ok (seen.insert terminal.changeId)

def finalizedIds (terminalChanges : List (ChangeRecord V)) : List ChangeId :=
  (terminalChanges.filter fun change => change.state = .finalized).map fun change => change.changeId

def replayCommit (transactionId : TransactionId) (intentPin : EvaluationIntentPin)
    (capabilities : CapabilitySnapshot V W) (st : Replay V) (authorization : CommitAuthorization)
    (terminalChanges : List (ChangeRecord V)) : Except TransactionError (Replay V) := do
  if ¬ st.pendingIntents.isEmpty ∨ terminalChanges = [] ∨
      terminalChanges.length ≠ st.changes.size then
    .error (corruptWal "commit seal does not cover a fully acknowledged change set")
  else
    let _ ← terminalChanges.foldlM (checkTerminal transactionId capabilities st) ∅
    match Candidate.new (finalizedIds terminalChanges) with
    | .error error => .error (corruptWal s!"commit seal has an invalid candidate: {error}")
    | .ok committedCandidate =>
      if authorization.candidateDigest ≠ committedCandidate.digest then
        .error (corruptWal "commit authorization does not match the committed candidate")
      else if authorization.intentPin ≠ intentPin then
        .error (corruptWal
          "commit authorization does not match the transaction evaluation intent")
      else .ok { st with
        sealed := some .committed
        commitAuthorization := some authorization
        changes := insertChanges st.changes terminalChanges }

/-- One turn of the loop of `recover` over a log of `total` entries. -/
def replayEntry (transactionId : TransactionId) (intentPin : EvaluationIntentPin)
    (capabilities : CapabilitySnapshot V W) (total : ℕ) (before : Replay V) (entry : WalEntry V) :
    Except TransactionError (Replay V) :=
  if entry.transactionId ≠ transactionId then
    .error (corruptWal "WAL contains a different transaction id")
  else if entry.sequence ≠ before.expectedSequence then
    .error (corruptWal s!"WAL sequence gap: expected {before.expectedSequence
      }, got {entry.sequence}")
  else
    let st := { before with expectedSequence := before.expectedSequence + 1 }
    match entry.event with
    | .started storedIntentPin _ =>
      if st.sawStart ∨ storedIntentPin ≠ intentPin ∨ entry.sequence ≠ 0 then
        .error (corruptWal
          "transaction start record does not match the expected evaluation intent")
      else .ok { st with sawStart := true }
    | .changeUpsert change => replayUpsert transactionId capabilities st change
    | .operationIntent changeId operationId operation =>
      replayIntent st changeId operationId operation
    | .sealed outcome =>
      if st.sealed.isSome ∨ entry.sequence + 1 ≠ total then
        .error (corruptWal "seal must be the final and only terminal WAL record")
      else .ok { st with sealed := some outcome }
    | .commitSealed authorization terminalChanges =>
      if st.sealed.isSome ∨ entry.sequence + 1 ≠ total then
        .error (corruptWal "commit seal must be the final and only terminal WAL record")
      else replayCommit transactionId intentPin capabilities st authorization terminalChanges

/-! ## From the replay to a kernel -/

def recoverIntent (pending : Option (OperationId × OperationIntentKind))
    (change : ChangeRecord V) : ChangeRecord V :=
  match pending with
  | none => change
  | some (operationId, .finalize) => { change with
      lastOperationId := operationId
      message := some
        "recovered an unacknowledged finalize request; change remains rollbackable" }
  | some (operationId, _) => { change with
      state := .appliedUnknown
      lastOperationId := operationId
      message := some "recovered an operation intent without a result" }

def recoverInitialApply (change : ChangeRecord V) : ChangeRecord V :=
  if change.state = .intentDurable then
    { change with
      state := .appliedUnknown
      message := some "recovered an initial apply intent without a result" }
  else change

def terminalUnder (outcome : TransactionSeal) (state : ChangeState) (experimentVerified : Bool) :
    Bool :=
  match outcome with
  | .committed => (state = .finalized || state = .rolledBack) &&
      (state ≠ .finalized || experimentVerified)
  | .rolledBack => state = .rolledBack

/-- The changes of `recover` after its loop. -/
def Replay.recoveredChanges (st : Replay V) : TreeMap ChangeId (ChangeRecord V) :=
  st.changes.map fun changeId change =>
    recoverInitialApply (recoverIntent st.pendingIntents[changeId]? change)

/-- Every identifier of the change order has a record, so the source's indexing by it
does not panic. -/
def Replay.candidateIds (st : Replay V) : List ChangeId :=
  st.changeOrder.filter fun changeId =>
    match st.recoveredChanges[changeId]? with
    | some change => change.state = .candidateApplied && change.experimentVerified
    | none => false

def Replay.superseded (st : Replay V) (changeId : ChangeId) : Bool :=
  match st.recoveredChanges[changeId]? with
  | some change => st.resourceHeads[change.resource]? ≠ some changeId
  | none => false

def Replay.activeCandidate (st : Replay V) : Except TransactionError (Option Candidate) :=
  if st.candidateIds = [] then .ok none
  else match Candidate.new st.candidateIds with
    | .error error => .error (corruptWal error)
    | .ok candidate => .ok (some candidate)

def Replay.finish (st : Replay V) : Except TransactionError (Option Candidate) :=
  if ¬ st.sawStart then
    .error (corruptWal "WAL is missing the transaction start record")
  else if st.sealed.any fun outcome => !st.recoveredChanges.toList.all fun entry =>
      terminalUnder outcome entry.2.state entry.2.experimentVerified then
    .error (corruptWal "sealed WAL contains non-terminal or unverified changes")
  else match st.candidateIds.find? st.superseded with
  | some changeId => .error (corruptWal s!"superseded change '{changeId}' is candidate-applied")
  | none => st.activeCandidate

def replayLog (transactionId : TransactionId) (intentPin : EvaluationIntentPin)
    (capabilities : CapabilitySnapshot V W) (total : ℕ) (entries : List (WalEntry V)) :
    Except TransactionError (Replay V) :=
  entries.foldlM (replayEntry transactionId intentPin capabilities total) Replay.initial

def recover [TransactionWal V ω] (transactionId : TransactionId)
    (intentPin : EvaluationIntentPin) (capabilities : CapabilitySnapshot V W) (wal : ω) :
    Except TransactionError (TransactionKernel V W ω) :=
  match TransactionWal.load wal with
  | .error error => .error (walError error)
  | .ok entries => do
    let st ← replayLog transactionId intentPin capabilities entries.length entries
    let activeCandidate ← st.finish
    .ok
      { transactionId, intentPin, capabilities, wal
        changes := st.recoveredChanges
        resourceHeads := st.resourceHeads
        changeOrder := st.changeOrder
        nextSequence := st.expectedSequence
        operationCounter := st.expectedSequence
        activeCandidate
        commitAuthorization := st.commitAuthorization
        sealed := st.sealed }

end Checks

end ScxAgent
