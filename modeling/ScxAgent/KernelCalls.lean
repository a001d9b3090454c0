import ScxAgent.TransactionKernel

/-!
# The public calls of the kernel

`begin`, `experiment`, `restore_baseline`, `replay_candidate`, `finalize_candidate` and
`rollback_all` of `kernel/transaction/kernel.rs`. The loops of the source that check and act on
one change at a time are cut out under their own names.
-/

namespace ScxAgent

open Std StepLogic

variable {V W ω : Type} [Sha256] [TransactionWal V ω]

def TransactionKernel.begin (transactionId : TransactionId) (intentPin : EvaluationIntentPin)
    (capabilities : CapabilitySnapshot V W) (wal : ω) (world : W) :
    Except (Halt TransactionError) Unit × Machine V W ω :=
  let fresh : TransactionKernel V W ω :=
    { transactionId, intentPin, capabilities, wal
      changes := ∅
      resourceHeads := ∅
      changeOrder := []
      nextSequence := 0
      operationCounter := 0
      activeCandidate := none
      commitAuthorization := none
      sealed := none }
  appendEvent (.started intentPin capabilities.generation) ⟨fresh, world, []⟩

/-! ## `experiment` -/

def prepareMutation [DecidableEq V] [Serialize V] (driver : MutationDriver V W)
    (capabilityId : CapabilityId) (operationId : OperationId) (arguments : V) :
    KernelM V W ω (PreparedMutation V) := do
  let k ← kernel
  let request : MutationPrepareRequest V := ⟨⟨k.intentPin.episodeId, operationId⟩, arguments⟩
  match ← callDriver (driver.prepare request) (.prepare capabilityId request) with
  | .error error => raise (providerError error)
  | .ok prepared =>
    ofExcept (k.validatePrepared capabilityId prepared)
    pure prepared

/-- The revision of a resource that already has a head: puts the resource back to its
baseline and prepares the mutation again from there. -/
def reviseHead [DecidableEq V] [Inhabited V] [Serialize V] (driver : MutationDriver V W)
    (capabilityId : CapabilityId) (arguments : V) (initiallyPrepared : PreparedMutation V)
    (previousId : ChangeId) : KernelM V W ω (OperationId × PreparedMutation V) := do
  match (← kernel).changes[previousId]? with
  | none => raise ⟨.invalidState, s!"resource head references unknown change '{previousId}'"⟩
  | some previous =>
    if previous.state ≠ .appliedVerified ∨ ¬ previous.experimentVerified then
      raise ⟨.invalidState, s!"resource '{previous.resource}' cannot be revised from change '{
        previous.changeId}' in state {previous.state.debug}"⟩
    else if previous.capabilityId ≠ capabilityId ∨
        previous.prepared.provider ≠ initiallyPrepared.provider then
      raise ⟨.pinMismatch, s!"resource '{
        previous.resource}' must be revised through the same pinned capability"⟩
    else
      ensureExpected previousId .desired
      if initiallyPrepared.baseline ≠ previous.prepared.desired then
        raise ⟨.invalidState, s!"revision prepare for resource '{
          previous.resource}' did not observe the latest desired state"⟩
      else
        restoreOne previousId .baselineRestored
        let operationId ← nextOperationId "revision"
        let prepared ← prepareMutation driver capabilityId operationId arguments
        if prepared.resource ≠ previous.resource ∨
            prepared.baseline ≠ previous.prepared.baseline ∨
            prepared.desired ≠ initiallyPrepared.desired then
          raise ⟨.invalidState, s!"resource '{previous.resource
            }' revision changed identity, original baseline, or desired state during prepare"⟩
        else
          pure (operationId, prepared)

/-- The write-ahead record of a new change. -/
def createChange (record : ChangeRecord V) : KernelM V W ω Unit := do
  appendEvent (.changeUpsert record)
  updateKernel fun k => { k with
    resourceHeads := k.resourceHeads.insert record.resource record.changeId
    changeOrder := k.changeOrder ++ [record.changeId]
    changes := k.changes.insert record.changeId record }

def experiment [DecidableEq V] [Inhabited V] [Serialize V] (changeId : ChangeId)
    (capabilityId : CapabilityId) (arguments : V) : KernelM V W ω (ChangeRecord V) := do
  ensureOpen
  let k ← kernel
  if k.changes.contains changeId then
    raise ⟨.duplicateChange, s!"change '{changeId}' already exists"⟩
  else if k.changes.size ≥ maxChangesPerTransaction then
    raise ⟨.invalidState,
      s!"transaction cannot contain more than {maxChangesPerTransaction} changes"⟩
  else
    let driver ← ofExcept (k.driver capabilityId)
    let operationId ← nextOperationId "experiment"
    let prepared ← prepareMutation driver capabilityId operationId arguments
    let supersedes := (← kernel).resourceHeads[prepared.resource]?
    let plan ← match supersedes with
      | some previousId => reviseHead driver capabilityId arguments prepared previousId
      | none => pure (operationId, prepared)
    createChange
      { transactionId := k.transactionId
        changeId
        supersedes
        capabilityId
        resource := plan.2.resource
        prepared := plan.2
        experimentVerified := false
        state := .intentDurable
        lastOperationId := plan.1
        lastReceipt := none
        message := none }
    applyAndVerify changeId plan.1 .appliedVerified false
    changeAt changeId

/-! ## `restore_baseline`, `replay_candidate` and `rollback_all` -/

def restoreBaseline [Inhabited V] : KernelM V W ω (List (ChangeRecord V)) := do
  ensureOpen
  let ids := (← kernel).changeOrder.reverse
  ids.forM fun changeId => restoreOne changeId .baselineRestored
  updateKernel fun k => { k with activeCandidate := none }
  return (← kernel).allChanges

def checkRestored (changeId : ChangeId) : KernelM V W ω Unit := do
  let change ← changeAt changeId
  if change.state ≠ .baselineRestored then
    raise ⟨.invalidState, s!"change '{changeId
      }' must be restored before candidate replay; state={change.state.debug}"⟩

def replayChange (changeId : ChangeId) : KernelM V W ω Unit := do
  let operationId ← nextOperationId "replay"
  appendOperationIntent changeId operationId .apply
  applyAndVerify changeId operationId .candidateApplied true

def replayCandidate (candidate : Candidate) : KernelM V W ω (List (ChangeRecord V)) := do
  ensureOpen
  ofExcept ((← kernel).validateCandidate candidate)
  let ids := (← kernel).changeOrder
  ids.forM checkRestored
  ids.forM fun changeId => ensureExpected changeId .baseline
  updateKernel fun k => { k with activeCandidate := some candidate }
  candidate.changeIds.forM replayChange
  let k ← kernel
  return candidate.changeIds.filterMap fun changeId => k.changes[changeId]?

def rollbackAll [Inhabited V] : KernelM V W ω (List (ChangeRecord V)) := do
  ensureOpen
  if (← kernel).changes.toList.any fun entry => entry.2.state == .finalized then
    raise ⟨.invalidState, "cannot roll back a transaction with finalized changes"⟩
  else
    let ids := (← kernel).changeOrder.reverse
    ids.forM fun changeId => restoreOne changeId .rolledBack
    updateKernel fun k => { k with activeCandidate := none }
    sealWith .rolledBack
    return (← kernel).allChanges

/-! ## `finalize_candidate` -/

def expectedIn (candidate : Candidate) (changeId : ChangeId) : ExpectedState :=
  if candidate.contains changeId then .desired else .baseline

def checkApplied (candidate : Candidate) (changeId : ChangeId) : KernelM V W ω Unit := do
  let change ← changeAt changeId
  if (← kernel).resourceHeads[change.resource]? ≠ some changeId then pure ()
  else if candidate.contains changeId ∧ change.state ≠ .candidateApplied then
    raise ⟨.invalidState, s!"candidate change '{changeId}' is not applied"⟩
  else
    ensureExpected changeId (expectedIn candidate changeId)

def acknowledgeFinalize (changeId : ChangeId) : KernelM V W ω Unit := do
  let operationId ← nextOperationId "finalize"
  appendOperationIntent changeId operationId .finalize
  let record ← changeAt changeId
  let driver ← ofExcept ((← kernel).driverForRecord record)
  let request : MutationFinalizeRequest V := ⟨operationId, record.prepared⟩
  match ← callDriver (driver.finalize request) (.finalize changeId request) with
  | .ok receipt =>
    if receipt.state = .finalized then
      updateChange changeId .candidateApplied operationId (some receipt) none
      ensureExpected changeId .desired
    else
      updateChange changeId .candidateApplied operationId (some receipt)
        (some "provider did not acknowledge finalize")
      raise ⟨.provider, s!"provider did not acknowledge finalize for change '{changeId}'"⟩
  | .error error =>
    let message := s!"provider finalize acknowledgement failed: {error}"
    updateChange changeId .candidateApplied operationId none (some message)
    raise ⟨.provider, s!"change '{changeId}': {message}"⟩

def recheckBoundary (candidate : Candidate) (changeId : ChangeId) : KernelM V W ω Unit := do
  let change ← changeAt changeId
  if (← kernel).resourceHeads[change.resource]? ≠ some changeId then pure ()
  else ensureExpected changeId (expectedIn candidate changeId)

def terminalChange (candidate : Candidate) (changeId : ChangeId) :
    KernelM V W ω (ChangeRecord V) := do
  let change ← changeAt changeId
  return { change with
    state := if candidate.contains changeId then .finalized else .rolledBack
    message := none }

def finalizeCandidate (candidate : Candidate) (authorization : CommitAuthorization) :
    KernelM V W ω (List (ChangeRecord V)) := do
  ensureOpen
  let k ← kernel
  ofExcept (k.validateCandidate candidate)
  if authorization.intentPin ≠ k.intentPin then
    raise ⟨.pinMismatch, "commit authorization does not match the transaction evaluation intent"⟩
  else if authorization.candidateDigest ≠ candidate.digest then
    raise ⟨.invalidCandidate, "commit authorization does not match the candidate"⟩
  else if k.activeCandidate ≠ some candidate then
    raise ⟨.invalidCandidate, "candidate does not match the replayed candidate"⟩
  else
    -- every drift check comes before the first finalize call
    k.changeOrder.forM (checkApplied candidate)
    candidate.changeIds.forM acknowledgeFinalize
    k.changeOrder.forM (recheckBoundary candidate)
    let terminalChanges ← k.changeOrder.mapM (terminalChange candidate)
    commitSeal authorization terminalChanges
    return (← kernel).allChanges

end ScxAgent
