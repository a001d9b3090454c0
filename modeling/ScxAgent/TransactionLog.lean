import ScxAgent.MutationDomain

/-!
# Change records, log entries and the interfaces of the kernel

The types of `kernel/transaction/types.rs`, `error.rs` and `wal.rs`, and the two traits
through which the kernel meets its surroundings. Every call to a driver or to the log
ends in a `Reply`: it answers, or the process crashes during the call. A driver acts
on a world `W`, which holds the resources and whatever the drivers remember.
-/

namespace ScxAgent

open Std

def maxChangesPerTransaction : ℕ := 64

inductive ChangeState where
  | intentDurable
  | appliedUnknown
  | appliedVerified
  | baselineRestored
  | candidateApplied
  | finalized
  | rolledBack
  | failedNotApplied
  | driftDetected
  deriving DecidableEq

/-- The `Debug` text of a state. -/
def ChangeState.debug : ChangeState → String
  | .intentDurable => "IntentDurable"
  | .appliedUnknown => "AppliedUnknown"
  | .appliedVerified => "AppliedVerified"
  | .baselineRestored => "BaselineRestored"
  | .candidateApplied => "CandidateApplied"
  | .finalized => "Finalized"
  | .rolledBack => "RolledBack"
  | .failedNotApplied => "FailedNotApplied"
  | .driftDetected => "DriftDetected"

/-- The states that need durable experiment evidence. -/
def ChangeState.verified : ChangeState → Bool
  | .appliedVerified | .candidateApplied | .finalized => true
  | _ => false

inductive OperationIntentKind where
  | apply
  | restore
  | finalize
  deriving DecidableEq

structure ChangeRecord (V : Type) where
  transactionId : TransactionId
  changeId : ChangeId
  supersedes : Option ChangeId
  capabilityId : CapabilityId
  resource : ResourceKey
  prepared : PreparedMutation V
  experimentVerified : Bool
  state : ChangeState
  lastOperationId : OperationId
  lastReceipt : Option (MutationReceipt V)
  message : Option String
  deriving DecidableEq

inductive TransactionSeal where
  | committed
  | rolledBack
  deriving DecidableEq

def TransactionSeal.debug : TransactionSeal → String
  | .committed => "Committed"
  | .rolledBack => "RolledBack"

inductive WalEvent (V : Type) where
  | started (intentPin : EvaluationIntentPin) (capabilityGeneration : ℕ)
  | changeUpsert (change : ChangeRecord V)
  | operationIntent (changeId : ChangeId) (operationId : OperationId)
      (operation : OperationIntentKind)
  | sealed (outcome : TransactionSeal)
  | commitSealed (authorization : CommitAuthorization) (changes : List (ChangeRecord V))
  deriving DecidableEq

def WalEvent.terminal {V : Type} : WalEvent V → Bool
  | .sealed _ | .commitSealed _ _ => true
  | _ => false

structure WalEntry (V : Type) where
  sequence : ℕ
  transactionId : TransactionId
  event : WalEvent V
  deriving DecidableEq

inductive TransactionErrorKind where
  | appliedUnknown
  | capabilityUnavailable
  | commitOutcomeUnknown
  | corruptWal
  | duplicateChange
  | duplicateResource
  | externalDrift
  | invalidCandidate
  | invalidState
  | pinMismatch
  | provider
  | sealed
  | wal
  deriving DecidableEq

structure TransactionError where
  kind : TransactionErrorKind
  message : String
  deriving DecidableEq

instance : ToString TransactionError := ⟨TransactionError.message⟩

structure WalError where
  message : String
  deriving DecidableEq

instance : ToString WalError := ⟨WalError.message⟩

inductive Reply (ε α : Type) where
  | crashed
  | answered (result : Except ε α)

/-- The trait `TransactionWal`. -/
class TransactionWal (V : outParam Type) (ω : Type) where
  appendDurable : ω → WalEntry V → Reply WalError Unit × ω
  load : ω → Except WalError (List (WalEntry V))
  sealEntry : ω → WalEntry V → Reply WalError Unit × ω

structure CapabilityMeta where
  provider : ProviderPin

/-- The trait `MutationDriver`. -/
structure MutationDriver (V W : Type) where
  capabilityMeta : CapabilityMeta
  prepare : MutationPrepareRequest V → W → Reply ProviderError (PreparedMutation V) × W
  apply : MutationApplyRequest V → W → Reply ProviderError (MutationReceipt V) × W
  status : MutationQuery → W → Reply ProviderError (MutationStatus V) × W
  verify : MutationVerifyRequest V → W → Reply ProviderError (MutationVerification V) × W
  restore : MutationRestoreRequest V → W → Reply ProviderError (MutationReceipt V) × W
  finalize : MutationFinalizeRequest V → W → Reply ProviderError (MutationReceipt V) × W

/-- A snapshot is taken from a registry, which stores each driver under the metadata
that the driver reports. -/
structure CapabilitySnapshot (V W : Type) where
  generation : ℕ
  metadata : TreeMap CapabilityId CapabilityMeta
  mutations : TreeMap CapabilityId (MutationDriver V W)
  registered : ∀ (id : CapabilityId) (driver : MutationDriver V W), mutations[id]? = some driver →
    metadata[id]? = some driver.capabilityMeta

end ScxAgent
