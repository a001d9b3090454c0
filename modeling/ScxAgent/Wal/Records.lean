import ScxAgent.JsonTree
import ScxAgent.TransactionLog

/-!
# Log entries as JSON

The serialized form of a log entry and how it is read back. The deserializers are derived, except
that a mutation state and a commit authorization recompute their digests.
-/

namespace ScxAgent

open JsonTree

variable {F : Type}

/-- `serde_json::to_vec` of a value. -/
instance [JsonLibrary F] : Serialize (JsonTree F) where
  toVec tree := .ok (String.ofList (JsonLibrary.print tree)).toUTF8.toList

def TextId.encode {label : String} {maxLen : ℕ} (id : TextId label maxLen) : JsonTree F :=
  .str id.value

def TextId.decode {label : String} {maxLen : ℕ} (tree : JsonTree F) :
    Except String (TextId label maxLen) := do
  TextId.new (← text tree)

/-! ## Pins and authorizations -/

def EvaluationIntentPin.encode (pin : EvaluationIntentPin) : JsonTree F :=
  .obj [("episode_id", .int pin.episodeId.value), ("intent_digest", pin.intentDigest.encode),
    ("contract_digest", pin.contractDigest.encode)]

/-- `deny_unknown_fields`. -/
def onlyFields (names : List String) : JsonTree F → Except String Unit
  | .obj members =>
    match members.find? fun member => !names.contains member.1 with
    | some member => .error s!"unknown field: {member.1}"
    | none => .ok ()
  | _ => .error "invalid type: expected an object"

def EvaluationIntentPin.decode (tree : JsonTree F) : Except String EvaluationIntentPin := do
  onlyFields ["episode_id", "intent_digest", "contract_digest"] tree
  let episodeId ← required "episode_id" word tree
  let intentDigest ← required "intent_digest" TextId.decode tree
  let contractDigest ← required "contract_digest" TextId.decode tree
  return ⟨⟨episodeId⟩, intentDigest, contractDigest⟩

def ProviderClass.name : ProviderClass → String
  | .builtin => "builtin"
  | .localHost => "local"
  | .mcp => "mcp"

def providerClasses : List (String × ProviderClass) :=
  [ProviderClass.builtin, .localHost, .mcp].map fun providerClass =>
    (providerClass.name, providerClass)

def ProviderPin.encode (pin : ProviderPin) : JsonTree F :=
  .obj [("provider_id", pin.providerId.encode), ("provider_version", pin.providerVersion.encode),
    ("provider_class", .str pin.providerClass.name),
    ("manifest_digest", pin.manifestDigest.encode)]

def ProviderPin.decode (tree : JsonTree F) : Except String ProviderPin := do
  let providerId ← required "provider_id" TextId.decode tree
  let providerVersion ← required "provider_version" TextId.decode tree
  let providerClass ← required "provider_class" (variant providerClasses) tree
  let manifestDigest ← required "manifest_digest" TextId.decode tree
  return ⟨providerId, providerVersion, providerClass, manifestDigest⟩

namespace CommitAuthorization

def payload (authorization : CommitAuthorization) : JsonTree F :=
  .obj [("intent_pin", authorization.intentPin.encode),
    ("candidate_digest", authorization.candidateDigest.encode),
    ("decision_digest", authorization.decisionDigest.encode),
    ("evaluation_evidence_digest", authorization.evaluationEvidenceDigest.encode)]

def encode (authorization : CommitAuthorization) : JsonTree F :=
  .obj [("intent_pin", authorization.intentPin.encode),
    ("candidate_digest", authorization.candidateDigest.encode),
    ("decision_digest", authorization.decisionDigest.encode),
    ("evaluation_evidence_digest", authorization.evaluationEvidenceDigest.encode),
    ("authorization_digest", authorization.authorizationDigest.encode)]

variable [JsonLibrary F] [Sha256]

def decode (tree : JsonTree F) : Except String CommitAuthorization := do
  let intentPin ← required "intent_pin" EvaluationIntentPin.decode tree
  let candidateDigest ← required "candidate_digest" TextId.decode tree
  let decisionDigest ← required "decision_digest" TextId.decode tree
  let evidenceDigest ← required "evaluation_evidence_digest" TextId.decode tree
  let authorizationDigest ← required "authorization_digest" TextId.decode tree
  let authorization : CommitAuthorization :=
    ⟨intentPin, candidateDigest, decisionDigest, evidenceDigest, authorizationDigest⟩
  let expected ← contentDigest (authorization.payload : JsonTree F)
  if expected = authorizationDigest then return authorization
  else .error "commit authorization digest does not match its evidence digests"

end CommitAuthorization

/-! ## Mutations -/

namespace MutationState

def encode (state : MutationState (JsonTree F)) : JsonTree F :=
  .obj [("value", state.value), ("digest", state.digest.encode)]

variable [JsonLibrary F] [Sha256]

def decode (tree : JsonTree F) : Except String (MutationState (JsonTree F)) := do
  let value ← required "value" .ok tree
  let digest ← required "digest" TextId.decode tree
  let expected ← contentDigest value
  if digest = expected then return ⟨value, digest⟩
  else .error "mutation state digest does not match its value"

/-- The digest is that of the value. -/
def Checked (state : MutationState (JsonTree F)) : Prop :=
  contentDigest state.value = .ok state.digest

end MutationState

def MutationOperationState.name : MutationOperationState → String
  | .notApplied => "not_applied"
  | .applied => "applied"
  | .restored => "restored"
  | .finalized => "finalized"
  | .unknown => "unknown"

def operationStates : List (String × MutationOperationState) :=
  [MutationOperationState.notApplied, .applied, .restored, .finalized, .unknown].map fun state =>
    (state.name, state)

/-- An optional value that is always written. -/
def encodeOption {α : Type} (encode : α → JsonTree F) : Option α → JsonTree F
  | none => .null
  | some value => encode value

def PreparedMutation.encode (prepared : PreparedMutation (JsonTree F)) : JsonTree F :=
  .obj [("capability_id", prepared.capabilityId.encode), ("provider", prepared.provider.encode),
    ("resource", prepared.resource.encode), ("baseline", prepared.baseline.encode),
    ("desired", prepared.desired.encode), ("driver_data", prepared.driverData)]

def MutationReceipt.encode (receipt : MutationReceipt (JsonTree F)) : JsonTree F :=
  .obj [("operation_id", receipt.operationId.encode), ("state", .str receipt.state.name),
    ("observed", encodeOption MutationState.encode receipt.observed),
    ("driver_data", receipt.driverData)]

section

variable [JsonLibrary F] [Sha256]

def PreparedMutation.decode (tree : JsonTree F) :
    Except String (PreparedMutation (JsonTree F)) := do
  let capabilityId ← required "capability_id" TextId.decode tree
  let provider ← required "provider" ProviderPin.decode tree
  let resource ← required "resource" TextId.decode tree
  let baseline ← required "baseline" MutationState.decode tree
  let desired ← required "desired" MutationState.decode tree
  let driverData ← required "driver_data" .ok tree
  return ⟨capabilityId, provider, resource, baseline, desired, driverData⟩

def MutationReceipt.decode (tree : JsonTree F) :
    Except String (MutationReceipt (JsonTree F)) := do
  let operationId ← required "operation_id" TextId.decode tree
  let state ← required "state" (variant operationStates) tree
  let observed ← optional "observed" MutationState.decode tree
  let driverData ← required "driver_data" .ok tree
  return ⟨operationId, state, observed, driverData⟩

end

/-! ## Changes -/

def ChangeState.name : ChangeState → String
  | .intentDurable => "intent_durable"
  | .appliedUnknown => "applied_unknown"
  | .appliedVerified => "applied_verified"
  | .baselineRestored => "baseline_restored"
  | .candidateApplied => "candidate_applied"
  | .finalized => "finalized"
  | .rolledBack => "rolled_back"
  | .failedNotApplied => "failed_not_applied"
  | .driftDetected => "drift_detected"

def changeStates : List (String × ChangeState) :=
  [ChangeState.intentDurable, .appliedUnknown, .appliedVerified, .baselineRestored,
    .candidateApplied, .finalized, .rolledBack, .failedNotApplied, .driftDetected].map fun state =>
      (state.name, state)

/-- A member that is left out when there is no value. -/
def encodeMember {α : Type} (name : String) (encode : α → JsonTree F) :
    Option α → List (String × JsonTree F)
  | none => []
  | some value => [(name, encode value)]

def ChangeRecord.encode (change : ChangeRecord (JsonTree F)) : JsonTree F :=
  .obj ([("transaction_id", change.transactionId.encode), ("change_id", change.changeId.encode)] ++
    encodeMember "supersedes" TextId.encode change.supersedes ++
    [("capability_id", change.capabilityId.encode), ("resource", change.resource.encode),
      ("prepared", change.prepared.encode),
      ("experiment_verified", .bool change.experimentVerified),
      ("state", .str change.state.name), ("last_operation_id", change.lastOperationId.encode),
      ("last_receipt", encodeOption MutationReceipt.encode change.lastReceipt),
      ("message", encodeOption .str change.message)])

def ChangeRecord.decode [JsonLibrary F] [Sha256] (tree : JsonTree F) :
    Except String (ChangeRecord (JsonTree F)) := do
  let transactionId ← required "transaction_id" TextId.decode tree
  let changeId ← required "change_id" TextId.decode tree
  let supersedes ← optional "supersedes" TextId.decode tree
  let capabilityId ← required "capability_id" TextId.decode tree
  let resource ← required "resource" TextId.decode tree
  let prepared ← required "prepared" PreparedMutation.decode tree
  let experimentVerified ← defaulted "experiment_verified" false boolean tree
  let state ← required "state" (variant changeStates) tree
  let lastOperationId ← required "last_operation_id" TextId.decode tree
  let lastReceipt ← optional "last_receipt" MutationReceipt.decode tree
  let message ← optional "message" text tree
  return ⟨transactionId, changeId, supersedes, capabilityId, resource, prepared,
    experimentVerified, state, lastOperationId, lastReceipt, message⟩

/-! ## Entries -/

def OperationIntentKind.name : OperationIntentKind → String
  | .apply => "apply"
  | .restore => "restore"
  | .finalize => "finalize"

def operationIntentKinds : List (String × OperationIntentKind) :=
  [OperationIntentKind.apply, .restore, .finalize].map fun kind => (kind.name, kind)

def TransactionSeal.name : TransactionSeal → String
  | .committed => "committed"
  | .rolledBack => "rolled_back"

def transactionSeals : List (String × TransactionSeal) :=
  [TransactionSeal.committed, .rolledBack].map fun outcome => (outcome.name, outcome)

def WalEvent.encode : WalEvent (JsonTree F) → JsonTree F
  | .started intentPin capabilityGeneration =>
    .obj [("kind", .str "started"), ("intent_pin", intentPin.encode),
      ("capability_generation", .int capabilityGeneration)]
  | .changeUpsert change => .obj [("kind", .str "change_upsert"), ("change", change.encode)]
  | .operationIntent changeId operationId operation =>
    .obj [("kind", .str "operation_intent"), ("change_id", changeId.encode),
      ("operation_id", operationId.encode), ("operation", .str operation.name)]
  | .sealed outcome => .obj [("kind", .str "sealed"), ("outcome", .str outcome.name)]
  | .commitSealed authorization changes =>
    .obj [("kind", .str "commit_sealed"), ("authorization", authorization.encode),
      ("changes", .arr (changes.map ChangeRecord.encode))]

def WalEntry.encode (entry : WalEntry (JsonTree F)) : JsonTree F :=
  .obj [("sequence", .int entry.sequence), ("transaction_id", entry.transactionId.encode),
    ("event", entry.event.encode)]

section

variable [JsonLibrary F] [Sha256]

/-- The event under its tag `kind`. -/
def WalEvent.decodeKind (tree : JsonTree F) (kind : String) :
    Except String (WalEvent (JsonTree F)) :=
  if kind = "started" then do
    let intentPin ← required "intent_pin" EvaluationIntentPin.decode tree
    let capabilityGeneration ← required "capability_generation" word tree
    return .started intentPin capabilityGeneration
  else if kind = "change_upsert" then do
    return .changeUpsert (← required "change" ChangeRecord.decode tree)
  else if kind = "operation_intent" then do
    let changeId ← required "change_id" TextId.decode tree
    let operationId ← required "operation_id" TextId.decode tree
    let operation ← required "operation" (variant operationIntentKinds) tree
    return .operationIntent changeId operationId operation
  else if kind = "sealed" then do
    return .sealed (← required "outcome" (variant transactionSeals) tree)
  else if kind = "commit_sealed" then do
    let authorization ← required "authorization" CommitAuthorization.decode tree
    let changes ← required "changes" (items ChangeRecord.decode) tree
    return .commitSealed authorization changes
  else .error s!"unknown variant: {kind}"

def WalEvent.decode (tree : JsonTree F) : Except String (WalEvent (JsonTree F)) := do
  WalEvent.decodeKind tree (← required "kind" text tree)

def WalEntry.decode (tree : JsonTree F) : Except String (WalEntry (JsonTree F)) := do
  let sequence ← required "sequence" word tree
  let transactionId ← required "transaction_id" TextId.decode tree
  let event ← required "event" WalEvent.decode tree
  return ⟨sequence, transactionId, event⟩

end

end ScxAgent
