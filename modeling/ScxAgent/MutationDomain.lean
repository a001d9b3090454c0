import ScxAgent.Identifiers

/-!
# Mutations, candidates and commit authorizations

The records of `domain/` that the transaction kernel reads and writes. JSON values are
a type `V` with decidable equality whose `default` is `Value::Null`. Serialization and
SHA-256 belong to other crates and enter as the classes `Serialize` and `Sha256`.
-/

namespace ScxAgent

structure EpisodeId where
  value : ℕ
  deriving DecidableEq

structure EvaluationIntentPin where
  episodeId : EpisodeId
  intentDigest : Digest
  contractDigest : Digest
  deriving DecidableEq

inductive ProviderClass where
  | builtin
  | localHost
  | mcp
  deriving DecidableEq

structure ProviderPin where
  providerId : ProviderId
  providerVersion : ProviderVersion
  providerClass : ProviderClass
  manifestDigest : Digest
  deriving DecidableEq

inductive ProviderErrorKind where
  | invalidRequest
  | permissionDenied
  | conflict
  | unavailable
  | timeout
  | protocol
  | unknownState
  | internal
  deriving DecidableEq

/-- The `Debug` text of an error kind. -/
def ProviderErrorKind.debug : ProviderErrorKind → String
  | .invalidRequest => "InvalidRequest"
  | .permissionDenied => "PermissionDenied"
  | .conflict => "Conflict"
  | .unavailable => "Unavailable"
  | .timeout => "Timeout"
  | .protocol => "Protocol"
  | .unknownState => "UnknownState"
  | .internal => "Internal"

structure ProviderError where
  kind : ProviderErrorKind
  message : String
  retryable : Bool
  deriving DecidableEq

instance : ToString ProviderError := ⟨fun e => s!"{e.kind.debug}: {e.message}"⟩

/-- `serde_json::to_vec`. -/
class Serialize (α : Type) where
  toVec : α → Except String (List UInt8)

/-- `sha2::Sha256::digest`. -/
class Sha256 where
  digest : List UInt8 → Vector UInt8 32

def hexDigit (n : ℕ) : Char :=
  Char.ofNat (if n < 10 then 48 + n else 87 + n)

/-- The text of a byte sequence under the format `{:x}`. -/
def lowerHex (bytes : List UInt8) : List Char :=
  bytes.flatMap fun byte => [hexDigit (byte.toNat / 16), hexDigit (byte.toNat % 16)]

def digestText [Sha256] (encoded : List UInt8) : String :=
  "sha256:" ++ String.ofList (lowerHex (Sha256.digest encoded).toList)

def contentDigest {α : Type} [Serialize α] [Sha256] (value : α) : Except String Digest :=
  match Serialize.toVec value with
  | .error error => .error s!"failed to serialize digest input: {error}"
  | .ok encoded => TextId.new (digestText encoded)

/-- The JSON text of an identifier, which holds no control characters to escape. -/
def jsonText (value : String) : String :=
  let escaped := value.toList.flatMap fun c => if c = '"' ∨ c = '\\' then ['\\', c] else [c]
  "\"" ++ String.ofList escaped ++ "\""

instance : Serialize (List ChangeId) where
  toVec ids :=
    .ok ("[" ++ ",".intercalate (ids.map fun id => jsonText id.value) ++ "]").toUTF8.toList

theorem hexDigit_toNat {n : ℕ} (h : n < 16) :
    0x30 ≤ (hexDigit n).toNat ∧ (hexDigit n).toNat ≤ 0x66 := by
  interval_cases n <;> decide

theorem length_lowerHex (bytes : List UInt8) : (lowerHex bytes).length = 2 * bytes.length := by
  induction bytes with
  | nil => rfl
  | cons byte rest ih =>
    simp only [lowerHex, List.flatMap_cons, List.length_append, List.length_cons,
      List.length_nil] at ih ⊢
    omega

theorem lowerHex_visible {bytes : List UInt8} {c : Char} (h : c ∈ lowerHex bytes) :
    isVisible c = true := by
  obtain ⟨byte, _, hc⟩ := List.mem_flatMap.mp h
  have hbyte : byte.toNat < 256 := byte.toNat_lt
  have hdigit : ∃ n < 16, c = hexDigit n := by
    rcases List.mem_cons.mp hc with rfl | hc
    · exact ⟨byte.toNat / 16, by omega, rfl⟩
    · exact ⟨byte.toNat % 16, by omega, List.mem_singleton.mp hc⟩
  obtain ⟨n, hn, rfl⟩ := hdigit
  have := hexDigit_toNat hn
  simp only [isVisible, Bool.and_eq_true, decide_eq_true_eq]
  omega

/-- A digest of serializable data can always be written as an identifier. -/
theorem contentDigest_ok {α : Type} [Serialize α] [Sha256] {value : α} {encoded : List UInt8}
    (h : Serialize.toVec value = .ok encoded) : ∃ digest, contentDigest value = .ok digest := by
  unfold contentDigest
  rw [h]
  refine TextId.new_ok_of_visible ?_ ?_ ?_
  · intro hempty
    simp [digestText] at hempty
  · intro c hc
    simp only [digestText, String.toList_append, String.toList_ofList, List.mem_append] at hc
    rcases hc with hc | hc
    · have hall : ∀ d ∈ "sha256:".toList, isVisible d = true := by simp [isVisible]
      exact hall c hc
    · exact lowerHex_visible hc
  · simp [digestText, length_lowerHex]

structure MutationState (V : Type) where
  value : V
  digest : Digest
  deriving DecidableEq

structure InvocationContext where
  episodeId : EpisodeId
  operationId : OperationId
  deriving DecidableEq

structure MutationPrepareRequest (V : Type) where
  context : InvocationContext
  arguments : V

structure PreparedMutation (V : Type) where
  capabilityId : CapabilityId
  provider : ProviderPin
  resource : ResourceKey
  baseline : MutationState V
  desired : MutationState V
  driverData : V
  deriving DecidableEq

/-- The common shape of an apply, a restore and a finalize request. -/
structure MutationRequest (V : Type) where
  operationId : OperationId
  prepared : PreparedMutation V

abbrev MutationApplyRequest := MutationRequest
abbrev MutationRestoreRequest := MutationRequest
abbrev MutationFinalizeRequest := MutationRequest

structure MutationQuery where
  operationId : OperationId

structure MutationVerifyRequest (V : Type) where
  operationId : OperationId
  prepared : PreparedMutation V
  expected : MutationState V

inductive MutationOperationState where
  | notApplied
  | applied
  | restored
  | finalized
  | unknown
  deriving DecidableEq

structure MutationReceipt (V : Type) where
  operationId : OperationId
  state : MutationOperationState
  observed : Option (MutationState V)
  driverData : V
  deriving DecidableEq

structure MutationStatus (V : Type) where
  operationId : OperationId
  state : MutationOperationState
  observed : Option (MutationState V)
  driverData : V

structure MutationVerification (V : Type) where
  matched : Bool
  observed : Option (MutationState V)
  details : V

/-- A candidate is built only by `Candidate.new` or by a decoder that calls it, so the
checks made there travel with the value. -/
structure Candidate [Sha256] where
  changeIds : List ChangeId
  digest : Digest
  nonempty : changeIds ≠ []
  nodup : changeIds.Nodup
  digest_eq : contentDigest changeIds = .ok digest
  deriving DecidableEq

namespace Candidate

variable [Sha256]

def new (changeIds : List ChangeId) : Except String Candidate :=
  if hempty : changeIds = [] then .error "candidate must contain at least one change"
  else if hdup : ¬ changeIds.Nodup then .error "candidate contains duplicate change ids"
  else match hdigest : contentDigest changeIds with
    | .error error => .error error
    | .ok digest => .ok ⟨changeIds, digest, hempty, not_not.mp hdup, hdigest⟩

def contains (candidate : Candidate) (changeId : ChangeId) : Bool :=
  candidate.changeIds.contains changeId

@[simp] theorem contains_eq_true {candidate : Candidate} {changeId : ChangeId} :
    candidate.contains changeId = true ↔ changeId ∈ candidate.changeIds := by
  simp [contains]

theorem new_changeIds (candidate : Candidate) : new candidate.changeIds = .ok candidate := by
  have hdigest := candidate.digest_eq
  unfold new
  rw [dif_neg candidate.nonempty, dif_neg (not_not.mpr candidate.nodup)]
  split
  · rename_i error herror
    rw [hdigest] at herror
    cases herror
  · rename_i digest hok
    rw [hdigest] at hok
    cases hok
    rfl

theorem new_ok {changeIds : List ChangeId} (hne : changeIds ≠ []) (hnodup : changeIds.Nodup) :
    ∃ candidate, new changeIds = .ok candidate := by
  obtain ⟨digest, hdigest⟩ := @contentDigest_ok _ _ _ changeIds _ rfl
  exact ⟨_, new_changeIds ⟨changeIds, digest, hne, hnodup, hdigest⟩⟩

end Candidate

structure CommitAuthorization where
  intentPin : EvaluationIntentPin
  candidateDigest : Digest
  decisionDigest : Digest
  evaluationEvidenceDigest : Digest
  authorizationDigest : Digest
  deriving DecidableEq

/-! ## Texts that examples share -/

theorem version_valid : validateIdentifier "provider version" "1.0.0" 256 = .ok () := by
  decide +kernel

theorem testProvider_valid : validateIdentifier "provider id" "test.provider" 256 = .ok () := by
  decide +kernel

theorem changeA_valid : validateIdentifier "change id" "change/a" 256 = .ok () := by decide +kernel

end ScxAgent
