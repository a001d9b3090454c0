import ScxAgent.ExceptRules
import ScxAgent.Evaluation.Contract

/-!
# Frozen intents in a log

A frozen intent leaves the process as JSON and comes back through `try_from`, which builds it again
from its parts and compares the digests. A JSON text is taken for the record of its fields.
-/

namespace ScxAgent.Evaluation

open Std ExceptRules List

/-! ## Objectives -/

theorem plain_of_mem_splitOnP {cs word : List Char} (h : word ∈ cs.splitOnP isWhitespace) :
    ∀ c ∈ word, isWhitespace c = false := by
  induction cs generalizing word with
  | nil =>
    rw [splitOnP_nil, mem_singleton] at h
    rw [h]
    exact nofun
  | cons c cs ih =>
    rw [splitOnP_cons_eq_if_modifyHead] at h
    split_ifs at h with hspace
    · rcases mem_cons.mp h with rfl | h
      · exact nofun
      · exact ih h
    · obtain ⟨first, rest, hsplit⟩ :=
        exists_cons_of_ne_nil (splitOnP_ne_nil isWhitespace cs)
      rw [hsplit, modifyHead_cons] at h
      rw [hsplit] at ih
      rcases mem_cons.mp h with rfl | h
      · exact forall_mem_cons.mpr ⟨by simpa using hspace, ih mem_cons_self⟩
      · exact ih (mem_cons_of_mem first h)

theorem splitWhitespace_words {cs word : List Char} (h : word ∈ splitWhitespace cs) :
    word ≠ [] ∧ ∀ c ∈ word, isWhitespace c = false := by
  obtain ⟨hmem, hne⟩ := mem_filter.mp h
  exact ⟨by simpa using hne, plain_of_mem_splitOnP hmem⟩

theorem splitWhitespace_intercalate {words : List (List Char)}
    (h : ∀ word ∈ words, word ≠ [] ∧ ∀ c ∈ word, isWhitespace c = false) :
    splitWhitespace ([' '].intercalate words) = words := by
  unfold splitWhitespace
  induction words with
  | nil => rfl
  | cons word words ih =>
    obtain ⟨hne, hplain⟩ := h word mem_cons_self
    have hrest := ih fun other hother => h other (mem_cons_of_mem _ hother)
    cases words with
    | nil =>
      rw [intercalate_singleton, splitOnP_eq_singleton hplain]
      simp [hne]
    | cons next rest =>
      rw [intercalate_cons_cons, append_assoc, singleton_append,
        splitOnP_append_cons_of_forall_mem hplain ' ' (by decide),
        filter_cons_of_pos (by simpa using hne), hrest]

theorem normalizeObjective_idem (value : String) :
    normalizeObjective (normalizeObjective value) = normalizeObjective value := by
  have hwords : (normalizeObjective value).toList =
      [' '].intercalate (splitWhitespace value.toList) := by
    rw [normalizeObjective, String.toList_intercalate, map_map]
    simp [Function.comp_def]
  rw [normalizeObjective, hwords, splitWhitespace_intercalate fun _ => splitWhitespace_words,
    ← normalizeObjective]

theorem ObjectiveStatement.new_eq_ok {text : String} {objective : ObjectiveStatement} :
    ObjectiveStatement.new text = .ok objective ↔ objective.value = normalizeObjective text := by
  obtain ⟨value, hchecked⟩ := objective
  unfold ObjectiveStatement.new
  constructor
  · intro h
    split at h
    · cases h
    · cases h
      rfl
  · rintro rfl
    split
    next error herror =>
      rw [herror] at hchecked
      cases hchecked
    next => rfl

/-! ## Contracts -/

section Contracts

variable {V F : Type} [JsonValue V F] {parts parts' : ContractParts V}

namespace ContractParts

theorem pairwise_sortPins (parts : ContractParts V) : parts.sortPins.capabilityPins.Pairwise
    fun left right => (compare left.capabilityId right.capabilityId).isLE = true := by
  refine pairwise_mergeSort (fun _ _ _ => TransCmp.isLE_trans) (fun a b => ?_) _
  have hswap : compare b.capabilityId a.capabilityId =
      (compare a.capabilityId b.capabilityId).swap := OrientedCmp.eq_swap
  rw [hswap]
  cases compare a.capabilityId b.capabilityId <;> rfl

theorem sortPins_of_pairwise (h : parts.capabilityPins.Pairwise
    fun left right => (compare left.capabilityId right.capabilityId).isLE = true) :
    parts.sortPins = parts := by
  unfold sortPins
  rw [mergeSort_of_pairwise h]

theorem nodup_of_isChain {ids : List CapabilityId}
    (hsorted : ids.Pairwise fun left right => (compare left right).isLE = true)
    (hchain : ids.IsChain (· ≠ ·)) : ids.Nodup := by
  induction ids with
  | nil => exact nodup_nil
  | cons first rest ih =>
    obtain ⟨hfirst, hrest⟩ := pairwise_cons.mp hsorted
    refine nodup_cons.mpr ⟨fun hmem => ?_, ih hrest hchain.of_cons⟩
    -- a second occurrence would lie above the next one, which the first one lies below
    obtain ⟨next, tail, rfl⟩ := exists_cons_of_ne_nil (ne_nil_of_mem hmem)
    have hne : first ≠ next := (isChain_cons_cons.mp hchain).1
    rcases mem_cons.mp hmem with heq | hmem
    · exact hne heq
    · exact hne (LawfulEqCmp.compare_eq_iff_eq.mp (OrientedCmp.isLE_antisymm
        (hfirst next mem_cons_self) ((pairwise_cons.mp hrest).1 first hmem)))

theorem pinned_sortPins_perm (parts : ContractParts V) : parts.sortPins.pinned.Perm parts.pinned :=
  (mergeSort_perm _ _).map _

/-- In sorted pins a capability that occurs twice does so side by side. -/
theorem isChain_sortPins_iff (parts : ContractParts V) :
    parts.sortPins.pinned.IsChain (· ≠ ·) ↔ parts.pinned.Nodup := by
  rw [← (pinned_sortPins_perm parts).nodup_iff]
  refine ⟨fun h => nodup_of_isChain ?_ h, fun h => Pairwise.isChain h⟩
  exact pairwise_map.mpr (pairwise_sortPins parts)

theorem sortPins_congr {pins : List CapabilityBindingPin} (h : pins.Perm parts.capabilityPins)
    (hnodup : parts.pinned.Nodup) :
    ({ parts with capabilityPins := pins } : ContractParts V).sortPins = parts.sortPins := by
  have hpins : ({ parts with capabilityPins := pins } : ContractParts V).sortPins.capabilityPins =
      parts.sortPins.capabilityPins := by
    refine Perm.eq_of_pairwise (fun a b ha hb hle hge => ?_) (pairwise_sortPins _)
      (pairwise_sortPins parts) ?_
    · have hsame := LawfulEqCmp.compare_eq_iff_eq.mp (OrientedCmp.isLE_antisymm hle hge)
      exact inj_on_of_nodup_map hnodup (h.mem_iff.mp ((mergeSort_perm _ _).mem_iff.mp ha))
        ((mergeSort_perm _ _).mem_iff.mp hb) hsame
    · exact ((mergeSort_perm _ _).trans h).trans (mergeSort_perm _ _).symm
  unfold sortPins at hpins ⊢
  dsimp only at hpins ⊢
  rw [hpins]

theorem isChain_of_check (h : parts.check = .ok ()) : parts.pinned.IsChain (· ≠ ·) := by
  unfold check at h
  obtain ⟨-, h⟩ := of_guard_eq_ok h
  obtain ⟨-, h⟩ := of_guard_eq_ok h
  obtain ⟨-, h⟩ := of_guard_eq_ok h
  dsimp only at h
  split at h
  · cases h
  · obtain ⟨_, _, h⟩ := bind_eq_ok.mp h
    obtain ⟨-, h⟩ := of_guard_eq_ok h
    obtain ⟨hchain, -⟩ := of_guard_eq_ok h
    exact not_not.mp hchain

end ContractParts

variable [Sha256] [Serialize (ContractParts V)]

namespace FrozenEvaluationContract

theorem fromParts_eq_ok {contract : FrozenEvaluationContract V} :
    fromParts parts = .ok contract ↔ contract.parts = parts.sortPins := by
  obtain ⟨frozen, digest, hchecked, hdigest⟩ := contract
  unfold fromParts
  constructor
  · intro h
    split at h
    · cases h
    · split at h
      · cases h
      · cases h
        rfl
  · rintro rfl
    split
    next error herror =>
      rw [herror] at hchecked
      cases hchecked
    next =>
      split
      next error herror =>
        rw [herror] at hdigest
        cases hdigest
      next found hfound =>
        cases hfound.symm.trans hdigest
        rfl

theorem fromParts_of_check_eq_error {error : EvaluationError}
    (h : parts.sortPins.check = .error error) : fromParts parts = .error error := by
  unfold fromParts
  split
  next other hother =>
    cases hother.symm.trans h
    rfl
  next hok => cases hok.symm.trans h

/-- The order of the pins is lost: sorted pins are the same, and doubled pins are refused. -/
theorem fromParts_congr {pins : List CapabilityBindingPin}
    (h : pins.Perm parts.capabilityPins) :
    fromParts { parts with capabilityPins := pins } = fromParts parts := by
  by_cases hnodup : parts.pinned.Nodup
  · unfold fromParts
    rw [ContractParts.sortPins_congr h hnodup]
  · have hother : ¬ ({ parts with capabilityPins := pins } : ContractParts V).pinned.Nodup :=
      fun hpins => hnodup ((h.map _).nodup_iff.mp hpins)
    rw [← ContractParts.isChain_sortPins_iff] at hnodup hother
    have hcheck : ({ parts with capabilityPins := pins } : ContractParts V).sortPins.check =
        parts.sortPins.check := by
      unfold ContractParts.check
      rw [if_pos hother, if_pos hnodup]
      rfl
    cases herror : parts.sortPins.check with
    | ok _ => exact absurd (ContractParts.isChain_of_check herror) hnodup
    | error error =>
      rw [fromParts_of_check_eq_error herror, fromParts_of_check_eq_error (hcheck.trans herror)]

theorem sortPins_parts {contract : FrozenEvaluationContract V} (h : fromParts parts = .ok contract) :
    contract.parts.sortPins = contract.parts := by
  rw [fromParts_eq_ok.mp h]
  exact ContractParts.sortPins_of_pairwise (ContractParts.pairwise_sortPins parts)

end FrozenEvaluationContract

end Contracts

/-! ## JSON texts -/

section Texts

variable {V F : Type} [JsonValue V F] [Sha256] [Serialize (ContractParts V)]

variable (V) in
structure UncheckedEvaluationContract where
  parts : ContractParts V
  digest : Digest

def FrozenEvaluationContract.tryFrom (value : UncheckedEvaluationContract V) :
    Except String (FrozenEvaluationContract V) :=
  match FrozenEvaluationContract.fromParts value.parts with
  | .error error => .error error.message
  | .ok contract =>
    if contract.digest ≠ value.digest then
      .error "evaluation contract digest does not match frozen contents"
    else .ok contract

theorem FrozenEvaluationContract.tryFrom_eq_ok {value : UncheckedEvaluationContract V}
    {contract : FrozenEvaluationContract V} :
    FrozenEvaluationContract.tryFrom value = .ok contract ↔
      FrozenEvaluationContract.fromParts value.parts = .ok contract ∧
        contract.digest = value.digest := by
  unfold FrozenEvaluationContract.tryFrom
  cases FrozenEvaluationContract.fromParts value.parts with
  | error error => simp
  | ok frozen =>
    dsimp only
    split_ifs with hdigest
    · simp only [Except.ok.injEq, false_iff, not_and]
      rintro rfl
      exact hdigest
    · simp only [Except.ok.injEq]
      constructor
      · rintro rfl
        exact ⟨rfl, not_not.mp hdigest⟩
      · exact And.left

variable (V) in
/-- The JSON text of a frozen intent. -/
structure IntentText where
  pin : EvaluationIntentPin
  objective : String
  contract : UncheckedEvaluationContract V

variable [Serialize IntentDigestPayload]

namespace FrozenEvaluationIntent

def encode (intent : FrozenEvaluationIntent V) : IntentText V where
  pin := intent.pin
  objective := intent.objective.value
  contract := ⟨intent.contract.parts, intent.contract.digest⟩

def tryFrom (pin : EvaluationIntentPin) (objective : ObjectiveStatement)
    (contract : FrozenEvaluationContract V) : Except String (FrozenEvaluationIntent V) :=
  match fromParts pin.episodeId objective contract with
  | .error error => .error error.message
  | .ok intent =>
    if intent.pin ≠ pin then .error "evaluation intent pin does not match frozen contents"
    else .ok intent

def decode (text : IntentText V) : Except String (FrozenEvaluationIntent V) := do
  let objective ← ObjectiveStatement.new text.objective
  let contract ← FrozenEvaluationContract.tryFrom text.contract
  tryFrom text.pin objective contract

variable {intent : FrozenEvaluationIntent V}

theorem fromParts_eq_ok {episodeId : EpisodeId} {objective : ObjectiveStatement}
    {contract : FrozenEvaluationContract V} :
    fromParts episodeId objective contract = .ok intent ↔
      intent.pin.episodeId = episodeId ∧ intent.objective = objective ∧
        intent.contract = contract := by
  unfold fromParts
  constructor
  · intro h
    split at h
    · cases h
    · cases h
      exact ⟨rfl, rfl, rfl⟩
  · rintro ⟨rfl, rfl, rfl⟩
    obtain ⟨⟨episode, intentDigest, contractDigest⟩, frozen, agreed, hcontract, hdigest⟩ := intent
    dsimp only at hcontract
    subst hcontract
    split
    next error herror =>
      rw [herror] at hdigest
      cases hdigest
    next found hfound =>
      cases hfound.symm.trans hdigest
      rfl

theorem decode_eq_ok {text : IntentText V} :
    decode text = .ok intent ↔ text.pin = intent.pin ∧
      ObjectiveStatement.new text.objective = .ok intent.objective ∧
      FrozenEvaluationContract.fromParts text.contract.parts = .ok intent.contract ∧
      intent.contract.digest = text.contract.digest := by
  unfold decode
  simp only [bind_eq_ok, FrozenEvaluationContract.tryFrom_eq_ok]
  constructor
  · rintro ⟨objective, hobjective, contract, ⟨hparts, hdigest⟩, h⟩
    unfold tryFrom at h
    split at h
    · cases h
    · rename_i found hfound
      split_ifs at h with hpin
      cases h
      obtain ⟨-, rfl, rfl⟩ := fromParts_eq_ok.mp hfound
      exact ⟨(not_not.mp hpin).symm, hobjective, hparts, hdigest⟩
  · rintro ⟨hpin, hobjective, hparts, hdigest⟩
    refine ⟨_, hobjective, _, ⟨hparts, hdigest⟩, ?_⟩
    have hfrozen : fromParts text.pin.episodeId intent.objective intent.contract = .ok intent :=
      fromParts_eq_ok.mpr ⟨by rw [hpin], rfl, rfl⟩
    unfold tryFrom
    rw [hfrozen]
    exact if_neg (not_not.mpr hpin.symm)

/-- What was frozen comes back. -/
theorem decode_encode
    (hobjective : ObjectiveStatement.new intent.objective.value = .ok intent.objective)
    (hcontract : intent.contract.parts.sortPins = intent.contract.parts) :
    decode (encode intent) = .ok intent :=
  decode_eq_ok.mpr
    ⟨rfl, hobjective, FrozenEvaluationContract.fromParts_eq_ok.mpr hcontract.symm, rfl⟩

end FrozenEvaluationIntent

/-- The digest tells the two contents apart. -/
def Separates {α : Type} [Serialize α] (a b : α) : Prop := contentDigest a = contentDigest b → a = b

open FrozenEvaluationIntent in
/-- The order of the pins does not matter, encoding loses nothing, decoding checks everything, and
a pin stands for one intent as long as its digests do not collide. -/
theorem frozen_intents_are_canonical :
    (∀ (parts : ContractParts V) (pins : List CapabilityBindingPin),
        pins.Perm parts.capabilityPins →
        FrozenEvaluationContract.fromParts { parts with capabilityPins := pins } =
          FrozenEvaluationContract.fromParts parts) ∧
      (∀ (parts : ContractParts V) (statement : String) (episodeId : EpisodeId)
        (objective : ObjectiveStatement) (contract : FrozenEvaluationContract V)
        (intent : FrozenEvaluationIntent V),
        FrozenEvaluationContract.fromParts parts = .ok contract →
        ObjectiveStatement.new statement = .ok objective →
        fromParts episodeId objective contract = .ok intent →
        decode (encode intent) = .ok intent) ∧
      (∀ (text : IntentText V) (intent : FrozenEvaluationIntent V), decode text = .ok intent →
        intent.contract.parts.check = .ok () ∧
        FrozenEvaluationContract.fromParts intent.contract.parts = .ok intent.contract ∧
        checkObjective intent.objective.value = .ok () ∧
        ObjectiveStatement.new intent.objective.value = .ok intent.objective ∧
        fromParts intent.pin.episodeId intent.objective intent.contract = .ok intent) ∧
      (∀ a b : FrozenEvaluationIntent V, a.pin = b.pin →
        Separates a.contract.parts b.contract.parts →
        Separates (intentPayload a.pin.episodeId a.objective a.contract.digest)
          (intentPayload b.pin.episodeId b.objective b.contract.digest) →
        a.pin.episodeId = b.pin.episodeId ∧ a.objective = b.objective ∧
          a.contract = b.contract) := by
  have hobjectives {statement : String} {objective : ObjectiveStatement}
      (h : ObjectiveStatement.new statement = .ok objective) :
      ObjectiveStatement.new objective.value = .ok objective := by
    rw [ObjectiveStatement.new_eq_ok] at h ⊢
    rw [h, normalizeObjective_idem]
  refine ⟨fun _ _ => FrozenEvaluationContract.fromParts_congr, ?_, ?_, ?_⟩
  · intro parts statement episodeId objective contract intent hcontract hobjective hintent
    obtain ⟨-, rfl, rfl⟩ := fromParts_eq_ok.mp hintent
    exact decode_encode (hobjectives hobjective) (FrozenEvaluationContract.sortPins_parts hcontract)
  · intro text intent h
    obtain ⟨-, hobjective, hcontract, -⟩ := decode_eq_ok.mp h
    exact ⟨intent.contract.checked, FrozenEvaluationContract.fromParts_eq_ok.mpr
      (FrozenEvaluationContract.sortPins_parts hcontract).symm, intent.objective.checked,
      hobjectives hobjective, fromParts_eq_ok.mpr ⟨rfl, rfl, rfl⟩⟩
  · intro a b hpin hparts hpayload
    have hdigest : a.contract.digest = b.contract.digest := by
      rw [← a.contractDigest_eq, ← b.contractDigest_eq, hpin]
    have hsame := hpayload (by rw [a.intentDigest_eq, b.intentDigest_eq, hpin])
    refine ⟨by rw [hpin], congrArg IntentDigestPayload.objective hsame, ?_⟩
    have hcontract : a.contract.parts = b.contract.parts :=
      hparts (by rw [a.contract.digest_eq, b.contract.digest_eq, hdigest])
    cases ha : a.contract
    cases hb : b.contract
    rw [ha, hb] at hcontract hdigest
    cases hcontract
    cases hdigest
    rfl

end Texts

namespace OneIntent

/-- JSON with nothing but empty objects. -/
local instance : JsonValue Unit Unit where
  asF64 _ := none
  asBool _ := none
  asStr _ := none
  asArray _ := none
  asObject _ := some []
  ofF64 _ := ()
  ofBool _ := ()
  ofNat _ := ()
  ofStr _ := ()
  ofArray _ := ()
  ofObject _ := ()

local instance : Sha256 := ⟨fun _ => Vector.replicate 32 0⟩
local instance : Serialize (ContractParts Unit) := ⟨fun _ => .ok []⟩
local instance : Serialize IntentDigestPayload := ⟨fun _ => .ok []⟩

def pin (capabilityId : CapabilityId) : CapabilityBindingPin where
  capabilityId
  provider :=
    { providerId := ⟨"provider", by decide +kernel⟩
      providerVersion := ⟨"1.0.0", version_valid⟩
      providerClass := .localHost
      manifestDigest := ⟨"manifest", by decide +kernel⟩ }

def compareMetrics : CapabilityId := ⟨"compare/threshold", by decide +kernel⟩
def measure : CapabilityId := ⟨"measure/window", by decide +kernel⟩

def parts : ContractParts Unit where
  id := ⟨"contract/one", by decide +kernel⟩
  measurement := ⟨measure, ()⟩
  primary := [⟨compareMetrics, ()⟩]
  regressionGuards := []
  workloadInvariants := []
  sampling := {}
  capabilityGeneration := 1
  capabilityPins := [pin compareMetrics, pin measure]

theorem exists_ok {ε α : Type} {x : Except ε α} (h : x.isOk = true) : ∃ a, x = .ok a := by
  cases x with
  | error e => cases h
  | ok a => exact ⟨a, rfl⟩

theorem frozen_intents_are_canonical_one :
    ∃ contract objective intent, FrozenEvaluationContract.fromParts parts = .ok contract ∧
      ObjectiveStatement.new " reduce   latency " = .ok objective ∧
      FrozenEvaluationIntent.fromParts ⟨1⟩ objective contract = .ok intent ∧
      FrozenEvaluationIntent.decode intent.encode = .ok intent := by
  obtain ⟨digest, hdigest⟩ : ∃ digest : Digest, TextId.new (digestText []) = .ok digest :=
    exists_ok (by decide +kernel)
  let contract : FrozenEvaluationContract Unit := ⟨parts, digest, by decide +kernel, hdigest⟩
  have hsorted : parts.sortPins = parts := ContractParts.sortPins_of_pairwise (by decide +kernel)
  have hcontract : FrozenEvaluationContract.fromParts parts = .ok contract :=
    FrozenEvaluationContract.fromParts_eq_ok.mpr hsorted.symm
  obtain ⟨objective, hobjective⟩ :=
    exists_ok (x := ObjectiveStatement.new " reduce   latency ") (by decide +kernel)
  let intent : FrozenEvaluationIntent Unit :=
    ⟨⟨⟨1⟩, digest, digest⟩, objective, contract, rfl, hdigest⟩
  have hintent : FrozenEvaluationIntent.fromParts ⟨1⟩ objective contract = .ok intent :=
    FrozenEvaluationIntent.fromParts_eq_ok.mpr ⟨rfl, rfl, rfl⟩
  exact ⟨contract, objective, intent, hcontract, hobjective, hintent,
    frozen_intents_are_canonical.2.1 parts _ _ _ _ intent hcontract hobjective hintent⟩

end OneIntent

end ScxAgent.Evaluation
