import ScxAgent.Wal.Records

/-!
# Reading log entries back

A serialized entry is accepted if and only if the digests of its states are those of their values,
and then it is read as it was.
-/

namespace ScxAgent

open JsonTree ExceptRules

variable {F : Type}

@[simp] theorem TextId.decode_encode {label : String} {maxLen : ℕ} (id : TextId label maxLen) :
    (TextId.decode (id.encode : JsonTree F) : Except String (TextId label maxLen)) = .ok id :=
  TextId.new_eq_ok.mpr rfl

@[simp] theorem ProviderClass.decode_name (providerClass : ProviderClass) :
    variant providerClasses (.str providerClass.name : JsonTree F) = .ok providerClass := by
  cases providerClass <;> rfl

@[simp] theorem MutationOperationState.decode_name (state : MutationOperationState) :
    variant operationStates (.str state.name : JsonTree F) = .ok state := by
  cases state <;> rfl

@[simp] theorem ChangeState.decode_name (state : ChangeState) :
    variant changeStates (.str state.name : JsonTree F) = .ok state := by
  cases state <;> rfl

@[simp] theorem OperationIntentKind.decode_name (kind : OperationIntentKind) :
    variant operationIntentKinds (.str kind.name : JsonTree F) = .ok kind := by
  cases kind <;> rfl

@[simp] theorem TransactionSeal.decode_name (outcome : TransactionSeal) :
    variant transactionSeals (.str outcome.name : JsonTree F) = .ok outcome := by
  cases outcome <;> rfl

theorem EvaluationIntentPin.decode_encode {pin : EvaluationIntentPin}
    (h : pin.episodeId.value < 2 ^ 64) :
    EvaluationIntentPin.decode (pin.encode : JsonTree F) = .ok pin := by
  have hword := word_natCast (F := F) h
  simp [EvaluationIntentPin.decode, EvaluationIntentPin.encode, onlyFields, required, field, hword,
    bind, Except.bind, pure, Except.pure]

@[simp] theorem ProviderPin.decode_encode (pin : ProviderPin) :
    ProviderPin.decode (pin.encode : JsonTree F) = .ok pin := by
  simp [ProviderPin.decode, ProviderPin.encode, required, field, bind, Except.bind, pure,
    Except.pure]

/-! ## The states of an entry -/

def PreparedMutation.states {V : Type} (prepared : PreparedMutation V) : List (MutationState V) :=
  [prepared.baseline, prepared.desired]

def MutationReceipt.states {V : Type} (receipt : MutationReceipt V) : List (MutationState V) :=
  receipt.observed.toList

def ChangeRecord.states {V : Type} (change : ChangeRecord V) : List (MutationState V) :=
  change.prepared.states ++ change.lastReceipt.toList.flatMap MutationReceipt.states

def WalEvent.states {V : Type} : WalEvent V → List (MutationState V)
  | .changeUpsert change => change.states
  | .commitSealed _ changes => changes.flatMap ChangeRecord.states
  | _ => []

def WalEntry.states {V : Type} (entry : WalEntry V) : List (MutationState V) := entry.event.states

section

variable [JsonLibrary F] [Sha256]

/-- The authorization comes from `issue`. -/
def CommitAuthorization.Issued (F : Type) [JsonLibrary F] (authorization : CommitAuthorization) :
    Prop :=
  authorization.intentPin.episodeId.value < 2 ^ 64 ∧
    contentDigest (authorization.payload : JsonTree F) = .ok authorization.authorizationDigest

/-- The numbers of the event are words, and an authorization in it has been issued. -/
def WalEvent.WellFormed : WalEvent (JsonTree F) → Prop
  | .started intentPin capabilityGeneration =>
    intentPin.episodeId.value < 2 ^ 64 ∧ capabilityGeneration < 2 ^ 64
  | .commitSealed authorization _ => authorization.Issued F
  | _ => True

def WalEntry.WellFormed (entry : WalEntry (JsonTree F)) : Prop :=
  entry.sequence < 2 ^ 64 ∧ entry.event.WellFormed

theorem MutationState.decode_encode {state : MutationState (JsonTree F)} (h : state.Checked) :
    MutationState.decode state.encode = .ok state := by
  unfold MutationState.Checked at h
  simp [MutationState.decode, MutationState.encode, required, field, bind, Except.bind, pure,
    Except.pure, h]

theorem MutationState.checked_of_decode {state state' : MutationState (JsonTree F)}
    (h : MutationState.decode state.encode = .ok state') : state.Checked := by
  unfold MutationState.Checked
  cases hdigest : contentDigest state.value with
  | error error =>
    simp [MutationState.decode, MutationState.encode, required, field, bind, Except.bind,
      hdigest] at h
  | ok expected =>
    by_cases hsame : state.digest = expected
    · rw [hsame]
    · simp [MutationState.decode, MutationState.encode, required, field, bind, Except.bind,
        hdigest, hsame] at h

theorem MutationState.decode_encode_iff {state state' : MutationState (JsonTree F)} :
    MutationState.decode state.encode = .ok state' ↔ state.Checked ∧ state' = state := by
  constructor
  · intro h
    have hchecked := MutationState.checked_of_decode h
    rw [MutationState.decode_encode hchecked, Except.ok.injEq] at h
    exact ⟨hchecked, h.symm⟩
  · rintro ⟨hchecked, rfl⟩
    exact MutationState.decode_encode hchecked

/-- An optional record is read back if the record is. -/
def readOption {α : Type} (decode : JsonTree F → Except String α) (encode : α → JsonTree F) :
    Option α → Except String (Option α)
  | none => .ok none
  | some value => do return some (← decode (encode value))

theorem PreparedMutation.decode_encode_eq (prepared : PreparedMutation (JsonTree F)) :
    PreparedMutation.decode prepared.encode = (do
      let baseline ← MutationState.decode prepared.baseline.encode
      let desired ← MutationState.decode prepared.desired.encode
      return { prepared with baseline, desired }) := by
  simp [PreparedMutation.decode, PreparedMutation.encode, required, field, bind, Except.bind, pure,
    Except.pure]

theorem nullable_encode (state : Option (MutationState (JsonTree F))) :
    nullable MutationState.decode (some (encodeOption MutationState.encode state)) =
      readOption MutationState.decode MutationState.encode state := by
  cases state with
  | none => rfl
  | some state => rfl

theorem MutationReceipt.decode_encode_eq (receipt : MutationReceipt (JsonTree F)) :
    MutationReceipt.decode receipt.encode = (do
      let observed ← readOption MutationState.decode MutationState.encode receipt.observed
      return { receipt with observed }) := by
  simp [MutationReceipt.decode, MutationReceipt.encode, required, JsonTree.optional, field, bind,
    Except.bind, pure, Except.pure, nullable_encode]

theorem ChangeRecord.decode_encode_eq (change : ChangeRecord (JsonTree F)) :
    ChangeRecord.decode change.encode = (do
      let prepared ← PreparedMutation.decode change.prepared.encode
      let lastReceipt ← readOption MutationReceipt.decode MutationReceipt.encode change.lastReceipt
      return { change with prepared, lastReceipt }) := by
  have hreceipt : nullable MutationReceipt.decode
      (some (encodeOption MutationReceipt.encode change.lastReceipt)) =
      readOption MutationReceipt.decode MutationReceipt.encode change.lastReceipt := by
    cases change.lastReceipt <;> rfl
  have hmessage : nullable text (some (encodeOption .str change.message) : Option (JsonTree F)) =
      .ok change.message := by
    cases change.message <;> rfl
  cases hsupersedes : change.supersedes with
  | none =>
    simp [ChangeRecord.decode, ChangeRecord.encode, encodeMember, hsupersedes, required,
      JsonTree.optional, defaulted, field, boolean, bind, Except.bind, pure, Except.pure, hreceipt, hmessage]
  | some superseded =>
    have hid : nullable TextId.decode (some (superseded.encode : JsonTree F)) =
        .ok (some superseded) := by
      change (do return some (← TextId.decode (superseded.encode : JsonTree F))) = _
      rw [TextId.decode_encode]
      rfl
    simp [ChangeRecord.decode, ChangeRecord.encode, encodeMember, hsupersedes, required,
      JsonTree.optional, defaulted, field, boolean, bind, Except.bind, pure, Except.pure, hreceipt, hmessage, hid]

omit [JsonLibrary F] [Sha256] in
theorem readOption_iff {α : Type} {decode : JsonTree F → Except String α} {encode : α → JsonTree F}
    {P : α → Prop} (h : ∀ a b, decode (encode a) = .ok b ↔ P a ∧ b = a) {value value' : Option α} :
    readOption decode encode value = .ok value' ↔ (∀ a ∈ value, P a) ∧ value' = value := by
  cases value with
  | none => simp [readOption, eq_comm]
  | some a =>
    simp only [readOption, bind_eq_ok, h, pure, Except.pure, Except.ok.injEq, Option.mem_some_iff,
      forall_eq']
    constructor
    · rintro ⟨b, ⟨hchecked, rfl⟩, rfl⟩
      exact ⟨hchecked, rfl⟩
    · rintro ⟨hchecked, rfl⟩
      exact ⟨a, ⟨hchecked, rfl⟩, rfl⟩

/-- All states of a list are checked. -/
def AllChecked (states : List (MutationState (JsonTree F))) : Prop := ∀ state ∈ states, state.Checked

theorem PreparedMutation.decode_encode_iff {prepared prepared' : PreparedMutation (JsonTree F)} :
    PreparedMutation.decode prepared.encode = .ok prepared' ↔
      AllChecked prepared.states ∧ prepared' = prepared := by
  have hstates : AllChecked prepared.states ↔
      prepared.baseline.Checked ∧ prepared.desired.Checked := by
    simp [AllChecked, PreparedMutation.states]
  rw [PreparedMutation.decode_encode_eq, hstates]
  simp only [bind_eq_ok, MutationState.decode_encode_iff, pure, Except.pure, Except.ok.injEq]
  constructor
  · rintro ⟨_, ⟨hbaseline, rfl⟩, _, ⟨hdesired, rfl⟩, rfl⟩
    exact ⟨⟨hbaseline, hdesired⟩, rfl⟩
  · rintro ⟨⟨hbaseline, hdesired⟩, rfl⟩
    exact ⟨_, ⟨hbaseline, rfl⟩, _, ⟨hdesired, rfl⟩, rfl⟩

theorem MutationReceipt.decode_encode_iff {receipt receipt' : MutationReceipt (JsonTree F)} :
    MutationReceipt.decode receipt.encode = .ok receipt' ↔
      AllChecked receipt.states ∧ receipt' = receipt := by
  have hstates : AllChecked receipt.states ↔ ∀ state ∈ receipt.observed, state.Checked := by
    simp [AllChecked, MutationReceipt.states]
  rw [MutationReceipt.decode_encode_eq, hstates]
  simp only [bind_eq_ok, readOption_iff fun _ _ => MutationState.decode_encode_iff, pure,
    Except.pure, Except.ok.injEq]
  constructor
  · rintro ⟨_, ⟨hobserved, rfl⟩, rfl⟩
    exact ⟨hobserved, rfl⟩
  · rintro ⟨hobserved, rfl⟩
    exact ⟨_, ⟨hobserved, rfl⟩, rfl⟩

theorem ChangeRecord.decode_encode_iff {change change' : ChangeRecord (JsonTree F)} :
    ChangeRecord.decode change.encode = .ok change' ↔
      AllChecked change.states ∧ change' = change := by
  have hstates : AllChecked change.states ↔ AllChecked change.prepared.states ∧
      ∀ receipt ∈ change.lastReceipt, AllChecked receipt.states := by
    cases hreceipt : change.lastReceipt with
    | none => simp [AllChecked, ChangeRecord.states, hreceipt]
    | some receipt =>
      simp [AllChecked, ChangeRecord.states, hreceipt, or_imp, forall_and]
  rw [ChangeRecord.decode_encode_eq, hstates]
  simp only [bind_eq_ok, PreparedMutation.decode_encode_iff,
    readOption_iff fun _ _ => MutationReceipt.decode_encode_iff, pure, Except.pure,
    Except.ok.injEq]
  constructor
  · rintro ⟨_, ⟨hprepared, rfl⟩, _, ⟨hreceipt, rfl⟩, rfl⟩
    exact ⟨⟨hprepared, hreceipt⟩, rfl⟩
  · rintro ⟨⟨hprepared, hreceipt⟩, rfl⟩
    exact ⟨_, ⟨hprepared, rfl⟩, _, ⟨hreceipt, rfl⟩, rfl⟩

theorem ChangeRecord.decode_items_iff {changes changes' : List (ChangeRecord (JsonTree F))} :
    items ChangeRecord.decode (.arr (changes.map ChangeRecord.encode)) = .ok changes' ↔
      AllChecked (changes.flatMap ChangeRecord.states) ∧ changes' = changes := by
  rw [items, mapM_eq_ok, List.forall₂_map_left_iff]
  induction changes generalizing changes' with
  | nil => simp [AllChecked]
  | cons change changes ih =>
    rw [List.forall₂_cons_left_iff]
    simp only [ih, AllChecked, List.flatMap_cons, List.mem_append, or_imp, forall_and]
    simp only [ChangeRecord.decode_encode_iff, AllChecked]
    constructor
    · rintro ⟨_, _, ⟨hchange, rfl⟩, ⟨hchanges, rfl⟩, rfl⟩
      exact ⟨⟨hchange, hchanges⟩, rfl⟩
    · rintro ⟨⟨hchange, hchanges⟩, rfl⟩
      exact ⟨_, _, ⟨hchange, rfl⟩, ⟨hchanges, rfl⟩, rfl⟩

theorem CommitAuthorization.decode_encode {authorization : CommitAuthorization}
    (h : authorization.Issued F) :
    CommitAuthorization.decode (authorization.encode : JsonTree F) = .ok authorization := by
  have hpin := EvaluationIntentPin.decode_encode (F := F) h.1
  have hissued := h.2
  simp [CommitAuthorization.decode, CommitAuthorization.encode, required, field, hpin, bind,
    Except.bind, pure, Except.pure, hissued]

theorem WalEvent.decode_encode_iff {event event' : WalEvent (JsonTree F)} (h : event.WellFormed) :
    WalEvent.decode event.encode = .ok event' ↔ AllChecked event.states ∧ event' = event := by
  cases event with
  | started intentPin capabilityGeneration =>
    have hpin := EvaluationIntentPin.decode_encode (F := F) h.1
    have hword := word_natCast (F := F) h.2
    simp [WalEvent.decode, WalEvent.decodeKind, WalEvent.encode, required, field, text, hpin, hword,
      bind, Except.bind, pure, Except.pure, AllChecked, WalEvent.states, eq_comm]
  | changeUpsert change =>
    have hdecode : WalEvent.decode (WalEvent.changeUpsert change).encode =
        (do return .changeUpsert (← ChangeRecord.decode change.encode)) := by
      simp [WalEvent.decode, WalEvent.decodeKind, WalEvent.encode, required, field, text, bind,
        Except.bind, pure, Except.pure]
    rw [hdecode]
    simp only [bind_eq_ok, ChangeRecord.decode_encode_iff, pure, Except.pure, Except.ok.injEq]
    constructor
    · rintro ⟨_, ⟨hchange, rfl⟩, rfl⟩
      exact ⟨hchange, rfl⟩
    · rintro ⟨hchange, rfl⟩
      exact ⟨_, ⟨hchange, rfl⟩, rfl⟩
  | operationIntent _ _ _ | sealed _ =>
    simp [WalEvent.decode, WalEvent.decodeKind, WalEvent.encode, required, field, text, bind,
      Except.bind, pure, Except.pure, AllChecked, WalEvent.states, eq_comm]
  | commitSealed authorization changes =>
    have hauthorization := CommitAuthorization.decode_encode h
    have hdecode : WalEvent.decode (WalEvent.commitSealed authorization changes).encode =
        (do
          let changes ← items ChangeRecord.decode (.arr (changes.map ChangeRecord.encode))
          return .commitSealed authorization changes) := by
      simp [WalEvent.decode, WalEvent.decodeKind, WalEvent.encode, required, field, text, bind,
        Except.bind, pure, Except.pure, hauthorization]
    rw [hdecode]
    simp only [bind_eq_ok, ChangeRecord.decode_items_iff, pure, Except.pure, Except.ok.injEq]
    constructor
    · rintro ⟨_, ⟨hchanges, rfl⟩, rfl⟩
      exact ⟨hchanges, rfl⟩
    · rintro ⟨hchanges, rfl⟩
      exact ⟨_, ⟨hchanges, rfl⟩, rfl⟩

/-- An entry is read back as it was, or refused because of the digest of one of its states. -/
theorem WalEntry.decode_encode_iff {entry entry' : WalEntry (JsonTree F)} (h : entry.WellFormed) :
    WalEntry.decode entry.encode = .ok entry' ↔ AllChecked entry.states ∧ entry' = entry := by
  have hword := word_natCast (F := F) h.1
  have hdecode : WalEntry.decode entry.encode =
      (do return { entry with event := ← WalEvent.decode entry.event.encode }) := by
    simp [WalEntry.decode, WalEntry.encode, required, field, hword, bind, Except.bind, pure,
      Except.pure]
  rw [hdecode]
  simp only [bind_eq_ok, WalEvent.decode_encode_iff h.2, pure, Except.pure, Except.ok.injEq]
  constructor
  · rintro ⟨_, ⟨hstates, rfl⟩, rfl⟩
    exact ⟨hstates, rfl⟩
  · rintro ⟨hstates, rfl⟩
    exact ⟨_, ⟨hstates, rfl⟩, rfl⟩

end

end ScxAgent
