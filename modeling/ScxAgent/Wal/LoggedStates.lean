import ScxAgent.JsonTreeText
import ScxAgent.Wal.FileWal
import ScxAgent.Wal.ReadBack

/-!
# The states of a loaded log

What is loaded is what was logged, unless the JSON library reads a number of a mutation state as
another one. The digest of the state is then recomputed from the number that was read.
-/

namespace ScxAgent

open JsonTree List JsonLibrary

variable {F V W : Type} {entries : List (WalEntry (JsonTree F))}

/-! ## Entries with other values -/

def MutationState.map (g : V → W) (state : MutationState V) : MutationState W :=
  ⟨g state.value, state.digest⟩

def PreparedMutation.map (g : V → W) (prepared : PreparedMutation V) : PreparedMutation W where
  capabilityId := prepared.capabilityId
  provider := prepared.provider
  resource := prepared.resource
  baseline := prepared.baseline.map g
  desired := prepared.desired.map g
  driverData := g prepared.driverData

def MutationReceipt.map (g : V → W) (receipt : MutationReceipt V) : MutationReceipt W where
  operationId := receipt.operationId
  state := receipt.state
  observed := receipt.observed.map (MutationState.map g)
  driverData := g receipt.driverData

def ChangeRecord.map (g : V → W) (change : ChangeRecord V) : ChangeRecord W where
  transactionId := change.transactionId
  changeId := change.changeId
  supersedes := change.supersedes
  capabilityId := change.capabilityId
  resource := change.resource
  prepared := change.prepared.map g
  experimentVerified := change.experimentVerified
  state := change.state
  lastOperationId := change.lastOperationId
  lastReceipt := change.lastReceipt.map (MutationReceipt.map g)
  message := change.message

def WalEvent.map (g : V → W) : WalEvent V → WalEvent W
  | .started intentPin capabilityGeneration => .started intentPin capabilityGeneration
  | .changeUpsert change => .changeUpsert (change.map g)
  | .operationIntent changeId operationId operation =>
    .operationIntent changeId operationId operation
  | .sealed outcome => .sealed outcome
  | .commitSealed authorization changes => .commitSealed authorization (changes.map (·.map g))

def WalEntry.map (g : V → W) (entry : WalEntry V) : WalEntry W :=
  ⟨entry.sequence, entry.transactionId, entry.event.map g⟩

theorem ChangeRecord.states_map (g : V → W) (change : ChangeRecord V) :
    (change.map g).states = change.states.map (MutationState.map g) := by
  cases hreceipt : change.lastReceipt with
  | none =>
    simp [ChangeRecord.states, ChangeRecord.map, PreparedMutation.states, PreparedMutation.map,
      hreceipt]
  | some receipt =>
    cases hobserved : receipt.observed <;>
      simp [ChangeRecord.states, ChangeRecord.map, PreparedMutation.states, PreparedMutation.map,
        MutationReceipt.states, MutationReceipt.map, hreceipt, hobserved]

theorem WalEntry.states_map (g : V → W) (entry : WalEntry V) :
    (entry.map g).states = entry.states.map (MutationState.map g) := by
  obtain ⟨sequence, transactionId, event⟩ := entry
  cases event with
  | changeUpsert change => exact change.states_map g
  | commitSealed authorization changes =>
    simp only [WalEntry.states, WalEntry.map, WalEvent.map, WalEvent.states]
    induction changes with
    | nil => rfl
    | cons change changes ih =>
      rw [map_cons, flatMap_cons, flatMap_cons, map_append, ih,
        change.states_map]
  | _ => rfl

theorem MutationState.mapFloat_encode (f : F → F) (state : MutationState (JsonTree F)) :
    state.encode.mapFloat f = (state.map (mapFloat f)).encode := by
  simp [MutationState.encode, MutationState.map, mapFloat, mapMembers, TextId.encode]

theorem PreparedMutation.mapFloat_encode (f : F → F) (prepared : PreparedMutation (JsonTree F)) :
    prepared.encode.mapFloat f = (prepared.map (mapFloat f)).encode := by
  simp [PreparedMutation.encode, PreparedMutation.map, mapFloat, mapMembers, TextId.encode,
    ProviderPin.encode, MutationState.mapFloat_encode]

theorem MutationReceipt.mapFloat_encode (f : F → F) (receipt : MutationReceipt (JsonTree F)) :
    receipt.encode.mapFloat f = (receipt.map (mapFloat f)).encode := by
  cases hobserved : receipt.observed <;>
    simp [MutationReceipt.encode, MutationReceipt.map, mapFloat, mapMembers, TextId.encode,
      encodeOption, MutationState.mapFloat_encode, hobserved]

theorem ChangeRecord.mapFloat_encode (f : F → F) (change : ChangeRecord (JsonTree F)) :
    change.encode.mapFloat f = (change.map (mapFloat f)).encode := by
  cases hsupersedes : change.supersedes <;> cases hreceipt : change.lastReceipt <;>
    cases hmessage : change.message <;>
    simp [ChangeRecord.encode, ChangeRecord.map, mapFloat, mapMembers, TextId.encode, encodeMember,
      encodeOption, PreparedMutation.mapFloat_encode, MutationReceipt.mapFloat_encode, hsupersedes,
      hreceipt, hmessage]

/-- Replacing the numbers of a serialized entry is serializing the entry with the values replaced:
nothing else in it is a floating-point number. -/
theorem WalEntry.mapFloat_encode (f : F → F) (entry : WalEntry (JsonTree F)) :
    entry.encode.mapFloat f = (entry.map (mapFloat f)).encode := by
  obtain ⟨sequence, transactionId, event⟩ := entry
  cases event <;>
    simp [WalEntry.encode, WalEntry.map, WalEvent.encode, WalEvent.map, mapFloat, mapMembers,
      mapItems_eq_map, TextId.encode, EvaluationIntentPin.encode, CommitAuthorization.encode,
      ChangeRecord.mapFloat_encode]

theorem MutationState.map_eq_self_iff {state : MutationState V} {g : V → V} :
    state.map g = state ↔ g state.value = state.value := by
  obtain ⟨value, digest⟩ := state
  simp [MutationState.map]

/-- Entries are read one by one. -/
theorem forall₂_states_iff {R : WalEntry (JsonTree F) → WalEntry (JsonTree F) → Prop} :
    (∃ read, Forall₂ R entries read ∧
      read.map WalEntry.states = entries.map WalEntry.states) ↔
      ∀ entry ∈ entries, ∃ entry', R entry entry' ∧ entry'.states = entry.states := by
  induction entries with
  | nil => simp
  | cons entry entries ih =>
    rw [forall_mem_cons, ← ih]
    constructor
    · rintro ⟨_, hread, hstates⟩
      cases hread with
      | cons hfirst hrest =>
        rw [map_cons, map_cons, cons.injEq] at hstates
        exact ⟨⟨_, hfirst, hstates.1⟩, _, hrest, hstates.2⟩
    · rintro ⟨⟨entry', hfirst, hstates⟩, read, hrest, hrests⟩
      refine ⟨entry' :: read, .cons hfirst hrest, ?_⟩
      rw [map_cons, map_cons, hstates, hrests]

section

variable [JsonLibrary F]

/-! ## The lines of a log -/

/-- The line of an entry. -/
def WalEntry.line (entry : WalEntry (JsonTree F)) : List Char :=
  JsonLibrary.print entry.encode ++ ['\n']

variable {entry : WalEntry (JsonTree F)}

theorem FileWal.writeSynced_ok {wal wal' : FileWal} {fault : Option FileWal.WriteFault}
    (h : wal.writeSynced entry fault = (.ok (), wal')) :
    wal' = { wal with file := wal.file ++ entry.line } := by
  unfold FileWal.writeSynced at h
  split at h
  · cases h
  · cases fault with
    | none => exact (Prod.mk.inj h).2.symm
    | some fault => cases h

namespace FileWal

theorem Logs.file_eq {wal wal' : FileWal} (h : wal.Logs entry wal') :
    wal'.path = wal.path ∧ wal'.file = wal.file ++ entry.line := by
  obtain ⟨fault, h | h⟩ := h
  · unfold appendDurable at h
    split at h
    · cases h
    · rw [writeSynced_ok h]
      exact ⟨rfl, rfl⟩
  · unfold sealEntry at h
    split at h
    · cases h
    · split at h
      · cases h
      · rename_i written hwrite
        rw [← (Prod.mk.inj h).2, writeSynced_ok hwrite]
        exact ⟨rfl, rfl⟩

theorem LogsAll.file_eq {wal wal' : FileWal} (h : LogsAll wal entries wal') :
    wal'.path = wal.path ∧ wal'.file = wal.file ++ entries.flatMap WalEntry.line := by
  induction h with
  | nil wal => simp
  | cons hlogs _ ih =>
    have hfirst := hlogs.file_eq
    rw [flatMap_cons, ← append_assoc, ← hfirst.2, ← hfirst.1]
    exact ih

end FileWal

theorem bufLines_flatMap_line [LawfulJsonLibrary F] (entries : List (WalEntry (JsonTree F))) :
    bufLines (entries.flatMap WalEntry.line) =
      entries.map fun entry => print entry.encode := by
  induction entries with
  | nil => rfl
  | cons entry entries ih =>
    obtain ⟨hnewline, hreturn⟩ := LawfulJsonLibrary.one_line entry.encode
    rw [flatMap_cons, WalEntry.line, append_assoc, singleton_append, bufLines,
      linesFrom_line hnewline, reverse_nil, nil_append, chompReturn_eq_self hreturn,
      map_cons]
    exact congrArg _ ih

theorem print_not_blank [LawfulJsonLibrary F] (tree : JsonTree F) :
    (print tree).all isWhitespace = false := by
  obtain ⟨c, hc, hvisible⟩ := LawfulJsonLibrary.not_blank tree
  have hspace : isWhitespace c = false := not_whitespace_of_visible (by simp [isVisible]; omega)
  rw [all_eq_false]
  exact ⟨c, hc, by simp [hspace]⟩

variable [Sha256]

theorem WalEntry.WellFormed.map (h : entry.WellFormed) (g : JsonTree F → JsonTree F) :
    (entry.map g).WellFormed := by
  obtain ⟨sequence, transactionId, event⟩ := entry
  cases event <;> exact h

/-- The state carries the digest of its value, and each number in it is read as it was. -/
def MutationState.Stable (state : MutationState (JsonTree F)) : Prop :=
  state.Checked ∧ ∀ x ∈ state.value.floats, JsonLibrary.drift x = x

/-- The entry is accepted with the same states if and only if they are stable. -/
theorem WalEntry.read_iff (h : entry.WellFormed) :
    (∃ entry', WalEntry.decode (entry.encode.mapFloat drift) = .ok entry' ∧
      entry'.states = entry.states) ↔ ∀ state ∈ entry.states, state.Stable := by
  have hsame : (entry.map (mapFloat drift)).states = entry.states ↔
      ∀ state ∈ entry.states, ∀ x ∈ state.value.floats, drift x = x := by
    have hid := map_inj_left (l := entry.states)
      (f := MutationState.map (mapFloat drift)) (g := id)
    rw [map_id] at hid
    simp only [WalEntry.states_map, hid, id, MutationState.map_eq_self_iff, mapFloat_eq_self_iff]
  rw [WalEntry.mapFloat_encode]
  simp only [WalEntry.decode_encode_iff (h.map _)]
  constructor
  · rintro ⟨_, ⟨hchecked, rfl⟩, hstates⟩ state hstate
    rw [hstates] at hchecked
    exact ⟨hchecked state hstate, hsame.mp hstates state hstate⟩
  · intro hstable
    have hstates := hsame.mpr fun state hstate => (hstable state hstate).2
    refine ⟨_, ⟨?_, rfl⟩, hstates⟩
    rw [hstates]
    exact fun state hstate => (hstable state hstate).1

/-! ## What is loaded -/

theorem loadLines_append (path : String) (index : ℕ) (lines lines' : List (List Char)) :
    loadLines (F := F) path index (lines ++ lines') = (do
      let entries ← loadLines path index lines
      let entries' ← loadLines path (index + lines.length) lines'
      return entries ++ entries') := by
  induction lines generalizing index with
  | nil =>
    simp only [nil_append, loadLines, length_nil, Nat.add_zero, bind, Except.bind, pure,
      Except.pure]
    cases loadLines (F := F) path index lines' <;> rfl
  | cons line lines ih =>
    have hindex : index + (line :: lines).length = index + 1 + lines.length := by
      rw [length_cons]
      omega
    rw [cons_append, loadLines, loadLines, ih, hindex]
    split
    · rfl
    · split
      · rfl
      · cases loadLines (F := F) path (index + 1) lines with
        | error error => rfl
        | ok entries =>
          cases loadLines (F := F) path (index + 1 + lines.length) lines' <;> rfl

variable [LawfulJsonLibrary F]

theorem loadLines_printed {path : String} {index : ℕ} {read : List (WalEntry (JsonTree F))} :
    loadLines path index (entries.map fun entry => print entry.encode) = .ok read ↔
      Forall₂ (fun entry entry' =>
        WalEntry.decode (entry.encode.mapFloat drift) = .ok entry') entries read := by
  induction entries generalizing index read with
  | nil => simp [loadLines, eq_comm]
  | cons entry entries ih =>
    rw [map_cons, loadLines, print_not_blank, forall₂_cons_left_iff,
      LawfulJsonLibrary.parse_print]
    simp only [Bool.false_eq_true, if_false, ← @ih (index + 1), bind, Except.bind]
    cases WalEntry.decode (entry.encode.mapFloat drift) with
    | error error => simp
    | ok entry' =>
      cases loadLines (F := F) path (index + 1)
        (entries.map fun entry => print entry.encode) with
      | error error => simp
      | ok entries' => simp [eq_comm]

theorem FileWal.load_logged {wal wal' : FileWal} {earlier read : List (WalEntry (JsonTree F))}
    (hwhole : wal.Whole) (hload : wal.load F = .ok earlier)
    (hlog : FileWal.LogsAll wal entries wal') :
    wal'.load F = .ok (earlier ++ read) ↔
      Forall₂ (fun entry entry' =>
        WalEntry.decode (entry.encode.mapFloat drift) = .ok entry') entries read := by
  obtain ⟨hpath, hfile⟩ := hlog.file_eq
  unfold FileWal.load loadFile at *
  rw [hpath, hfile, hwhole.bufLines_append, bufLines_flatMap_line, loadLines_append, hload,
    ← loadLines_printed]
  simp only [bind, Except.bind, pure, Except.pure]
  split
  · rename_i hrest
    rw [hrest]
    simp
  · rename_i rest hrest
    rw [hrest]
    simp

/-- Entries logged behind whole lines that load are loaded with the states they were logged with, if
and only if every state carries the digest of its value and every number in it is read back as
itself. -/
theorem logged_states_read_back_iff {wal wal' : FileWal}
    {entries earlier : List (WalEntry (JsonTree F))} (hwhole : wal.Whole)
    (hload : wal.load F = .ok earlier) (hlog : FileWal.LogsAll wal entries wal')
    (hwell : ∀ entry ∈ entries, entry.WellFormed) :
    (∃ read, wal'.load F = .ok (earlier ++ read) ∧
      read.map WalEntry.states = entries.map WalEntry.states) ↔
      ∀ entry ∈ entries, ∀ state ∈ entry.states,
        state.Checked ∧ ∀ x ∈ state.value.floats, JsonLibrary.drift x = x := by
  simp only [FileWal.load_logged hwhole hload hlog, forall₂_states_iff]
  exact forall₂_congr fun entry hentry => WalEntry.read_iff (hwell entry hentry)

end

/-! ## Two neighbouring numbers -/

/-- The doubles 51.248178375505404 and 51.24817837550541. -/
inductive Double where
  | lower
  | upper
  deriving DecidableEq

namespace Double

/-- The digits that are printed. -/
def digits : Double → ℕ
  | lower => 51248178375505404
  | upper => 51248178375505410

/-- The digits of the lower number do not fit into the mantissa; they are rounded up before they are
scaled. -/
def parsed (_ : ℕ) : Double := upper

instance : JsonLibrary Double := textLibrary digits parsed

instance : LawfulJsonLibrary Double := textLibrary_lawful digits parsed

/-- A sum of the bytes in the place of the hash. -/
local instance : Sha256 := ⟨fun bytes => Vector.replicate 32 bytes.sum⟩

def digest : Double → Digest
  | lower => ⟨"sha256:8b8b8b8b8b8b8b8b8b8b8b8b8b8b8b8b8b8b8b8b8b8b8b8b8b8b8b8b8b8b8b8b",
      by decide +kernel⟩
  | upper => ⟨"sha256:8888888888888888888888888888888888888888888888888888888888888888",
      by decide +kernel⟩

def state (x : Double) : MutationState (JsonTree Double) := ⟨.float x, x.digest⟩

theorem contentDigest_float (x : Double) :
    contentDigest (.float x : JsonTree Double) = .ok x.digest := by
  cases x <;> decide +kernel

def prepared (x : Double) : PreparedMutation (JsonTree Double) where
  capabilityId := ⟨"governor/tune.set.v1", by decide +kernel⟩
  provider := ⟨⟨"governor", by decide +kernel⟩, ⟨"1.0.0", version_valid⟩, .mcp, lower.digest⟩
  resource := ⟨"governor:share", by decide +kernel⟩
  baseline := x.state
  desired := x.state
  driverData := .null

def entry (x : Double) : WalEntry (JsonTree Double) where
  sequence := 1
  transactionId := ⟨"tx/1", by decide +kernel⟩
  event := .changeUpsert {
    transactionId := ⟨"tx/1", by decide +kernel⟩
    changeId := ⟨"change/1", by decide +kernel⟩
    supersedes := none
    capabilityId := ⟨"governor/tune.set.v1", by decide +kernel⟩
    resource := ⟨"governor:share", by decide +kernel⟩
    prepared := x.prepared
    experimentVerified := false
    state := .intentDurable
    lastOperationId := ⟨"tx/1/op/1", by decide +kernel⟩
    lastReceipt := none
    message := none }

def empty : FileWal := ⟨"wal.jsonl", [], false⟩

def logged (x : Double) : FileWal := (empty.appendDurable x.entry none).2

theorem logsAll (x : Double) : FileWal.LogsAll empty [x.entry] x.logged :=
  .cons ⟨none, .inl rfl⟩ (.nil _)

theorem wellFormed (x : Double) : ∀ entry ∈ [x.entry], entry.WellFormed := by
  rintro entry (_ | ⟨_, ⟨⟩⟩)
  exact ⟨Nat.one_lt_two_pow (by decide), trivial⟩

theorem states_entry {x : Double} {state : MutationState (JsonTree Double)}
    (h : state ∈ x.entry.states) : state = x.state := by
  simpa [WalEntry.states, entry, WalEvent.states, ChangeRecord.states, PreparedMutation.states,
    prepared] using h

theorem logged_upper_read_back :
    ∃ read, (logged upper).load Double = .ok ([] ++ read) ∧
      read.map WalEntry.states = [(entry upper)].map WalEntry.states := by
  refine (logged_states_read_back_iff (.inl rfl) rfl (logsAll upper) (wellFormed upper)).mpr ?_
  rintro _ (_ | ⟨_, ⟨⟩⟩) state hstate
  rw [states_entry hstate]
  refine ⟨upper.contentDigest_float, fun x hx => ?_⟩
  rw [mem_singleton.mp hx]
  rfl

/-- The append of the lower number succeeds, and the log cannot be loaded any more: the digest of
the number that is read is not the one that was logged. -/
theorem logged_lower_refused :
    lower.state.Checked ∧ empty.load Double = .ok [] ∧
      (empty.appendDurable (entry lower) none).1 = .ok () ∧
      ∀ read, (logged lower).load Double ≠ .ok read := by
  refine ⟨lower.contentDigest_float, rfl, rfl, fun read hread => ?_⟩
  rw [← nil_append read, FileWal.load_logged (.inl rfl) rfl (logsAll lower)] at hread
  cases hread with
  | cons hdecode _ =>
    rw [WalEntry.mapFloat_encode] at hdecode
    have hentry := wellFormed lower _ mem_cons_self
    have hchecked := ((WalEntry.decode_encode_iff (hentry.map _)).mp hdecode).1
    rw [WalEntry.states_map] at hchecked
    have hmem : lower.state ∈ lower.entry.states := mem_cons_self
    have hread := hchecked _ (mem_map_of_mem hmem)
    have hdigest := (upper.contentDigest_float).symm.trans hread
    exact absurd (Except.ok.inj hdigest) (by decide +kernel)

end Double

end ScxAgent
