import ScxAgent.ExceptRules
import ScxAgent.TestFixture

/-!
# Discovery and recovery read a pending log alike

`inspect_log` of the store sorts the logs that a restart finds, and `recover` rebuilds the
kernel of a log that is still open. The two loops keep different accumulators of the same
entries. `Agrees` relates them, every entry that both accept keeps it, and so does the whole
log.
-/

namespace ScxAgent

open Std ExceptRules Option

variable {V W ω : Type} {st st' : Inspection} {change : ChangeRecord V}

/-! ## What an accepted entry changes -/

section Accepted

variable [DecidableEq V] [Serialize V] [Sha256]

omit [DecidableEq V] [Serialize V] [Sha256] in
/-- The first record of a change moves only what is known about its resource. -/
theorem inspectFirst_ok (h : inspectFirst st change = .ok st') :
    st'.changes = st.changes ∧ st'.pendingOperations = st.pendingOperations := by
  unfold inspectFirst at h
  split_ifs at h
  split at h
  · split at h
    · cases h
    · cases h
      exact ⟨rfl, rfl⟩
  · split at h
    · cases h
    · split_ifs at h
      cases h
      exact ⟨rfl, rfl⟩

variable {transactionId : TransactionId}

theorem inspectUpsert_ok (h : inspectUpsert transactionId st change = .ok st') :
    st'.changes = st.changes.insert change.changeId change.recoveryChange ∧
      st'.pendingOperations =
        resolveIntent st.pendingOperations change.changeId change.lastOperationId := by
  unfold inspectUpsert at h
  obtain ⟨-, h⟩ := of_refusal_eq_ok h
  obtain ⟨-, h⟩ := of_refusal_eq_ok h
  obtain ⟨-, h⟩ := of_refusal_eq_ok h
  obtain ⟨-, h⟩ := of_refusal_eq_ok h
  dsimp only at h
  split at h
  · obtain ⟨_, _, h⟩ := bind_eq_ok.mp h
    obtain ⟨-, h⟩ := of_refusal_eq_ok h
    cases h
    exact ⟨rfl, rfl⟩
  · obtain ⟨owned, howned, h⟩ := bind_eq_ok.mp h
    obtain ⟨-, h⟩ := of_refusal_eq_ok h
    cases h
    rw [← (inspectFirst_ok howned).1, ← (inspectFirst_ok howned).2]
    exact ⟨rfl, rfl⟩

variable {changeId : ChangeId} {operation : OperationIntentKind} {operationId : OperationId}

omit [DecidableEq V] [Serialize V] [Sha256] in
theorem inspectIntent_ok (h : inspectIntent st changeId operationId operation = .ok st') :
    st' = { st with
      pendingOperations := st.pendingOperations.insert changeId (operationId, operation) } := by
  unfold inspectIntent at h
  split_ifs at h
  cases h
  rfl

omit [DecidableEq V] [Serialize V] in
theorem inspectCommit_ok {authorization : CommitAuthorization}
    {terminalChanges : List (ChangeRecord V)}
    (h : inspectCommit transactionId st authorization terminalChanges = .ok st') :
    st'.changes = insertRecoveryChanges st.changes terminalChanges ∧
      st'.pendingOperations = st.pendingOperations := by
  unfold inspectCommit at h
  obtain ⟨-, h⟩ := of_refusal_eq_ok h
  obtain ⟨_, _, h⟩ := bind_eq_ok.mp h
  split at h
  · cases h
  · split_ifs at h
    cases h
    exact ⟨rfl, rfl⟩

omit [DecidableEq V] [Serialize V] [Sha256] in
theorem replayIntent_ok {r after : Replay V}
    (h : replayIntent r changeId operationId operation = .ok after) :
    (r.changes[changeId]?).isSome ∧ after = { r with
      pendingIntents := r.pendingIntents.insert changeId (operationId, operation) } := by
  unfold replayIntent at h
  split at h
  · cases h
  · rename_i found hfound
    split_ifs at h
    cases h
    exact ⟨by rw [hfound]; rfl, rfl⟩

end Accepted

/-! ## The two accumulators -/

/-- What the two loops know after the same entries: the store keeps an excerpt of every record
that recovery keeps, and both wait for the same operations. -/
structure Agrees (count : ℕ) (st : Inspection) (r : Replay V) : Prop where
  changes : ∀ changeId : ChangeId,
    st.changes[changeId]? = (r.changes[changeId]?).map ChangeRecord.recoveryChange
  pending : st.pendingOperations = r.pendingIntents
  recorded : ∀ changeId : ChangeId, (r.pendingIntents[changeId]?).isSome →
    (r.changes[changeId]?).isSome
  keyed : ∀ (changeId : ChangeId) (change : ChangeRecord V),
    r.changes[changeId]? = some change → change.changeId = changeId
  sequence : r.expectedSequence = count

namespace Agrees

variable {count : ℕ} {r after : Replay V}

theorem initial : Agrees 0 Inspection.initial (Replay.initial : Replay V) where
  changes changeId := by
    simp [Inspection.initial, Replay.initial]
  pending := rfl
  recorded changeId h := by
    simp [Replay.initial] at h
  keyed changeId change h := by
    simp [Replay.initial] at h
  sequence := rfl

/-- Nothing but these fields of the accumulators matters. -/
theorem of_same (h : Agrees count st r) (hchanges : st'.changes = st.changes)
    (hpending : st'.pendingOperations = st.pendingOperations) (hafter : after.changes = r.changes)
    (hintents : after.pendingIntents = r.pendingIntents)
    (hsequence : after.expectedSequence = count + 1) : Agrees (count + 1) st' after where
  changes changeId := by
    rw [hchanges, hafter]
    exact h.changes changeId
  pending := by
    rw [hpending, hintents]
    exact h.pending
  recorded := by
    rw [hafter, hintents]
    exact h.recorded
  keyed := by
    rw [hafter]
    exact h.keyed
  sequence := hsequence

variable {records : TreeMap ChangeId (ChangeRecord V)}

theorem insert_changes {changes : TreeMap ChangeId RecoveryChange}
    (h : ∀ changeId : ChangeId, changes[changeId]? = (records[changeId]?).map ChangeRecord.recoveryChange)
    (change : ChangeRecord V) (changeId : ChangeId) :
    (changes.insert change.changeId change.recoveryChange)[changeId]? =
      ((records.insert change.changeId change)[changeId]?).map ChangeRecord.recoveryChange := by
  rw [getElem?_insert_eq, getElem?_insert_eq]
  split_ifs
  · rfl
  · exact h changeId

theorem insert_keyed
    (h : ∀ (changeId : ChangeId) (change : ChangeRecord V), records[changeId]? = some change → change.changeId = changeId)
    (added : ChangeRecord V) (changeId : ChangeId) (change : ChangeRecord V)
    (hget : (records.insert added.changeId added)[changeId]? = some change) :
    change.changeId = changeId := by
  rw [getElem?_insert_eq] at hget
  split_ifs at hget with heq
  · cases hget
    exact heq
  · exact h changeId change hget

/-- A record of a change enters both tables and answers the same pending operation. -/
theorem upsert [Sha256] (h : Agrees count st r) (change : ChangeRecord V)
    (hchanges : st'.changes = st.changes.insert change.changeId change.recoveryChange)
    (hpending : st'.pendingOperations =
      resolveIntent st.pendingOperations change.changeId change.lastOperationId)
    (hafter : after.changes = r.changes.insert change.changeId change)
    (hintents : after.pendingIntents =
      resolveIntent r.pendingIntents change.changeId change.lastOperationId)
    (hsequence : after.expectedSequence = count + 1) : Agrees (count + 1) st' after where
  changes := by
    rw [hchanges, hafter]
    exact insert_changes h.changes change
  pending := by
    rw [hpending, hintents, h.pending]
  recorded changeId hpending := by
    rw [hintents] at hpending
    obtain ⟨intent, hintent⟩ := isSome_iff_exists.mp hpending
    rw [hafter, getElem?_insert_eq]
    split_ifs
    · rfl
    · exact h.recorded changeId (by rw [resolveIntent_getElem? hintent]; rfl)
  keyed := by
    rw [hafter]
    exact insert_keyed h.keyed change
  sequence := hsequence

/-- An intent waits in both for the record that answers it. -/
theorem intent (h : Agrees count st r) {changeId : ChangeId}
    {waiting : OperationId × OperationIntentKind} (hknown : (r.changes[changeId]?).isSome)
    (hchanges : st'.changes = st.changes)
    (hpending : st'.pendingOperations = st.pendingOperations.insert changeId waiting)
    (hafter : after.changes = r.changes)
    (hintents : after.pendingIntents = r.pendingIntents.insert changeId waiting)
    (hsequence : after.expectedSequence = count + 1) : Agrees (count + 1) st' after where
  changes := by
    rw [hchanges, hafter]
    exact h.changes
  pending := by
    rw [hpending, hintents, h.pending]
  recorded other hother := by
    rw [hintents, getElem?_insert_eq] at hother
    rw [hafter]
    split_ifs at hother with heq
    · rw [← heq]
      exact hknown
    · exact h.recorded other hother
  keyed := by
    rw [hafter]
    exact h.keyed
  sequence := hsequence

end Agrees

/-! ## One entry -/

theorem insertChanges_agree (terminalChanges : List (ChangeRecord V)) :
    ∀ {changes : TreeMap ChangeId RecoveryChange} {records : TreeMap ChangeId (ChangeRecord V)},
      (∀ changeId : ChangeId,
        changes[changeId]? = (records[changeId]?).map ChangeRecord.recoveryChange) →
      ∀ changeId : ChangeId, (insertRecoveryChanges changes terminalChanges)[changeId]? =
        ((insertChanges records terminalChanges)[changeId]?).map ChangeRecord.recoveryChange := by
  induction terminalChanges with
  | nil => exact fun h => h
  | cons terminal rest ih => exact fun h => ih (Agrees.insert_changes h terminal)

section Entries

variable [DecidableEq V] [Serialize V] [Sha256] {count total : ℕ}
  {inspectedId transactionId : TransactionId} {intentPin : EvaluationIntentPin}
  {capabilities : CapabilitySnapshot V W} {r after : Replay V}

/-- An entry that both loops accept keeps them in agreement. -/
theorem Agrees.entry {entry : WalEntry V} (h : Agrees count st r)
    (hinspect : inspectEntry inspectedId total st (entry, count) = .ok st')
    (hreplay : replayEntry transactionId intentPin capabilities total r entry = .ok after) :
    Agrees (count + 1) st' after := by
  have hsequence : after.expectedSequence = count + 1 := by
    rw [replayEntry_sequence hreplay, h.sequence]
  unfold inspectEntry at hinspect
  obtain ⟨-, hinspect⟩ := of_refusal_eq_ok hinspect
  obtain ⟨-, hinspect⟩ := of_refusal_eq_ok hinspect
  unfold replayEntry at hreplay
  obtain ⟨-, hreplay⟩ := of_refusal_eq_ok hreplay
  obtain ⟨-, hreplay⟩ := of_refusal_eq_ok hreplay
  cases hevent : entry.event with
  | started storedIntentPin generation =>
    simp only [hevent] at hinspect hreplay
    obtain ⟨-, hinspect⟩ := of_refusal_eq_ok hinspect
    obtain ⟨-, hreplay⟩ := of_refusal_eq_ok hreplay
    cases hinspect
    cases hreplay
    exact h.of_same rfl rfl rfl rfl hsequence
  | changeUpsert change =>
    simp only [hevent] at hinspect hreplay
    obtain ⟨hchanges, hpending⟩ := inspectUpsert_ok hinspect
    obtain rfl | rfl := replayUpsert_ok hreplay
    · exact h.upsert change hchanges hpending rfl rfl hsequence
    · exact h.upsert change hchanges hpending rfl rfl hsequence
  | operationIntent changeId operationId operation =>
    simp only [hevent] at hinspect hreplay
    cases inspectIntent_ok hinspect
    obtain ⟨hknown, rfl⟩ := replayIntent_ok hreplay
    exact h.intent hknown rfl rfl rfl rfl hsequence
  | sealed outcome =>
    simp only [hevent] at hinspect hreplay
    obtain ⟨-, hinspect⟩ := of_refusal_eq_ok hinspect
    obtain ⟨-, hinspect⟩ := of_refusal_eq_ok hinspect
    obtain ⟨-, hreplay⟩ := of_refusal_eq_ok hreplay
    cases hinspect
    cases hreplay
    exact h.of_same rfl rfl rfl rfl hsequence
  | commitSealed authorization terminalChanges =>
    simp only [hevent] at hinspect hreplay
    obtain ⟨-, hinspect⟩ := of_refusal_eq_ok hinspect
    obtain ⟨-, hreplay⟩ := of_refusal_eq_ok hreplay
    obtain ⟨hchanges, hpending⟩ := inspectCommit_ok hinspect
    obtain ⟨hnone, rfl⟩ := replayCommit_ok hreplay
    refine ⟨?_, ?_, ?_, ?_, hsequence⟩
    · rw [hchanges]
      exact insertChanges_agree terminalChanges h.changes
    · rw [hpending]
      exact h.pending
    · intro changeId hsome
      rw [isEmpty_iff_getElem?.mp hnone changeId] at hsome
      cases hsome
    · exact insertChanges_getElem? terminalChanges (fun _ _ => rfl) h.keyed

theorem inspectEntries_agree {entries : List (WalEntry V)}
    (hinspect : inspectEntries inspectedId entries = .ok st)
    (hreplay : replayLog transactionId intentPin capabilities entries.length entries = .ok r) :
    Agrees entries.length st r := by
  have h := foldlM_related (R := Agrees) Agrees.entry Agrees.initial hinspect hreplay
  rwa [Nat.zero_add] at h

end Entries

/-! ## The transaction that both report -/

section Reports

variable {count : ℕ} {r : Replay V}

/-- What recovery takes for unknown: an operation whose result was lost, or an apply that was
never answered. -/
theorem recovered_unknown_iff (pending : Option (OperationId × OperationIntentKind))
    (change : ChangeRecord V) :
    (recoverInitialApply (recoverIntent pending change)).state = .appliedUnknown ↔
      (∃ intent, pending = some intent ∧ intent.2 ≠ .finalize) ∨
        change.state = .intentDurable ∨ change.state = .appliedUnknown := by
  unfold recoverInitialApply
  rcases pending with _ | ⟨operationId, operation⟩
  · by_cases hinitial : change.state = .intentDurable
    · simp [recoverIntent, hinitial]
    · simp [recoverIntent, hinitial]
  · cases operation <;> by_cases hinitial : change.state = .intentDurable <;>
      simp [recoverIntent, hinitial]

theorem Agrees.mem_changes (h : Agrees count st r) {change : RecoveryChange} :
    change ∈ st.changes.toList.map Prod.snd ↔
      ∃ record, r.changes[change.changeId]? = some record ∧ record.recoveryChange = change := by
  simp only [List.mem_map, Prod.exists, exists_eq_right, TreeMap.mem_toList_iff_getElem?_eq_some]
  constructor
  · rintro ⟨changeId, hget⟩
    rw [h.changes, map_eq_some_iff] at hget
    obtain ⟨record, hrecord, rfl⟩ := hget
    have hkey : record.recoveryChange.changeId = changeId := h.keyed changeId record hrecord
    exact ⟨record, by rw [hkey, hrecord], rfl⟩
  · rintro ⟨record, hrecord, hsame⟩
    exact ⟨change.changeId, by rw [h.changes, hrecord, map_some, hsame]⟩

/-- The flag of the store says that recovery will find a change in an unknown state. -/
theorem Agrees.unknown_iff [DecidableEq V] [Serialize V] [Sha256] (h : Agrees count st r) :
    (st.pendingOperations.toList.any fun entry => entry.2.2 ≠ .finalize) = true ∨
        (∃ change ∈ st.changes.toList.map Prod.snd,
          change.state = .intentDurable ∨ change.state = .appliedUnknown) ↔
      ∃ (changeId : ChangeId) (record : ChangeRecord V),
        r.recoveredChanges[changeId]? = some record ∧ record.state = .appliedUnknown := by
  simp only [List.any_eq_true, Prod.exists, TreeMap.mem_toList_iff_getElem?_eq_some,
    decide_eq_true_eq, recoveredChanges_getElem?, map_eq_some_iff]
  constructor
  · rintro (⟨changeId, operationId, operation, hpending, hoperation⟩ | ⟨change, hmem, hstate⟩)
    · rw [h.pending] at hpending
      obtain ⟨record, hrecord⟩ := isSome_iff_exists.mp
        (h.recorded changeId (by rw [hpending]; rfl))
      exact ⟨changeId, _, ⟨record, hrecord, rfl⟩, (recovered_unknown_iff _ record).mpr
        (.inl ⟨_, hpending, hoperation⟩)⟩
    · obtain ⟨record, hrecord, rfl⟩ := h.mem_changes.mp hmem
      exact ⟨_, _, ⟨record, hrecord, rfl⟩, (recovered_unknown_iff _ record).mpr (.inr hstate)⟩
  · rintro ⟨changeId, _, ⟨record, hrecord, rfl⟩, hstate⟩
    obtain ⟨⟨operationId, operation⟩, hpending, hoperation⟩ | hstate :=
      (recovered_unknown_iff _ record).mp hstate
    · rw [← h.pending] at hpending
      exact .inl ⟨changeId, operationId, operation, hpending, hoperation⟩
    · have hkey : record.recoveryChange.changeId = changeId := h.keyed changeId record hrecord
      exact .inr ⟨record.recoveryChange, h.mem_changes.mpr ⟨record, by rw [hkey, hrecord], rfl⟩,
        hstate⟩

end Reports

section Discovery

variable [DecidableEq V] [Serialize V] [Sha256]

theorem inspectLog_pending {path : String} {transactionId : TransactionId}
    {entries : List (WalEntry V)} {identity : FileIdentity} {found : PendingTransaction}
    (h : inspectLog path transactionId entries identity = .ok (.pending found)) :
    ∃ st intentPin generation, inspectEntries transactionId entries = .ok st ∧
      found = st.pendingTransaction path transactionId intentPin generation entries.length
        identity := by
  unfold inspectLog at h
  obtain ⟨-, h⟩ := of_refusal_eq_ok h
  obtain ⟨st, hst, h⟩ := bind_eq_ok.mp h
  unfold Inspection.finish at h
  split at h
  · cases h
  rename_i intentPin _
  split at h
  · split_ifs at h
    split at h <;> cases h
  · split at h
    · cases h
    · rename_i generation _
      cases h
      exact ⟨st, intentPin, generation, hst, rfl⟩

variable [TransactionWal V ω]

/-- A log that the store reports as pending is the log that recovery rebuilds: the same changes
on the same resources, the same next sequence number, and a change in an unknown state exactly
when the store announces one. -/
theorem discovery_agrees_with_recovery {path : String} {inspectedId transactionId : TransactionId}
    {intentPin : EvaluationIntentPin} {capabilities : CapabilitySnapshot V W} {wal : ω}
    {entries : List (WalEntry V)} {identity : FileIdentity} {found : PendingTransaction}
    {k : TransactionKernel V W ω} (hload : TransactionWal.load wal = .ok entries)
    (hfound : inspectLog path inspectedId entries identity = .ok (.pending found))
    (hrecover : recover transactionId intentPin capabilities wal = .ok k) :
    (∀ changeId : ChangeId, (∃ change ∈ found.changes, change.changeId = changeId) ↔
        (k.changes[changeId]?).isSome) ∧
      (∀ change ∈ found.changes, ∃ record, k.changes[change.changeId]? = some record ∧
        record.resource = change.resource ∧ record.supersedes = change.supersedes ∧
        record.experimentVerified = change.experimentVerified) ∧
      found.nextSequence = k.nextSequence ∧
      (found.hasAppliedUnknown = true ↔ ∃ (changeId : ChangeId) (record : ChangeRecord V),
        k.changes[changeId]? = some record ∧ record.state = .appliedUnknown) := by
  obtain ⟨st, _, _, hinspect, rfl⟩ := inspectLog_pending hfound
  obtain ⟨r, candidate, hreplay, _, rfl⟩ := (recover_ok_iff hload).mp hrecover
  have hagrees := inspectEntries_agree hinspect hreplay
  refine ⟨?_, ?_, hagrees.sequence.symm, ?_⟩
  · intro changeId
    change (∃ change ∈ st.changes.toList.map Prod.snd, change.changeId = changeId) ↔
      (r.recoveredChanges[changeId]?).isSome
    rw [recoveredChanges_getElem?, isSome_map]
    constructor
    · rintro ⟨change, hmem, rfl⟩
      obtain ⟨record, hrecord, _⟩ := hagrees.mem_changes.mp hmem
      rw [hrecord]
      rfl
    · intro hsome
      obtain ⟨record, hrecord⟩ := isSome_iff_exists.mp hsome
      have hkey : record.recoveryChange.changeId = changeId := hagrees.keyed changeId record hrecord
      exact ⟨record.recoveryChange,
        hagrees.mem_changes.mpr ⟨record, by rw [hkey, hrecord], rfl⟩, hkey⟩
  · intro change hmem
    obtain ⟨logged, hlogged, rfl⟩ := hagrees.mem_changes.mp hmem
    change ∃ record, r.recoveredChanges[logged.changeId]? = some record ∧ _
    have hrecovered := recoveredChanges_getElem? r logged.changeId
    rw [show r.changes[logged.changeId]? = some logged from hlogged, map_some] at hrecovered
    obtain ⟨_, hcopy, hidentity, hverified⟩ := recoveredChanges_record hrecovered
    cases hcopy.symm.trans hlogged
    exact ⟨_, hrecovered, congrArg ChangeIdentity.resource hidentity,
      congrArg ChangeIdentity.supersedes hidentity, hverified⟩
  · refine Iff.trans ?_ hagrees.unknown_iff
    simp only [Inspection.pendingTransaction, Bool.or_eq_true]
    rw [List.any_eq_true (l := List.map _ _)]
    simp only [Bool.or_eq_true, decide_eq_true_eq]

end Discovery

section DiscoveryTest

open TestFixture

def unknownFound : Except WalError LogState → Bool
  | .ok (.pending found) => found.hasAppliedUnknown
  | _ => false

/-- A crash between the intent of an apply and its result. -/
theorem discovery_agrees_with_recovery_crashed :
    ∃ (wal : MemoryWal TestFixture.Json) (found : PendingTransaction)
      (k : TransactionKernel TestFixture.Json FakeWorld (MemoryWal TestFixture.Json)),
      inspectLog "transaction.wal" transactionId wal.entries ⟨1, 2⟩ = .ok (.pending found) ∧
      recover transactionId intentPin testSnapshot wal = .ok k ∧ found.hasAppliedUnknown = true ∧
      ∃ (changeId : ChangeId) (record : ChangeRecord TestFixture.Json),
        k.changes[changeId]? = some record ∧ record.state = .appliedUnknown := by
  obtain ⟨s, hrun, hfacts⟩ := (any_eq_true
    (fun s : TestStage =>
      unknownFound
        (inspectLog "transaction.wal" transactionId s.machine.kernel.wal.entries ⟨1, 2⟩) &&
      (recover transactionId intentPin testSnapshot s.machine.kernel.wal).isOk)
    (runTest transactionId [] [.crash] [tryA])).mp (by decide +kernel)
  rw [Bool.and_eq_true] at hfacts
  obtain ⟨hfound, hrecover⟩ := hfacts
  obtain ⟨k, hk⟩ : ∃ k, recover transactionId intentPin testSnapshot s.machine.kernel.wal = .ok k := by
    cases h : recover transactionId intentPin testSnapshot s.machine.kernel.wal with
    | error e =>
      rw [h] at hrecover
      cases hrecover
    | ok k => exact ⟨k, rfl⟩
  unfold unknownFound at hfound
  split at hfound
  · rename_i found hinspect
    exact ⟨_, found, k, hinspect, hk, hfound,
      (discovery_agrees_with_recovery rfl hinspect hk).2.2.2.mp hfound⟩
  · cases hfound

end DiscoveryTest

end ScxAgent
