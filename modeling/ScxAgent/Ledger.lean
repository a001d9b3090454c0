import ScxAgent.RevisionTable
import ScxAgent.LogInspection

/-!
# Ledgers

A ledger is a log that was written by the rules of the kernel: it starts with a start
record, and every later entry is a lawful write in the state that the entries before it
replay to. Recovery and inspection accept every ledger, and each prefix of a ledger is one.
-/

set_option linter.unusedSectionVars false

namespace ScxAgent

open Std StepLogic List

variable {V W : Type}

/-- The entries of an open log after its start record. -/
inductive LogWrite (V : Type) where
  | create (change : ChangeRecord V)
  | record (change : ChangeRecord V)
  | intend (changeId : ChangeId) (operationId : OperationId) (operation : OperationIntentKind)

def LogWrite.event : LogWrite V → WalEvent V
  | .create change => .changeUpsert change
  | .record change => .changeUpsert change
  | .intend changeId operationId operation => .operationIntent changeId operationId operation

def Replay.next (st : Replay V) : Replay V :=
  { st with expectedSequence := st.expectedSequence + 1 }

def Replay.intend (st : Replay V) (changeId : ChangeId) (operationId : OperationId)
    (operation : OperationIntentKind) : Replay V :=
  { st with pendingIntents := st.pendingIntents.insert changeId (operationId, operation) }

def LogWrite.replay (st : Replay V) : LogWrite V → Replay V
  | .create change => st.next.createChange change
  | .record change => st.next.recordChange change
  | .intend changeId operationId operation => st.next.intend changeId operationId operation

/-- The label in the operation identifiers of an intent. -/
def intentLabel : OperationIntentKind → String
  | .apply => "replay"
  | .restore => "restore"
  | .finalize => "finalize"

section Lawful

variable [DecidableEq V] [Serialize V] [Sha256]

structure WellFormed (transactionId : TransactionId) (capabilities : CapabilitySnapshot V W)
    (change : ChangeRecord V) : Prop where
  transaction : change.transactionId = transactionId
  resource : change.resource = change.prepared.resource
  capability : change.capabilityId = change.prepared.capabilityId
  selfless : change.supersedes ≠ some change.changeId
  baseline : contentDigest change.prepared.baseline.value = .ok change.prepared.baseline.digest
  desired : contentDigest change.prepared.desired.value = .ok change.prepared.desired.digest
  distinct : change.prepared.baseline.value ≠ change.prepared.desired.value
  evidence : change.state.verified = true → change.experimentVerified = true
  pinned : ∃ driver, capabilities.mutations[change.capabilityId]? = some driver ∧
    driver.capabilityMeta.provider = change.prepared.provider

/-- The first record of a change. -/
structure Opens (st : Replay V) (change : ChangeRecord V) : Prop where
  fresh : st.changes[change.changeId]? = none
  room : st.changes.size < maxChangesPerTransaction
  state : change.state = .intentDurable
  unverified : change.experimentVerified = false
  supersedes : change.supersedes = st.resourceHeads[change.resource]?
  predecessor : ∀ (previousId : ChangeId) (previous : ChangeRecord V), change.supersedes = some previousId →
    st.changes[previousId]? = some previous → previous.state = .baselineRestored ∧
      previous.experimentVerified = true ∧ SharesOrigin previous.identity change.identity

/-- A later record of a change. -/
structure Continues (st : Replay V) (old change : ChangeRecord V) : Prop where
  known : st.changes[change.changeId]? = some old
  identity : change.identity = old.identity
  kept : old.experimentVerified = true → change.experimentVerified = true
  gained : old.experimentVerified = false → change.experimentVerified = true →
    change.state = .appliedVerified
  settled : change.state.verified = true → st.resourceHeads[change.resource]? = some change.changeId
  unfinished : change.state ≠ .finalized
  resumed : change.state ≠ .intentDurable

inductive Lawful (transactionId : TransactionId) (capabilities : CapabilitySnapshot V W)
    (st : Replay V) : LogWrite V → Prop
  | create {change : ChangeRecord V} (hform : WellFormed transactionId capabilities change)
      (hopens : Opens st change) : Lawful transactionId capabilities st (.create change)
  | record {old change : ChangeRecord V} (hform : WellFormed transactionId capabilities change)
      (hcontinues : Continues st old change) : Lawful transactionId capabilities st (.record change)
  | intend {changeId : ChangeId} {operationId : OperationId} {operation : OperationIntentKind}
      {change : ChangeRecord V} (hknown : st.changes[changeId]? = some change)
      (happlied : operation = .finalize → change.state = .candidateApplied)
      (hlabel : ∃ n, operationId.value = operationText transactionId (intentLabel operation) n) :
      Lawful transactionId capabilities st (.intend changeId operationId operation)

def Replay.started : Replay V := { Replay.initial with sawStart := true, expectedSequence := 1 }

inductive Ledger (transactionId : TransactionId) (intentPin : EvaluationIntentPin)
    (capabilities : CapabilitySnapshot V W) : List (WalEntry V) → Replay V → Prop
  | start : Ledger transactionId intentPin capabilities
      [⟨0, transactionId, .started intentPin capabilities.generation⟩] .started
  | write {log : List (WalEntry V)} {st : Replay V} (w : LogWrite V)
      (hlog : Ledger transactionId intentPin capabilities log st)
      (hlawful : Lawful transactionId capabilities st w) :
      Ledger transactionId intentPin capabilities
        (log ++ [⟨st.expectedSequence, transactionId, w.event⟩]) (w.replay st)

variable {transactionId : TransactionId} {intentPin : EvaluationIntentPin}
  {capabilities : CapabilitySnapshot V W} {st : Replay V} {change old : ChangeRecord V}
  {pending : TreeMap ChangeId (OperationId × OperationIntentKind)} {changeId changeId' : ChangeId}
  {operationId : OperationId} {w : LogWrite V}

/-! ## Recovery accepts lawful writes -/

theorem validateStateDigest_ok {state : MutationState V} {label : String}
    {kind : TransactionErrorKind} (h : contentDigest state.value = .ok state.digest) :
    validateStateDigest state label kind = .ok () := by
  simp [validateStateDigest, h]

theorem WellFormed.recovered (h : WellFormed transactionId capabilities change) :
    validateRecoveredChange change transactionId capabilities = .ok () := by
  obtain ⟨driver, hdriver, hprovider⟩ := h.pinned
  have hmeta := capabilities.registered _ driver hdriver
  have hdistinct : change.prepared.baseline ≠ change.prepared.desired := fun heq =>
    h.distinct (congrArg MutationState.value heq)
  have hevidence : ¬ (change.state.verified = true ∧ ¬ change.experimentVerified = true) :=
    fun hbad => hbad.2 (h.evidence hbad.1)
  unfold validateRecoveredChange
  rw [if_neg (by simp [h.transaction, h.resource, ← h.capability, h.selfless]),
    validateStateDigest_ok h.baseline, validateStateDigest_ok h.desired]
  simp only [bind, Except.bind, if_neg hdistinct, if_neg hevidence, hmeta, hprovider, hdriver]
  simp

theorem Opens.recovered (h : Opens st change) (T : RevisionTable st.changes st.changeOrder
    st.resourceHeads) :
    validateRecoveredRevision change st.changes st.resourceHeads = .ok () := by
  unfold validateRecoveredRevision
  rw [if_neg (not_not.mpr h.state)]
  cases hprevious : change.supersedes with
  | none =>
    rw [← h.supersedes, hprevious]
  | some previousId =>
    have hhead := h.supersedes
    rw [hprevious] at hhead
    obtain ⟨previous, hget, _⟩ := T.head_record hhead.symm
    obtain ⟨hstate, hverified, horigin⟩ := h.predecessor previousId previous hprevious hget
    have hcapability : previous.capabilityId = change.capabilityId := horigin.2.1
    have hprovider : previous.prepared.provider = change.prepared.provider := horigin.2.2
    have hbaseline : previous.prepared.baseline = change.prepared.baseline := horigin.1
    simp [← hhead, hget, hstate, hverified, hcapability, hprovider, hbaseline]

theorem Continues.recovered (h : Continues st old change) :
    validateRecoveredTransition old change = .ok () := by
  obtain ⟨htx, hid, hsupersedes, hcapability, hresource, hprepared⟩ :=
    ChangeIdentity.mk.inj h.identity
  unfold validateRecoveredTransition
  rw [if_neg (by simp [htx, hid, hsupersedes, hcapability, hresource, hprepared]), if_neg, if_neg]
  · rintro ⟨hold, hnew, hstate⟩
    exact hstate (h.gained (by simpa using hold) hnew)
  · rintro ⟨hold, hnew⟩
    exact hnew (h.kept hold)

/-! ## The invariant of a ledger -/

structure LedgerInv (transactionId : TransactionId) (capabilities : CapabilitySnapshot V W)
    (st : Replay V) : Prop where
  table : RevisionTable st.changes st.changeOrder st.resourceHeads
  wellFormed : ∀ (changeId : ChangeId) (change : ChangeRecord V), st.changes[changeId]? = some change →
    WellFormed transactionId capabilities change
  unfinished : ∀ (changeId : ChangeId) (change : ChangeRecord V),
    st.changes[changeId]? = some change → change.state ≠ .finalized
  pendingKnown : ∀ (changeId : ChangeId) (operationId : OperationId)
    (operation : OperationIntentKind),
    st.pendingIntents[changeId]? = some (operationId, operation) →
      (st.changes[changeId]?).isSome ∧
        ∃ n, operationId.value = operationText transactionId (intentLabel operation) n
  unsealed : st.sealed = none
  unauthorized : st.commitAuthorization = none
  sawStart : st.sawStart = true

theorem resolveIntent_getElem? {intent : OperationId × OperationIntentKind}
    (h : (resolveIntent pending changeId operationId)[changeId']? = some intent) :
    pending[changeId']? = some intent := by
  unfold resolveIntent at h
  split at h
  · split_ifs at h
    · rw [getElem?_erase_eq] at h
      split_ifs at h
      exact h
    · exact h
  · exact h

theorem resolveIntent_none (h : pending[changeId']? = none) (changeId : ChangeId)
    (operationId : OperationId) :
    (resolveIntent pending changeId operationId)[changeId']? = none := by
  refine Option.eq_none_iff_forall_ne_some.mpr fun intent hintent => ?_
  rw [resolveIntent_getElem? hintent] at h
  cases h

theorem LedgerInv.started : LedgerInv transactionId capabilities (Replay.started : Replay V) := by
  constructor
  · exact RevisionTable.empty
  all_goals simp [Replay.started, Replay.initial]

section Steps

variable (I : LedgerInv transactionId capabilities st)
include I

/-- A record replaces the one before it, and the intent that it names is no longer pending. -/
theorem LedgerInv.upsert (hform : WellFormed transactionId capabilities change)
    (hunfinished : change.state ≠ .finalized) {resourceHeads : TreeMap ResourceKey ChangeId}
    {changeOrder : List ChangeId}
    (htable : RevisionTable (st.changes.insert change.changeId change) changeOrder resourceHeads) :
    LedgerInv transactionId capabilities
      (Replay.recordChange { st.next with resourceHeads, changeOrder } change) := by
  have hrecords {P : ChangeRecord V → Prop} (hchange : P change)
      (hold : ∀ (changeId : ChangeId) (c : ChangeRecord V), st.changes[changeId]? = some c → P c)
      (changeId : ChangeId) (c : ChangeRecord V)
      (hget : (st.changes.insert change.changeId change)[changeId]? = some c) : P c := by
    rw [getElem?_insert_eq] at hget
    split_ifs at hget
    · cases hget
      exact hchange
    · exact hold changeId c hget
  refine ⟨htable, hrecords hform I.wellFormed, hrecords hunfinished I.unfinished, ?_, I.unsealed,
    I.unauthorized, I.sawStart⟩
  intro changeId operationId operation hpending
  obtain ⟨hsome, hlabel⟩ := I.pendingKnown changeId operationId operation
    (resolveIntent_getElem? hpending)
  refine ⟨?_, hlabel⟩
  change ((st.changes.insert change.changeId change)[changeId]?).isSome
  rw [getElem?_insert_eq]
  split_ifs
  · rfl
  · exact hsome

theorem LedgerInv.create (hform : WellFormed transactionId capabilities change)
    (hopens : Opens st change) :
    LedgerInv transactionId capabilities (st.next.createChange change) := by
  have hstate := hopens.state
  refine I.upsert hform (by simp [hstate]) (I.table.create hopens.fresh hopens.supersedes ?_ ?_ ?_)
  · intro previousId previous hprevious hget
    exact (hopens.predecessor previousId previous hprevious hget).2.2
  · rw [hstate]
    rfl
  · intro previousId previous hprevious hget
    rw [(hopens.predecessor previousId previous hprevious hget).1]
    rfl

theorem LedgerInv.intend {operation : OperationIntentKind}
    (hknown : st.changes[changeId]? = some change)
    (hlabel : ∃ n, operationId.value = operationText transactionId (intentLabel operation) n) :
    LedgerInv transactionId capabilities (st.next.intend changeId operationId operation) := by
  refine ⟨I.table, I.wellFormed, I.unfinished, ?_, I.unsealed, I.unauthorized, I.sawStart⟩
  intro changeId' operationId' operation' hpending
  change (st.pendingIntents.insert changeId (operationId, operation))[changeId']? = _ at hpending
  rw [getElem?_insert_eq] at hpending
  split_ifs at hpending with h
  · cases hpending
    subst h
    exact ⟨Option.isSome_iff_exists.mpr ⟨change, hknown⟩, hlabel⟩
  · exact I.pendingKnown changeId' operationId' operation' hpending

theorem Lawful.inv (h : Lawful transactionId capabilities st w) :
    LedgerInv transactionId capabilities (w.replay st) := by
  cases h with
  | create hform hopens => exact I.create hform hopens
  | record hform hcontinues =>
    exact I.upsert hform hcontinues.unfinished
      (I.table.record hcontinues.known hcontinues.identity hcontinues.settled)
  | intend hknown _ hlabel => exact I.intend hknown hlabel

/-- Recovery replays a lawful write to the state that the write leads to. -/
theorem Lawful.replayed (h : Lawful transactionId capabilities st w) (total : ℕ) :
    replayEntry transactionId intentPin capabilities total st
      ⟨st.expectedSequence, transactionId, w.event⟩ = .ok (w.replay st) := by
  cases h with
  | create hform hopens =>
    have hroom : ¬ st.changes.size ≥ maxChangesPerTransaction := Nat.not_le.mpr hopens.room
    simp only [replayEntry, LogWrite.event, replayUpsert, ne_eq, not_true_eq_false, if_false,
      bind, Except.bind, hform.recovered, hopens.fresh, hroom, hopens.unverified,
      Bool.false_eq_true, hopens.recovered I.table]
    rfl
  | record hform hcontinues =>
    simp only [replayEntry, LogWrite.event, replayUpsert, ne_eq, not_true_eq_false, if_false,
      bind, Except.bind, hform.recovered, hcontinues.known, hcontinues.recovered]
    rfl
  | @intend changeId operationId operation change hknown happlied _ =>
    have hcandidate : ¬ (operation = .finalize ∧
        (change.state ≠ .candidateApplied ∨ ¬ change.experimentVerified = true)) := by
      rintro ⟨hfinalize, hbad⟩
      have hstate := happlied hfinalize
      have hverified := (I.wellFormed _ _ hknown).evidence (by rw [hstate]; rfl)
      rcases hbad with hbad | hbad
      · exact hbad hstate
      · exact hbad hverified
    simp only [replayEntry, LogWrite.event, replayIntent, ne_eq, not_true_eq_false, if_false,
      hknown, if_neg hcandidate]
    rfl

end Steps

/-! ## Ledgers -/

variable {log : List (WalEntry V)}

theorem Ledger.inv (h : Ledger transactionId intentPin capabilities log st) :
    LedgerInv transactionId capabilities st := by
  induction h with
  | start => exact LedgerInv.started
  | write w _ hlawful ih => exact hlawful.inv ih

theorem replayLog_concat (total : ℕ) (entry : WalEntry V) :
    replayLog transactionId intentPin capabilities total (log ++ [entry]) =
      (replayLog transactionId intentPin capabilities total log).bind fun st =>
        replayEntry transactionId intentPin capabilities total st entry := by
  simp only [replayLog, foldlM_append, foldlM_cons, foldlM_nil, bind_pure]
  rfl

section Entries

variable (h : Ledger transactionId intentPin capabilities log st)
include h

/-- Recovery replays every ledger, whatever is yet to come. -/
theorem Ledger.replayed (total : ℕ) :
    replayLog transactionId intentPin capabilities total log = .ok st := by
  induction h with
  | start => simp [replayLog, replayEntry, Replay.initial, Replay.started]
  | write w hlog hlawful ih =>
    rw [replayLog_concat, ih]
    exact hlawful.replayed hlog.inv total

/-- A log is a ledger for one state only. -/
theorem Ledger.unique {st' : Replay V} (h' : Ledger transactionId intentPin capabilities log st') :
    st = st' := by
  have heq := (h.replayed 0).symm.trans (h'.replayed 0)
  exact Except.ok.inj heq

theorem Ledger.open_entries : ∀ entry ∈ log, entry.event.terminal = false := by
  induction h with
  | start => simp [WalEvent.terminal]
  | write w _ _ ih =>
    intro entry hmem
    rcases mem_append.mp hmem with hmem | hmem
    · exact ih entry hmem
    · rw [mem_singleton.mp hmem]
      cases w <;> rfl

/-- A nonempty prefix of a ledger is a ledger. -/
theorem Ledger.truncated {front : List (WalEntry V)} (hfront : front <+: log) (hne : front ≠ []) :
    ∃ st', Ledger transactionId intentPin capabilities front st' := by
  induction h with
  | start =>
    rw [← nil_append [_]] at hfront
    rcases prefix_concat_iff.mp hfront with rfl | hnil
    · exact ⟨_, .start⟩
    · exact absurd (prefix_nil.mp hnil) hne
  | write w hlog hlawful ih =>
    rcases prefix_concat_iff.mp hfront with rfl | hshort
    · exact ⟨_, .write w hlog hlawful⟩
    · exact ih hshort

/-! ## Recovery from a ledger -/

def pendingIn (log : List (WalEntry V)) : TreeMap ChangeId (OperationId × OperationIntentKind) :=
  log.foldl (fun pending entry =>
    match entry.event with
    | .changeUpsert change => resolveIntent pending change.changeId change.lastOperationId
    | .operationIntent changeId operationId operation =>
      pending.insert changeId (operationId, operation)
    | _ => pending) ∅

theorem Ledger.pendingIntents_eq : st.pendingIntents = pendingIn log := by
  induction h with
  | start => rfl
  | write w _ _ ih =>
    cases w <;> simp [pendingIn, LogWrite.event, LogWrite.replay, Replay.createChange,
      Replay.recordChange, Replay.intend, Replay.next, ih]

end Entries

theorem recovered_identity (pending : Option (OperationId × OperationIntentKind))
    (change : ChangeRecord V) :
    (recoverInitialApply (recoverIntent pending change)).identity = change.identity := by
  have hintent : (recoverIntent pending change).identity = change.identity := by
    rcases pending with _ | ⟨_, _ | _⟩ <;> rfl
  unfold recoverInitialApply
  split_ifs <;> exact hintent

theorem recovered_verified (pending : Option (OperationId × OperationIntentKind))
    (change : ChangeRecord V) :
    (recoverInitialApply (recoverIntent pending change)).experimentVerified =
      change.experimentVerified := by
  have hintent : (recoverIntent pending change).experimentVerified = change.experimentVerified := by
    rcases pending with _ | ⟨_, _ | _⟩ <;> rfl
  unfold recoverInitialApply
  split_ifs <;> exact hintent

/-- What the log leaves open about a change: its last effect may or may not have happened. -/
def Uncertain (st : Replay V) (changeId : ChangeId) : Prop :=
  (∃ change, st.changes[changeId]? = some change ∧ change.state = .intentDurable) ∨
    ∃ operationId operation, st.pendingIntents[changeId]? = some (operationId, operation) ∧
      operation ≠ .finalize

/-- Recovery keeps the logged state of a change unless the log leaves it open. -/
theorem recovered_state (hget : st.changes[changeId]? = some change) :
    let recovered := recoverInitialApply (recoverIntent st.pendingIntents[changeId]? change)
    (¬ Uncertain st changeId ∧ recovered.state = change.state) ∨
      (Uncertain st changeId ∧ recovered.state = .appliedUnknown) := by
  intro recovered
  by_cases hinitial : change.state = .intentDurable
  · refine .inr ⟨.inl ⟨change, hget, hinitial⟩, ?_⟩
    rcases hpending : st.pendingIntents[changeId]? with _ | ⟨operationId, operation⟩
    · simp [recovered, hpending, recoverIntent, recoverInitialApply, hinitial]
    · cases operation <;>
        simp [recovered, hpending, recoverIntent, recoverInitialApply, hinitial]
  · have hnot : ¬ ∃ c, st.changes[changeId]? = some c ∧ c.state = .intentDurable := by
      rintro ⟨c, hc, hstate⟩
      rw [hget] at hc
      cases hc
      exact hinitial hstate
    rcases hpending : st.pendingIntents[changeId]? with _ | ⟨operationId, operation⟩
    · refine .inl ⟨?_, by simp [recovered, hpending, recoverIntent, recoverInitialApply, hinitial]⟩
      rintro (h | ⟨_, _, h, _⟩)
      · exact hnot h
      · rw [hpending] at h
        cases h
    · by_cases hfinalize : operation = .finalize
      · subst hfinalize
        refine .inl ⟨?_, by simp [recovered, hpending, recoverIntent, recoverInitialApply, hinitial]⟩
        rintro (h | ⟨_, _, h, hne⟩)
        · exact hnot h
        · rw [hpending] at h
          cases h
          exact hne rfl
      · refine .inr ⟨.inr ⟨operationId, operation, hpending, hfinalize⟩, ?_⟩
        cases operation with
        | finalize => exact absurd rfl hfinalize
        | apply => simp [recovered, hpending, recoverIntent, recoverInitialApply]
        | restore => simp [recovered, hpending, recoverIntent, recoverInitialApply]

theorem recoveredChanges_getElem? (st : Replay V) (changeId : ChangeId) :
    st.recoveredChanges[changeId]? = (st.changes[changeId]?).map fun change =>
      recoverInitialApply (recoverIntent st.pendingIntents[changeId]? change) := by
  rw [Replay.recoveredChanges, TreeMap.getElem?_map]

/-- Recovery may mark a record as unknown, which needs no head. -/
theorem RevisionTable.recovered (h : RevisionTable st.changes st.changeOrder st.resourceHeads) :
    RevisionTable st.recoveredChanges st.changeOrder st.resourceHeads := by
  refine h.reidentify ?_ TreeMap.size_map ?_
  · intro changeId
    rw [recoveredChanges_getElem?, Option.map_map]
    congr 1
    funext change
    rw [Function.comp, recovered_identity]
  · intro changeId recovered hget hverified
    rw [recoveredChanges_getElem?, Option.map_eq_some_iff] at hget
    obtain ⟨change, hchange, rfl⟩ := hget
    have hresource := congrArg ChangeIdentity.resource
      (recovered_identity st.pendingIntents[changeId]? change)
    rcases recovered_state hchange with ⟨_, hstate⟩ | ⟨_, hstate⟩
    · rw [hstate] at hverified
      exact (congrArg (fun r => st.resourceHeads[r]?) hresource).trans
        (h.settled changeId change hchange hverified)
    · rw [hstate] at hverified
      cases hverified

/-- Recovery turns the replay of a ledger into a kernel. -/
theorem LedgerInv.finish_ok (I : LedgerInv transactionId capabilities st) :
    ∃ candidate, st.finish = .ok candidate := by
  have hsuperseded : st.candidateIds.find? st.superseded = none := by
    rw [find?_eq_none]
    intro changeId hmem
    have happlied := (mem_filter.mp hmem).2
    cases hget : st.recoveredChanges[changeId]? with
    | none => simp [Replay.superseded, hget]
    | some change =>
      simp only [hget, Bool.and_eq_true, decide_eq_true_eq] at happlied
      have hhead := I.table.recovered.settled changeId change hget (by rw [happlied.1]; rfl)
      simp [Replay.superseded, hget, hhead]
  have hactive : ∃ candidate, st.activeCandidate = .ok candidate := by
    unfold Replay.activeCandidate
    by_cases hempty : st.candidateIds = []
    · exact ⟨none, if_pos hempty⟩
    · obtain ⟨candidate, hnew⟩ := Candidate.new_ok hempty (I.table.nodup.filter _)
      exact ⟨some candidate, by rw [if_neg hempty, hnew]⟩
  obtain ⟨candidate, hcandidate⟩ := hactive
  refine ⟨candidate, ?_⟩
  unfold Replay.finish
  rw [if_neg (by simp [I.sawStart]), if_neg (by simp [I.unsealed]), hsuperseded]
  exact hcandidate

end Lawful

end ScxAgent
