import ScxAgent.ExceptRules
import ScxAgent.Ledger

/-!
# Chronicles

A chronicle is everything a kernel can leave behind in its log: a ledger, or a ledger closed by
one terminal entry. Recovery never fails on a ledger. On a closed one it may refuse, but
the kernel that it rebuilds otherwise is sealed and keeps the revisions of the log.
-/

set_option linter.unusedSectionVars false

namespace ScxAgent

open Std StepLogic ExceptRules List Option ChangeRecord

variable {V W ω : Type}

/-! ## Terminal records -/

section Records

theorem insertChanges_getElem? {p : ChangeId → ChangeRecord V → Prop}
    (terminalChanges : List (ChangeRecord V))
    (hterminal : ∀ terminal ∈ terminalChanges, p terminal.changeId terminal) :
    ∀ {changes : TreeMap ChangeId (ChangeRecord V)},
      (∀ (changeId : ChangeId) change, changes[changeId]? = some change → p changeId change) →
      ∀ (changeId : ChangeId) change,
        (insertChanges changes terminalChanges)[changeId]? = some change → p changeId change := by
  induction terminalChanges with
  | nil => exact fun h => h
  | cons terminal rest ih =>
    intro changes h
    refine ih (fun other hmem => hterminal other (mem_cons_of_mem _ hmem)) ?_
    intro changeId change hget
    rw [getElem?_insert_eq] at hget
    split_ifs at hget with heq
    · cases hget
      subst heq
      exact hterminal terminal mem_cons_self
    · exact h changeId change hget

/-- Records that replace others of the same identity keep all identities. -/
theorem insertChanges_identity (terminalChanges : List (ChangeRecord V)) :
    ∀ {changes : TreeMap ChangeId (ChangeRecord V)},
      (∀ terminal ∈ terminalChanges, (changes[terminal.changeId]?).map identity =
        some terminal.identity) →
      (∀ changeId : ChangeId,
        ((insertChanges changes terminalChanges)[changeId]?).map identity =
          (changes[changeId]?).map identity) ∧
      (insertChanges changes terminalChanges).size = changes.size := by
  induction terminalChanges with
  | nil => exact fun _ => ⟨fun _ => rfl, rfl⟩
  | cons terminal rest ih =>
    intro changes h
    have hfirst := h terminal mem_cons_self
    have hsame : ∀ changeId : ChangeId,
        ((changes.insert terminal.changeId terminal)[changeId]?).map identity =
          (changes[changeId]?).map identity := by
      intro changeId
      rw [getElem?_insert_eq]
      split_ifs with heq
      · rw [← heq, hfirst, map_some]
      · rfl
    have hrest := @ih (changes.insert terminal.changeId terminal) (fun other hmem => by
      rw [hsame]
      exact h other (mem_cons_of_mem _ hmem))
    obtain ⟨old, hold, _⟩ := map_eq_some_iff.mp hfirst
    refine ⟨fun changeId => (hrest.1 changeId).trans (hsame changeId), ?_⟩
    exact hrest.2.trans (size_insert_of_some hold terminal)

/-- The record of a change in a commit seal. -/
structure Terminates (st : Replay V) (terminal : ChangeRecord V) : Prop where
  logged : ∃ logged, st.changes[terminal.changeId]? = some logged ∧
    terminal.identity = logged.identity ∧
    terminal.experimentVerified = logged.experimentVerified
  state : terminal.state = .finalized ∧
      st.resourceHeads[terminal.resource]? = some terminal.changeId ∨
    terminal.state = .rolledBack

variable {st : Replay V} {changes : TreeMap ChangeId (ChangeRecord V)}
  {terminalChanges : List (ChangeRecord V)}

/-- A table of revisions stays one when a commit replaces its records by terminal ones. -/
theorem RevisionTable.terminated (T : RevisionTable changes st.changeOrder st.resourceHeads)
    (hidentity : ∀ changeId : ChangeId, (changes[changeId]?).map identity =
      (st.changes[changeId]?).map identity)
    (hterminal : ∀ terminal ∈ terminalChanges, Terminates st terminal) :
    RevisionTable (insertChanges changes terminalChanges) st.changeOrder st.resourceHeads := by
  have hknown : ∀ terminal ∈ terminalChanges,
      (changes[terminal.changeId]?).map identity = some terminal.identity := by
    intro terminal hmem
    obtain ⟨logged, hlogged, hsame, _⟩ := (hterminal terminal hmem).logged
    rw [hidentity, hlogged, map_some, hsame]
  obtain ⟨hkept, hsize⟩ := insertChanges_identity terminalChanges hknown
  refine T.reidentify hkept hsize ?_
  refine insertChanges_getElem? terminalChanges ?_ T.settled
  intro terminal hmem hverified
  rcases (hterminal terminal hmem).state with ⟨_, hhead⟩ | hstate
  · exact hhead
  · rw [hstate] at hverified
    cases hverified

end Records

/-! ## Entries that a kernel may append next -/

variable {authorization : CommitAuthorization} {terminalChanges : List (ChangeRecord V)}
  {change : ChangeRecord V} {after : Replay V}

section Chronicles

variable [DecidableEq V] [Serialize V] [Sha256]

inductive Due (transactionId : TransactionId) (capabilities : CapabilitySnapshot V W)
    (st : Replay V) : WalEvent V → Prop
  | write (w : LogWrite V) (hlawful : Lawful transactionId capabilities st w) :
      Due transactionId capabilities st w.event
  | roll : Due transactionId capabilities st (.sealed .rolledBack)
  | commit (authorization : CommitAuthorization) (terminalChanges : List (ChangeRecord V))
      (hterminal : ∀ terminal ∈ terminalChanges, Terminates st terminal) :
      Due transactionId capabilities st (.commitSealed authorization terminalChanges)

theorem Due.terminates {transactionId : TransactionId} {capabilities : CapabilitySnapshot V W}
    {st : Replay V}
    (h : Due transactionId capabilities st (.commitSealed authorization terminalChanges)) :
    ∀ terminal ∈ terminalChanges, Terminates st terminal := by
  generalize hevent : WalEvent.commitSealed authorization terminalChanges = event at h
  cases h with
  | write w hlawful => cases w <;> cases hevent
  | roll => cases hevent
  | commit _ _ hterminal =>
    cases hevent
    exact hterminal

inductive Chronicle (transactionId : TransactionId) (intentPin : EvaluationIntentPin)
    (capabilities : CapabilitySnapshot V W) : List (WalEntry V) → Prop
  | ledger {log : List (WalEntry V)} {st : Replay V}
      (hlog : Ledger transactionId intentPin capabilities log st) :
      Chronicle transactionId intentPin capabilities log
  | closed {log : List (WalEntry V)} {st : Replay V} {event : WalEvent V}
      (hlog : Ledger transactionId intentPin capabilities log st)
      (hdue : Due transactionId capabilities st event) (hterminal : event.terminal = true) :
      Chronicle transactionId intentPin capabilities
        (log ++ [⟨st.expectedSequence, transactionId, event⟩])

variable {transactionId : TransactionId} {intentPin : EvaluationIntentPin}
  {capabilities : CapabilitySnapshot V W} {st : Replay V} {log entries : List (WalEntry V)}
  {event : WalEvent V}

theorem Ledger.append_due (h : Ledger transactionId intentPin capabilities log st)
    (hdue : Due transactionId capabilities st event) :
    Chronicle transactionId intentPin capabilities
      (log ++ [⟨st.expectedSequence, transactionId, event⟩]) := by
  cases hdue with
  | write w hlawful => exact .ledger (.write w h hlawful)
  | roll => exact .closed h .roll rfl
  | commit authorization terminalChanges hterminal =>
    exact .closed h (.commit authorization terminalChanges hterminal) rfl

/-- What a crash leaves of a chronicle is a chronicle. -/
theorem Chronicle.truncated (h : Chronicle transactionId intentPin capabilities log)
    (hshorter : entries <+: log) (hne : entries ≠ []) :
    Chronicle transactionId intentPin capabilities entries := by
  cases h with
  | ledger hlog =>
    obtain ⟨st', hfront⟩ := hlog.truncated hshorter hne
    exact .ledger hfront
  | closed hlog hdue hterminal =>
    rcases prefix_concat_iff.mp hshorter with rfl | hshort
    · exact .closed hlog hdue hterminal
    · obtain ⟨st', hfront⟩ := hlog.truncated hshort hne
      exact .ledger hfront

/-! ## Logs that recovery refuses -/

/-- No recovery gets through the log, whatever else is appended to it. -/
def Broken (transactionId : TransactionId) (intentPin : EvaluationIntentPin)
    (capabilities : CapabilitySnapshot V W) (entries : List (WalEntry V)) : Prop :=
  ∃ front rest, entries = front ++ rest ∧
    ∀ total, ∃ e, replayLog transactionId intentPin capabilities total front = .error e

theorem Broken.append (h : Broken transactionId intentPin capabilities entries)
    (entry : WalEntry V) : Broken transactionId intentPin capabilities (entries ++ [entry]) := by
  obtain ⟨front, rest, rfl, hfails⟩ := h
  exact ⟨front, rest ++ [entry], append_assoc front rest [entry], hfails⟩

theorem Broken.replayLog_error (h : Broken transactionId intentPin capabilities entries)
    (total : ℕ) : ∃ e, replayLog transactionId intentPin capabilities total entries = .error e := by
  obtain ⟨front, rest, rfl, hfails⟩ := h
  obtain ⟨e, he⟩ := hfails total
  refine ⟨e, ?_⟩
  unfold replayLog at he ⊢
  rw [foldlM_append, he]
  rfl

theorem replayUpsert_ok (h : replayUpsert transactionId capabilities st change = .ok after) :
    after = st.recordChange change ∨ after = st.createChange change := by
  unfold replayUpsert at h
  obtain ⟨_, -, h⟩ := bind_eq_ok.mp h
  split at h
  · obtain ⟨_, -, h⟩ := bind_eq_ok.mp h
    cases h
    exact .inl rfl
  · obtain ⟨-, h⟩ := of_refusal_eq_ok h
    obtain ⟨-, h⟩ := of_refusal_eq_ok h
    obtain ⟨_, -, h⟩ := bind_eq_ok.mp h
    cases h
    exact .inr rfl

theorem replayCommit_ok
    (h : replayCommit transactionId intentPin capabilities st authorization terminalChanges = .ok after) :
    st.pendingIntents.isEmpty = true ∧ after = { st with
      sealed := some .committed
      commitAuthorization := some authorization
      changes := insertChanges st.changes terminalChanges } := by
  unfold replayCommit at h
  obtain ⟨hcomplete, h⟩ := of_refusal_eq_ok h
  obtain ⟨_, -, h⟩ := bind_eq_ok.mp h
  split at h
  · cases h
  · obtain ⟨-, h⟩ := of_refusal_eq_ok h
    obtain ⟨-, h⟩ := of_refusal_eq_ok h
    cases h
    rw [not_or, not_not] at hcomplete
    exact ⟨hcomplete.1, rfl⟩

theorem replayEntry_sequence {total : ℕ} {before : Replay V} {entry : WalEntry V}
    (h : replayEntry transactionId intentPin capabilities total before entry = .ok after) :
    after.expectedSequence = before.expectedSequence + 1 := by
  unfold replayEntry at h
  obtain ⟨-, h⟩ := of_refusal_eq_ok h
  obtain ⟨-, h⟩ := of_refusal_eq_ok h
  cases hevent : entry.event with
  | started storedIntentPin generation =>
    simp only [hevent] at h
    split_ifs at h
    cases h
    rfl
  | changeUpsert change =>
    simp only [hevent] at h
    obtain rfl | rfl := replayUpsert_ok h
    · rfl
    · rfl
  | operationIntent changeId operationId operation =>
    simp only [hevent, replayIntent] at h
    split at h
    · cases h
    · split_ifs at h
      cases h
      rfl
  | sealed outcome =>
    simp only [hevent] at h
    split_ifs at h
    cases h
    rfl
  | commitSealed authorization terminalChanges =>
    simp only [hevent] at h
    split at h
    · cases h
    · obtain ⟨_, rfl⟩ := replayCommit_ok h
      rfl

/-- An entry that was not acknowledged and one that took its sequence number cannot both stand
in a log that recovery reads. -/
theorem Ledger.broken (h : Ledger transactionId intentPin capabilities log st)
    (entry next : WalEntry V) (hsequence : next.sequence = st.expectedSequence) :
    Broken transactionId intentPin capabilities (log ++ [entry] ++ [next]) := by
  refine ⟨log ++ [entry] ++ [next], [], (append_nil _).symm, ?_⟩
  intro total
  rw [replayLog_concat, replayLog_concat, h.replayed total]
  cases hentry : replayEntry transactionId intentPin capabilities total st entry with
  | error e => exact ⟨e, by simp only [Except.bind, hentry]⟩
  | ok st' =>
    have hnext := replayEntry_sequence hentry
    simp only [Except.bind, hentry]
    unfold replayEntry
    by_cases htx : next.transactionId = transactionId
    · rw [if_neg (not_not.mpr htx), if_pos (by omega)]
      exact ⟨_, rfl⟩
    · rw [if_pos htx]
      exact ⟨_, rfl⟩

/-! ## The kernels that recovery rebuilds -/

variable [TransactionWal V ω] {wal : ω} {k : TransactionKernel V W ω}

def Replay.kernel (st : Replay V) (transactionId : TransactionId) (intentPin : EvaluationIntentPin)
    (capabilities : CapabilitySnapshot V W) (wal : ω) (activeCandidate : Option Candidate) :
    TransactionKernel V W ω :=
  { transactionId, intentPin, capabilities, wal, activeCandidate
    changes := st.recoveredChanges
    resourceHeads := st.resourceHeads
    changeOrder := st.changeOrder
    nextSequence := st.expectedSequence
    operationCounter := st.expectedSequence
    commitAuthorization := st.commitAuthorization
    sealed := st.sealed }

theorem recover_ok_iff (hload : TransactionWal.load wal = .ok entries) :
    recover transactionId intentPin capabilities wal = .ok k ↔
      ∃ st candidate, replayLog transactionId intentPin capabilities entries.length entries = .ok st ∧
        st.finish = .ok candidate ∧
        k = st.kernel transactionId intentPin capabilities wal candidate := by
  unfold recover
  rw [hload]
  dsimp only
  rw [bind_eq_ok]
  apply exists_congr
  intro st
  rw [bind_eq_ok]
  constructor
  · rintro ⟨hreplay, candidate, hfinish, hkernel⟩
    cases hkernel
    exact ⟨candidate, hreplay, hfinish, rfl⟩
  · rintro ⟨candidate, hreplay, hfinish, rfl⟩
    exact ⟨hreplay, candidate, hfinish, rfl⟩

/-- Recovery rebuilds a kernel from every ledger. -/
theorem Ledger.recover_eq (h : Ledger transactionId intentPin capabilities log st)
    (hload : TransactionWal.load wal = .ok log) :
    ∃ candidate, st.finish = .ok candidate ∧
      recover transactionId intentPin capabilities wal =
        .ok (st.kernel transactionId intentPin capabilities wal candidate) := by
  obtain ⟨candidate, hfinish⟩ := h.inv.finish_ok
  exact ⟨candidate, hfinish,
    (recover_ok_iff hload).mpr ⟨st, candidate, h.replayed _, hfinish, rfl⟩⟩

/-- A kernel that recovery rebuilt from a closed chronicle. -/
structure Reopened (transactionId : TransactionId) (intentPin : EvaluationIntentPin)
    (capabilities : CapabilitySnapshot V W) (wal : ω) (st : Replay V)
    (k : TransactionKernel V W ω) : Prop where
  transactionId : k.transactionId = transactionId
  intentPin : k.intentPin = intentPin
  capabilities : k.capabilities = capabilities
  wal : k.wal = wal
  order : k.changeOrder = st.changeOrder
  heads : k.resourceHeads = st.resourceHeads
  sealed : k.sealed ≠ none
  table : RevisionTable k.changes k.changeOrder k.resourceHeads
  records : ∀ (changeId : ChangeId) change, k.changes[changeId]? = some change →
    ∃ logged, st.changes[changeId]? = some logged ∧ change.identity = logged.identity ∧
      change.experimentVerified = logged.experimentVerified

theorem recoveredChanges_record {changeId : ChangeId}
    (hget : st.recoveredChanges[changeId]? = some change) :
    ∃ logged, st.changes[changeId]? = some logged ∧ change.identity = logged.identity ∧
      change.experimentVerified = logged.experimentVerified := by
  rw [recoveredChanges_getElem?, map_eq_some_iff] at hget
  obtain ⟨logged, hlogged, rfl⟩ := hget
  exact ⟨logged, hlogged, recovered_identity _ logged, recovered_verified _ logged⟩

theorem Ledger.reopened (h : Ledger transactionId intentPin capabilities log st)
    (hdue : Due transactionId capabilities st event) (hterminal : event.terminal = true)
    (hload : TransactionWal.load wal =
      .ok (log ++ [⟨st.expectedSequence, transactionId, event⟩]))
    (hrecover : recover transactionId intentPin capabilities wal = .ok k) :
    Reopened transactionId intentPin capabilities wal st k := by
  obtain ⟨after, candidate, hreplay, _, rfl⟩ := (recover_ok_iff hload).mp hrecover
  rw [replayLog_concat, h.replayed] at hreplay
  simp only [Except.bind, replayEntry, ne_eq, not_true_eq_false, if_false] at hreplay
  cases hdue with
  | write w hlawful => cases w <;> cases hterminal
  | roll =>
    dsimp only at hreplay
    split_ifs at hreplay
    cases hreplay
    exact ⟨rfl, rfl, rfl, rfl, rfl, rfl, some_ne_none _, h.inv.table.recovered,
      fun changeId change (hget : st.recoveredChanges[changeId]? = some change) =>
        recoveredChanges_record hget⟩
  | commit authorization terminalChanges hterminates =>
    dsimp only at hreplay
    split at hreplay
    · cases hreplay
    obtain ⟨hpending, rfl⟩ := replayCommit_ok hreplay
    have hrecords : ∀ (changeId : ChangeId) change,
        (insertChanges st.changes terminalChanges)[changeId]? = some change →
        ∃ logged, st.changes[changeId]? = some logged ∧ change.identity = logged.identity ∧
          change.experimentVerified = logged.experimentVerified :=
      insertChanges_getElem? terminalChanges
        (fun terminal hmem => (hterminates terminal hmem).logged)
        (fun changeId change hget => ⟨change, hget, rfl, rfl⟩)
    have htable := h.inv.table.terminated (fun _ => rfl) hterminates
    refine ⟨rfl, rfl, rfl, rfl, rfl, rfl, some_ne_none _, htable.recovered, ?_⟩
    intro changeId change hget
    obtain ⟨terminal, hget', hsame, hflag⟩ := recoveredChanges_record hget
    obtain ⟨logged, hlogged, hsame', hflag'⟩ := hrecords changeId terminal hget'
    exact ⟨logged, hlogged, hsame.trans hsame', hflag.trans hflag'⟩

end Chronicles

end ScxAgent
