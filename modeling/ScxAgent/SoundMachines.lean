import ScxAgent.Chronicle
import ScxAgent.ExperimentRules

/-!
# Sound machines

A machine is `Sound` if its memory tracks a ledger, or is sealed above a closed one, and if the
log that it has stored is the acknowledged one, up to one entry whose append was not
acknowledged. Every step of a public call keeps a machine sound, whatever the drivers answer.
-/

set_option linter.unusedSectionVars false

namespace ScxAgent

open Std StepLogic List

variable {V W ω : Type} [DecidableEq V] [Serialize V] [Sha256] [TransactionWal V ω]

/-! ## Public calls -/

inductive PublicCall (V : Type) [Sha256] where
  | experiment (changeId : ChangeId) (capabilityId : CapabilityId) (arguments : V)
  | restoreBaseline
  | replayCandidate (candidate : Candidate)
  | finalizeCandidate (candidate : Candidate) (authorization : CommitAuthorization)
  | rollbackAll

def PublicCall.invoke [Inhabited V] : PublicCall V → KernelM V W ω (List (ChangeRecord V))
  | .experiment changeId capabilityId arguments => do
    return [← ScxAgent.experiment changeId capabilityId arguments]
  | .restoreBaseline => ScxAgent.restoreBaseline
  | .replayCandidate candidate => ScxAgent.replayCandidate candidate
  | .finalizeCandidate candidate authorization =>
    ScxAgent.finalizeCandidate candidate authorization
  | .rollbackAll => ScxAgent.rollbackAll

/-- What a call issued on `m` may do. -/
def PublicCall.permit (call : PublicCall V) (m : Machine V W ω) : Permit V W ω where
  promote := match call with
    | .replayCandidate _ => True
    | _ => False
  focus candidate := match call with
    | .restoreBaseline | .rollbackAll => candidate = none
    | .replayCandidate replayed => candidate = some replayed
    | _ => False
  commit u authorization candidate :=
    call = .finalizeCandidate candidate authorization ∧
      CommitFacts candidate authorization m u

/-- How a call issued on `m` leaves the machine when it returns. -/
def PublicCall.Done (call : PublicCall V) (m t : Machine V W ω) : Prop :=
  match call with
  | .experiment _ _ _ => (∃ st, Live t st) ∧ ∀ other : ChangeId,
      (pendingIn m.log)[other]? = none → (pendingIn t.log)[other]? = none
  | .restoreBaseline => ∃ u, RestoreLoop .baselineRestored m [] u ∧ t = u.update (·.focus none)
  | .replayCandidate candidate => Replayed candidate m t
  | .finalizeCandidate candidate authorization => ∃ u, Committed candidate authorization m u t
  | .rollbackAll => ∃ u, RolledBack m u t

/-- How a call issued on `m` leaves the machine when it fails. -/
def PublicCall.Failed (call : PublicCall V) (m t : Machine V W ω) : Prop :=
  match call with
  | .restoreBaseline | .rollbackAll => RestoreFailure m t
  | .replayCandidate candidate => ReplayFailure candidate m t
  | _ => ∃ st, Live t st

variable [Inhabited V] {m t u : Machine V W ω} {st : Replay V} {call : PublicCall V}
  {P : Permit V W ω} {trace : List (Event V W ω)}

theorem PublicCall.invoke_follows (call : PublicCall V) (hlive : Live m st) :
    Follows (kernelSystem (call.permit m)) call.invoke m (fun _ t => call.Done m t)
      (fun _ t => call.Failed m t) := by
  cases call with
  | experiment changeId capabilityId arguments =>
    refine Follows.bind (experiment_follows hlive) ?_
    exact fun _ t _ h => Follows.pure h
  | restoreBaseline => exact restoreBaseline_follows hlive rfl
  | replayCandidate candidate => exact replayCandidate_follows hlive True.intro rfl
  | finalizeCandidate candidate authorization =>
    exact finalizeCandidate_follows hlive fun u hfacts => ⟨rfl, hfacts⟩
  | rollbackAll => exact rollbackAll_follows hlive rfl

/-- A sealed kernel refuses every call and does nothing. -/
theorem PublicCall.invoke_sealed (call : PublicCall V) (h : m.kernel.sealed ≠ none) :
    ∃ e, call.invoke m = (.error (.error e), m) := by
  obtain ⟨outcome, hsealed⟩ := Option.ne_none_iff_exists'.mp h
  have hopen : ∃ e, (ensureOpen : KernelM V W ω Unit) m = (.error (.error e), m) := by
    refine ⟨⟨.sealed, s!"transaction is already sealed as {outcome.debug}"⟩, ?_⟩
    refine (bind_ok (kernel_run m)).trans ?_
    rw [hsealed]
    rfl
  obtain ⟨e, hopen⟩ := hopen
  refine ⟨e, ?_⟩
  cases call with
  | experiment changeId capabilityId arguments => exact bind_error (bind_error hopen)
  | restoreBaseline => exact bind_error hopen
  | replayCandidate candidate => exact bind_error hopen
  | finalizeCandidate candidate authorization => exact bind_error hopen
  | rollbackAll => exact bind_error hopen

/-! ## Evidence of experiments -/

/-- The records that an entry brings to the log. -/
def WalEvent.records : WalEvent V → List (ChangeRecord V)
  | .changeUpsert change => [change]
  | .commitSealed _ terminalChanges => terminalChanges
  | _ => []

/-- A record claims a verified experiment only if the trace shows one. -/
def Evident (trace : List (Event V W ω)) (event : WalEvent V) : Prop :=
  ∀ change ∈ event.records, change.experimentVerified = true → FirstApplied trace change.changeId

theorem Evident.append (h : Evident trace event) (more : List (Event V W ω)) :
    Evident (trace ++ more) event :=
  fun change hmem hverified => (h change hmem hverified).append more

def Recorded (log : List (WalEntry V)) (change : ChangeRecord V) : Prop :=
  ∃ entry ∈ log, entry.event = .changeUpsert change

variable {change : ChangeRecord V} {log : List (WalEntry V)} {changeId : ChangeId}

theorem Recorded.mono {log' : List (WalEntry V)} (h : Recorded log change) (hsubset : log ⊆ log') :
    Recorded log' change := by
  obtain ⟨entry, hmem, hevent⟩ := h
  exact ⟨entry, hsubset hmem, hevent⟩

/-- The state of a ledger holds records of its log. -/
theorem Ledger.recorded {transactionId : TransactionId} {intentPin : EvaluationIntentPin}
    {capabilities : CapabilitySnapshot V W} (h : Ledger transactionId intentPin capabilities log st)
    (hget : st.changes[changeId]? = some change) : Recorded log change := by
  induction h with
  | start => simp [Replay.started, Replay.initial] at hget
  | @write log st w hlog hlawful ih =>
    have hkept : st.changes[changeId]? = some change →
        Recorded (log ++ [⟨st.expectedSequence, transactionId, w.event⟩]) change :=
      fun hold => (ih hold).mono (subset_append_left _ _)
    have hnew : ∀ record : ChangeRecord V, w.event = .changeUpsert record →
        (st.changes.insert record.changeId record)[changeId]? = some change →
        Recorded (log ++ [⟨st.expectedSequence, transactionId, w.event⟩]) change := by
      intro record hevent hinserted
      rw [getElem?_insert_eq] at hinserted
      split_ifs at hinserted with heq
      · cases hinserted
        exact ⟨_, mem_append_right _ (mem_singleton.mpr rfl), hevent⟩
      · exact hkept hinserted
    cases w with
    | create record => exact hnew record rfl hget
    | record record => exact hnew record rfl hget
    | intend changeId' operationId operation => exact hkept hget

/-! ## What a machine has stored -/

/-- The kernel is sealed above a closed ledger. -/
structure Closed (m : Machine V W ω) (front : List (WalEntry V)) (st : Replay V)
    (event : WalEvent V) : Prop where
  ledger : Ledger m.kernel.transactionId m.kernel.intentPin m.kernel.capabilities front st
  due : Due m.kernel.transactionId m.kernel.capabilities st event
  terminal : event.terminal = true
  log : m.log = front ++ [⟨st.expectedSequence, m.kernel.transactionId, event⟩]
  sealed : m.kernel.sealed ≠ none
  order : m.kernel.changeOrder = st.changeOrder
  heads : m.kernel.resourceHeads = st.resourceHeads
  table : RevisionTable m.kernel.changes m.kernel.changeOrder m.kernel.resourceHeads
  records : ∀ (changeId : ChangeId) change, m.kernel.changes[changeId]? = some change →
    ∃ logged, st.changes[changeId]? = some logged ∧ change.identity = logged.identity ∧
      change.experimentVerified = logged.experimentVerified

/-- What may be found in the log of a machine. -/
inductive Stored (m : Machine V W ω) : List (WalEntry V) → Prop
  | acknowledged : Stored m m.log
  | unanswered (st : Replay V) (event : WalEvent V) (hlive : Live m st)
      (hdue : Due m.kernel.transactionId m.kernel.capabilities st event)
      (hevident : Evident m.trace event) : Stored m (m.log ++ [m.entry event])
  | broken (entries : List (WalEntry V))
      (hbroken : Broken m.kernel.transactionId m.kernel.intentPin m.kernel.capabilities entries)
      (hsubset : m.log ⊆ entries) : Stored m entries

structure Sound (m : Machine V W ω) : Prop where
  status : (∃ st, Live m st) ∨ ∃ front st event, Closed m front st event
  stored : ∀ entries, TransactionWal.load m.kernel.wal = .ok entries → Stored m entries
  evident : ∀ entry ∈ m.log, Evident m.trace entry.event

/-- A log keeps what it acknowledges. An append that is not acknowledged may have stored its
entry or not, and it may leave a log that cannot be read any more. -/
structure AppendOnly (ω : Type) {V : Type} [TransactionWal V ω] : Prop where
  loaded : ∀ (wal wal' : ω) (entry : WalEntry V) reply entries',
    putEntry wal entry = (reply, wal') → TransactionWal.load wal' = .ok entries' →
    ∃ entries, TransactionWal.load wal = .ok entries ∧
      (entries' = entries ++ [entry] ∨ reply ≠ .answered (.ok ()) ∧ entries' = entries)

theorem Sound.log_subset (h : Sound m) {entries : List (WalEntry V)}
    (hload : TransactionWal.load m.kernel.wal = .ok entries) : m.log ⊆ entries := by
  cases h.stored entries hload with
  | acknowledged => exact Subset.refl _
  | unanswered st event hlive hdue hevident => exact subset_append_left _ _
  | broken _ _ hsubset => exact hsubset

theorem Sound.table (h : Sound m) :
    RevisionTable m.kernel.changes m.kernel.changeOrder m.kernel.resourceHeads := by
  rcases h.status with ⟨st, hlive⟩ | ⟨front, st, event, hclosed⟩
  · exact hlive.table
  · exact hclosed.table

theorem Sound.chronicle (h : Sound m) :
    Chronicle m.kernel.transactionId m.kernel.intentPin m.kernel.capabilities m.log := by
  rcases h.status with ⟨st, hlive⟩ | ⟨front, st, event, hclosed⟩
  · exact .ledger hlive.ledger
  · rw [hclosed.log]
    exact .closed hclosed.ledger hclosed.due hclosed.terminal

/-- A record in memory carries the flag of a record of the same change in the log. -/
theorem Sound.recorded (h : Sound m) (hget : m.kernel.changes[changeId]? = some change) :
    ∃ logged, Recorded m.log logged ∧ logged.changeId = changeId ∧
      change.experimentVerified = logged.experimentVerified := by
  have hkey := h.table.keyed changeId change hget
  have hid : ∀ logged : ChangeRecord V, change.identity = logged.identity →
      logged.changeId = changeId := by
    intro logged hsame
    rw [← hkey]
    exact (congrArg ChangeIdentity.changeId hsame).symm
  rcases h.status with ⟨st, hlive⟩ | ⟨front, st, event, hclosed⟩
  · obtain ⟨logged, hlogged, hsame, hflag, _⟩ := hlive.tracks.logged hget
    exact ⟨logged, hlive.ledger.recorded hlogged, hid logged hsame, hflag⟩
  · obtain ⟨logged, hlogged, hsame, hflag⟩ := hclosed.records changeId change hget
    refine ⟨logged, (hclosed.ledger.recorded hlogged).mono ?_, hid logged hsame, hflag⟩
    rw [hclosed.log]
    exact subset_append_left _ _

theorem Recorded.firstApplied (h : Recorded log change)
    (hevident : ∀ entry ∈ log, Evident trace entry.event)
    (hverified : change.experimentVerified = true) : FirstApplied trace change.changeId := by
  obtain ⟨entry, hmem, hevent⟩ := h
  refine hevident entry hmem change ?_ hverified
  rw [hevent]
  exact mem_singleton.mpr rfl

/-- A flag in memory rests on evidence in the trace. -/
theorem Sound.firstApplied (h : Sound m) (hget : m.kernel.changes[changeId]? = some change)
    (hverified : change.experimentVerified = true) : FirstApplied m.trace changeId := by
  obtain ⟨logged, hrecorded, rfl, hflag⟩ := h.recorded hget
  exact hrecorded.firstApplied h.evident (hflag.symm.trans hverified)

/-! ## Steps of a sound machine -/

variable {event : WalEvent V} {reply : Reply WalError Unit} {wal : ω}

theorem Attempt.due (h : Attempt P m event) :
    ∃ st, Live m st ∧ Due m.kernel.transactionId m.kernel.capabilities st event := by
  cases h with
  | write st w hlive hlawful happlied hwarranted => exact ⟨st, hlive, .write w hlawful⟩
  | roll st hlive hrolled => exact ⟨st, hlive, .roll⟩
  | commit st candidate authorization hlive hvalid hpermit =>
    refine ⟨st, hlive, .commit authorization _ ?_⟩
    intro terminal hmem
    obtain ⟨change, hchange, rfl⟩ := mem_map.mp hmem
    obtain ⟨changeId, _, hget⟩ := mem_filterMap.mp hchange
    have hkey := hlive.table.keyed changeId change hget
    subst hkey
    obtain ⟨logged, hlogged, hsame, hflag, _⟩ := hlive.tracks.logged hget
    refine ⟨⟨logged, hlogged, hsame, hflag⟩, ?_⟩
    by_cases hin : candidate.contains change.changeId = true
    · left
      obtain ⟨change', hget', _, hhead⟩ := validateCandidate_iff.mp hvalid change.changeId
        (Candidate.contains_eq_true.mp hin)
      rw [hget] at hget'
      cases hget'
      refine ⟨if_pos hin, ?_⟩
      rw [← hlive.tracks.heads]
      exact hhead
    · right
      exact if_neg hin

theorem Attempt.evident (h : Attempt P m event) (hsound : Sound m) : Evident m.trace event := by
  intro change hmem hverified
  cases h with
  | write st w hlive hlawful happlied hwarranted =>
    cases hlawful with
    | create hform hopens =>
      cases mem_singleton.mp hmem
      rw [hopens.unverified] at hverified
      cases hverified
    | record hform hcontinues =>
      cases mem_singleton.mp hmem
      obtain ⟨old, hold, _⟩ := hlive.tracks.remembered hcontinues.known
      cases hflag : old.experimentVerified with
      | true => exact hsound.firstApplied hold hflag
      | false => exact (hwarranted.2 old hold).1 hflag hverified
    | intend => cases hmem
  | roll st hlive hrolled => cases hmem
  | commit st candidate authorization hlive hvalid hpermit =>
    obtain ⟨record, hrecord, rfl⟩ := mem_map.mp hmem
    obtain ⟨changeId, _, hget⟩ := mem_filterMap.mp hrecord
    have hkey := hlive.table.keyed changeId record hget
    subst hkey
    exact hsound.firstApplied hget hverified

/-- What an append leaves in the log. -/
theorem Attempt.stored {entries' : List (WalEntry V)} (hwal : AppendOnly ω) (h : Attempt P m event)
    (hsound : Sound m) (hput : putEntry m.kernel.wal (m.entry event) = (reply, wal))
    (hload : TransactionWal.load wal = .ok entries') :
    entries' = m.log ++ [m.entry event] ∨
    (reply ≠ .answered (.ok ()) ∧ Stored m entries') ∨
    Broken m.kernel.transactionId m.kernel.intentPin m.kernel.capabilities entries' ∧
      m.log ++ [m.entry event] ⊆ entries' := by
  obtain ⟨st, hlive, _⟩ := h.due
  obtain ⟨entries, hbefore, hafter⟩ := hwal.loaded _ _ _ _ _ hput hload
  have hstored := hsound.stored entries hbefore
  rcases hafter with rfl | ⟨hreply, rfl⟩
  swap
  · exact .inr (.inl ⟨hreply, hstored⟩)
  cases hstored with
  | acknowledged => exact .inl rfl
  | unanswered st' event' hlive' hdue hevident =>
    refine .inr (.inr ⟨hlive.ledger.broken _ _ hlive.tracks.sequence, ?_⟩)
    intro entry hmem
    rcases mem_append.mp hmem with hmem | hmem
    · exact mem_append_left _ (mem_append_left _ hmem)
    · exact mem_append_right _ hmem
  | broken _ hbroken hsubset =>
    refine .inr (.inr ⟨hbroken.append _, ?_⟩)
    intro entry hmem
    rcases mem_append.mp hmem with hmem | hmem
    · exact mem_append_left _ (hsubset hmem)
    · exact mem_append_right _ hmem

/-- An append that is not acknowledged. -/
theorem Sound.unanswered (hwal : AppendOnly ω) (hsound : Sound m) (hattempt : Attempt P m event)
    (hput : putEntry m.kernel.wal (m.entry event) = (reply, wal))
    (hreply : reply ≠ .answered (.ok ())) : Sound (m.appended event reply wal) := by
  have hlog : (m.appended event reply wal).log = m.log := by
    rw [Machine.appended_log]
    rcases reply with _ | (error | ⟨⟩)
    · rfl
    · rfl
    · exact absurd rfl hreply
  have hkeep : ∀ st, Live m st → Live (m.appended event reply wal) st := fun st hlive =>
    hlive.update_of_eq hlog rfl rfl rfl rfl rfl rfl rfl rfl
  obtain ⟨st, hlive, hdue⟩ := hattempt.due
  refine ⟨.inl ⟨st, hkeep st hlive⟩, ?_, ?_⟩
  · intro entries' hload
    have hself : Stored (m.appended event reply wal) m.log := by
      rw [← hlog]
      exact .acknowledged
    have hnext : ∀ event', Due m.kernel.transactionId m.kernel.capabilities st event' →
        Evident m.trace event' →
        Stored (m.appended event reply wal) (m.log ++ [m.entry event']) := by
      intro event' hdue' hevident'
      rw [← hlog]
      exact .unanswered st event' (hkeep st hlive) hdue' (hevident'.append _)
    rcases hattempt.stored hwal hsound hput hload with rfl | ⟨_, hstored⟩ | ⟨hbroken, hsubset⟩
    · exact hnext event hdue (hattempt.evident hsound)
    · cases hstored with
      | acknowledged => exact hself
      | unanswered st' event' hlive' hdue' hevident' =>
        cases hlive.ledger.unique hlive'.ledger
        exact hnext event' hdue' hevident'
      | broken _ hbroken hsubset => exact .broken _ hbroken (by rw [hlog]; exact hsubset)
    · refine .broken _ hbroken ?_
      rw [hlog]
      exact fun entry hmem => hsubset (mem_append_left _ hmem)
  · rw [hlog]
    intro entry hmem
    exact (hsound.evident entry hmem).append _

variable {m' : Machine V W ω}

theorem Closed.of_quiet {front : List (WalEntry V)} (h : Closed m front st event)
    (hextends : Extends m m') (hlog : m'.log = m.log) (hsealed : m'.kernel.sealed = m.kernel.sealed)
    (horder : m'.kernel.changeOrder = m.kernel.changeOrder)
    (hheads : m'.kernel.resourceHeads = m.kernel.resourceHeads)
    (hchanges : m'.kernel.changes = m.kernel.changes) :
    Closed m' front st event where
  ledger := by
    rw [hextends.transactionId, hextends.intentPin, hextends.capabilities]
    exact h.ledger
  due := by
    rw [hextends.transactionId, hextends.capabilities]
    exact h.due
  terminal := h.terminal
  log := by rw [hlog, hextends.transactionId, h.log]
  sealed := by rw [hsealed]; exact h.sealed
  order := by rw [horder, h.order]
  heads := by rw [hheads, h.heads]
  table := by rw [hchanges, horder, hheads]; exact h.table
  records := by rw [hchanges]; exact h.records

/-- A step that leaves the log alone. -/
theorem Sound.of_quiet (hsound : Sound m) (hextends : Extends m m') (hlog : m'.log = m.log)
    (hwal : m'.kernel.wal = m.kernel.wal)
    (hsequence : m'.kernel.nextSequence = m.kernel.nextSequence)
    (hlive : ∀ st, Live m st → Live m' st)
    (hclosed : ∀ front st event, Closed m front st event → Closed m' front st event) :
    Sound m' := by
  have htrace := trace_eq_append hextends
  refine ⟨?_, ?_, ?_⟩
  · rcases hsound.status with ⟨st, hst⟩ | ⟨front, st, event, hst⟩
    · exact .inl ⟨st, hlive st hst⟩
    · exact .inr ⟨front, st, event, hclosed front st event hst⟩
  · intro entries hload
    rw [hwal] at hload
    cases hsound.stored entries hload with
    | acknowledged =>
      rw [← hlog]
      exact .acknowledged
    | unanswered st event hst hdue hevident =>
      have hentry : m.entry event = m'.entry event := by
        rw [Machine.entry, Machine.entry, hsequence, hextends.transactionId]
      rw [hentry, ← hlog]
      refine .unanswered st event (hlive st hst) ?_ ?_
      · rw [hextends.transactionId, hextends.capabilities]
        exact hdue
      · rw [htrace]
        exact hevident.append _
    | broken _ hbroken hsubset =>
      refine .broken _ ?_ (by rw [hlog]; exact hsubset)
      rw [hextends.transactionId, hextends.intentPin, hextends.capabilities]
      exact hbroken
  · rw [hlog, htrace]
    intro entry hmem
    exact (hsound.evident entry hmem).append _

variable {wal : ω}

/-- An append that is acknowledged. -/
theorem Sound.answered (hwal : AppendOnly ω) (hsound : Sound m) (hattempt : Attempt P m event)
    (hput : putEntry m.kernel.wal (m.entry event) = (.answered (.ok ()), wal))
    (hextends : Extends m m') (hlog : m'.log = m.log ++ [m.entry event])
    (hkernel : m'.kernel.wal = wal)
    (hstatus : (∃ st, Live m' st) ∨ ∃ front st event, Closed m' front st event) : Sound m' := by
  have htrace := trace_eq_append hextends
  refine ⟨hstatus, ?_, ?_⟩
  · intro entries' hload
    rw [hkernel] at hload
    rcases hattempt.stored hwal hsound hput hload with rfl | ⟨hreply, _⟩ | ⟨hbroken, hsubset⟩
    · rw [← hlog]
      exact .acknowledged
    · exact absurd rfl hreply
    · refine .broken _ ?_ (by rw [hlog]; exact hsubset)
      rw [hextends.transactionId, hextends.intentPin, hextends.capabilities]
      exact hbroken
  · rw [hlog, htrace]
    intro entry hmem
    rcases mem_append.mp hmem with hmem | hmem
    · exact (hsound.evident entry hmem).append _
    · rw [mem_singleton.mp hmem]
      exact (hattempt.evident hsound).append _

theorem closed_rolled (hlive : Live m st) :
    Closed ((m.appended (.sealed .rolledBack) (.answered (.ok ())) wal).update fun k =>
      k.sealAs .rolledBack) m.log st (.sealed .rolledBack) where
  ledger := hlive.ledger
  due := .roll
  terminal := rfl
  log := by
    rw [Machine.update_log, Machine.appended_log, ← hlive.tracks.sequence]
    rfl
  sealed := Option.some_ne_none _
  order := hlive.tracks.order
  heads := hlive.tracks.heads
  table := hlive.table
  records changeId change hget := by
    obtain ⟨logged, hlogged, hsame, hflag, _⟩ := hlive.tracks.logged hget
    exact ⟨logged, hlogged, hsame, hflag⟩

theorem closed_committed {authorization : CommitAuthorization}
    {terminalChanges : List (ChangeRecord V)} (hlive : Live m st)
    (hdue : ∀ terminal ∈ terminalChanges, Terminates st terminal) :
    Closed ((m.appended (.commitSealed authorization terminalChanges) (.answered (.ok ()))
      wal).update fun k => k.commit authorization terminalChanges) m.log st
      (.commitSealed authorization terminalChanges) where
  ledger := hlive.ledger
  due := .commit authorization terminalChanges hdue
  terminal := rfl
  log := by
    rw [Machine.update_log, Machine.appended_log, ← hlive.tracks.sequence]
    rfl
  sealed := Option.some_ne_none _
  order := hlive.tracks.order
  heads := hlive.tracks.heads
  table := by
    have htable := hlive.table
    rw [hlive.tracks.order, hlive.tracks.heads] at htable
    have hdone := htable.terminated hlive.tracks.identity hdue
    rw [← hlive.tracks.order, ← hlive.tracks.heads] at hdone
    exact hdone
  records := by
    refine insertChanges_getElem? terminalChanges (fun terminal hmem => (hdue terminal hmem).logged) ?_
    intro changeId change hget
    obtain ⟨logged, hlogged, hsame, hflag, _⟩ := hlive.tracks.logged hget
    exact ⟨logged, hlogged, hsame, hflag⟩

theorem Step.sound (hwal : AppendOnly ω) (h : Step P m t) (hsound : Sound m) : Sound t := by
  have hextends := h.extends
  cases h with
  | call call w' hanswers hguarded =>
    have hquiet := hguarded.logged m.log
    have hlog : (m.called call w').log = m.log := Machine.called_log hquiet
    exact hsound.of_quiet hextends hlog rfl rfl (fun _ hlive => hlive.called hquiet w')
      (fun _ _ _ hclosed => hclosed.of_quiet hextends hlog rfl rfl rfl rfl)
  | write st w wal hlive hlawful happlied hwarranted hput =>
    have hkernel : (m.written w wal).kernel.wal = wal := by cases w <;> rfl
    exact hsound.answered hwal (.write st w hlive hlawful happlied hwarranted) hput hextends
      (m.written_log w wal) hkernel (.inl ⟨_, hlive.written hlawful happlied wal⟩)
  | roll wal hattempt hput =>
    obtain ⟨st, hlive, _⟩ := hattempt.due
    refine hsound.answered hwal hattempt hput hextends ?_ rfl
      (.inr ⟨_, _, _, closed_rolled hlive⟩)
    rw [Machine.update_log, Machine.appended_log]
    rfl
  | commit st candidate authorization wal hlive hvalid hpermit hput =>
    have hattempt : Attempt P m (.commitSealed authorization
        (m.kernel.allChanges.map (terminalOf candidate))) :=
      .commit st candidate authorization hlive hvalid hpermit
    obtain ⟨st', hlive', hdue⟩ := hattempt.due
    refine hsound.answered hwal hattempt hput hextends ?_ rfl
      (.inr ⟨_, _, _, closed_committed hlive' hdue.terminates⟩)
    rw [Machine.update_log, Machine.appended_log]
    rfl
  | refuse event error wal hattempt hput =>
    exact hsound.unanswered hwal hattempt hput (fun h => by cases h)
  | tick =>
    exact hsound.of_quiet hextends rfl rfl rfl (fun _ hlive => hlive.ticked)
      (fun _ _ _ hclosed => hclosed.of_quiet hextends rfl rfl rfl rfl rfl)
  | focus candidate hfocus =>
    exact hsound.of_quiet hextends rfl rfl rfl (fun _ hlive => hlive.focused candidate)
      (fun _ _ _ hclosed => hclosed.of_quiet hextends rfl rfl rfl rfl rfl)
  | lose st changeId operationId hlive huncertain =>
    refine hsound.of_quiet hextends rfl rfl rfl ?_ ?_
    · intro st' hlive'
      cases hlive.ledger.unique hlive'.ledger
      exact hlive.lost huncertain operationId
    · exact fun _ _ _ hclosed => absurd hlive.unsealed hclosed.sealed

theorem Steps.sound (hwal : AppendOnly ω) (h : (kernelSystem P).Steps m t) (hsound : Sound m) :
    Sound t :=
  System.Steps.invariant (I := Sound) (fun _ _ hs hstep => Step.sound hwal hstep hs) h hsound

/-! ## The log only grows -/

theorem Machine.log_subset_appended (m : Machine V W ω) (event : WalEvent V)
    (reply : Reply WalError Unit) (wal : ω) : m.log ⊆ (m.appended event reply wal).log := by
  rw [Machine.appended_log]
  rcases reply with _ | (error | ⟨⟩)
  · exact Subset.refl _
  · exact Subset.refl _
  · exact subset_append_left _ _

theorem Step.log_subset (h : Step P m t) : m.log ⊆ t.log := by
  cases h with
  | call call w' hanswers hguarded =>
    rw [Machine.called_log (hguarded.logged m.log)]
    exact Subset.refl _
  | write st w wal hlive hlawful happlied hwarranted hput => exact m.log_subset_appended _ _ wal
  | roll wal hattempt hput => exact m.log_subset_appended _ _ wal
  | commit st candidate authorization wal hlive hvalid hpermit hput =>
    exact m.log_subset_appended _ _ wal
  | refuse event error wal hattempt hput => exact m.log_subset_appended _ _ wal
  | tick => exact Subset.refl _
  | focus candidate hfocus => exact Subset.refl _
  | lose st changeId operationId hlive huncertain => exact Subset.refl _

theorem Steps.log_subset (h : (kernelSystem P).Steps m t) : m.log ⊆ t.log :=
  System.Steps.relates (R := fun m t : Machine V W ω => m.log ⊆ t.log)
    (fun _ => Subset.refl _) (fun _ _ _ h h' => Subset.trans h h') (fun _ _ h => Step.log_subset h) h

theorem Down.log_subset (h : Down P m t) : m.log ⊆ t.log := by
  rcases h with ⟨call, w', _, hstep, rfl⟩ | ⟨event, wal, _, _, rfl⟩
  · exact hstep.log_subset
  · exact m.log_subset_appended event .crashed wal

theorem Down.sound (hwal : AppendOnly ω) (h : Down P m t) (hsound : Sound m) : Sound t := by
  rcases h with ⟨call, w', _, hstep, rfl⟩ | ⟨event, wal, hattempt, hput, rfl⟩
  · exact hstep.sound hwal hsound
  · exact hsound.unanswered hwal hattempt hput (fun h => by cases h)

end ScxAgent
