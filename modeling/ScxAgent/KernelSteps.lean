import ScxAgent.Ledger

/-!
# The steps of a kernel

Every external call of a kernel is one step, and so is every change of its memory that goes
with it. A step carries what the kernel made sure of before it took it: a driver effect is
announced by an entry that the log has just acknowledged and finds the resource at a known value, and an
entry is appended only where it is lawful. A kernel is `Live` while its memory tracks the
ledger that its log has become.
-/

set_option linter.unusedSectionVars false

namespace ScxAgent

open Std StepLogic

variable {V W ω : Type} {trace : List (Event V W ω)}

/-! ## Logs and traces -/

/-- The process crashed during the call. -/
def Call.crashed : Call V → Bool
  | .prepare _ _ .crashed | .apply _ _ .crashed | .status _ .crashed | .verify _ _ .crashed
  | .restore _ _ .crashed | .finalize _ _ .crashed | .append _ .crashed => true
  | _ => false

/-- The log of a trace: the entries acknowledged since the last recovery, after those that the
recovery read back. -/
def Call.logged (log : List (WalEntry V)) : Call V → List (WalEntry V)
  | .append entry (.answered (.ok ())) => log ++ [entry]
  | .recovered entries => entries
  | _ => log

def logOf (trace : List (Event V W ω)) : List (WalEntry V) :=
  trace.foldl (fun log event => event.call.logged log) []

theorem logOf_concat (trace : List (Event V W ω)) (event : Event V W ω) :
    logOf (trace ++ [event]) = event.call.logged (logOf trace) := by
  simp [logOf]

/-- The last thing that happened is that the log acknowledged an entry. -/
def Appended (trace : List (Event V W ω)) (event : WalEvent V) : Prop :=
  ∃ last entry, trace.getLast? = some last ∧ last.call = .append entry (.answered (.ok ())) ∧
    entry.event = event

theorem Appended.exists_entry {event : WalEvent V} (h : Appended trace event) :
    ∃ log entry, logOf trace = log ++ [entry] ∧ entry.event = event := by
  obtain ⟨last, entry, hlast, hcall, hevent⟩ := h
  obtain ⟨before, rfl⟩ := List.getLast?_eq_some_iff.mp hlast
  refine ⟨logOf before, entry, ?_, hevent⟩
  rw [logOf_concat, hcall]
  rfl

/-- The trace shows a first apply of the change, announced by its first record, and after
it a matching readback of the desired value under the same operation. -/
def FirstApplied (trace : List (Event V W ω)) (changeId : ChangeId) : Prop :=
  ∃ before between rest, ∃ applied verified : Event V W ω,
    trace = before ++ applied :: (between ++ verified :: rest) ∧
    ∃ change reply verification, Appended before (.changeUpsert change) ∧
      change.changeId = changeId ∧ change.state = .intentDurable ∧
      applied.call = .apply changeId ⟨change.lastOperationId, change.prepared⟩ reply ∧
      verified.call = .verify changeId
        ⟨change.lastOperationId, change.prepared, change.prepared.desired⟩
        (.answered (.ok verification)) ∧
      verification.matched = true

theorem FirstApplied.append (h : FirstApplied trace changeId) (more : List (Event V W ω)) :
    FirstApplied (trace ++ more) changeId := by
  obtain ⟨before, between, rest, applied, verified, rfl, hfacts⟩ := h
  exact ⟨before, between, rest ++ more, applied, verified, by simp, hfacts⟩

/-! ## Drivers that tell the truth -/

/-- The drivers report the values that `view` reads off the world, reading changes no value,
and an effect on a resource touches no other one. -/
structure Truthful [DecidableEq V] (view : W → ResourceKey → V)
    (capabilities : CapabilitySnapshot V W) : Prop where
  prepare : ∀ (id : CapabilityId) driver, capabilities.mutations[id]? = some driver →
    ∀ request w, view (driver.prepare request w).2 = view w ∧
      ∀ prepared, (driver.prepare request w).1 = .answered (.ok prepared) →
        prepared.baseline.value = view w prepared.resource
  verify : ∀ (id : CapabilityId) driver, capabilities.mutations[id]? = some driver →
    ∀ request w, view (driver.verify request w).2 = view w ∧
      ∀ verification, (driver.verify request w).1 = .answered (.ok verification) →
        verification.matched =
          decide (view w request.prepared.resource = request.expected.value)
  status : ∀ (id : CapabilityId) driver, capabilities.mutations[id]? = some driver →
    ∀ query w, view (driver.status query w).2 = view w
  apply : ∀ (id : CapabilityId) driver, capabilities.mutations[id]? = some driver →
    ∀ request w resource, resource ≠ request.prepared.resource →
      view (driver.apply request w).2 resource = view w resource
  restore : ∀ (id : CapabilityId) driver, capabilities.mutations[id]? = some driver →
    ∀ request w resource, resource ≠ request.prepared.resource →
      view (driver.restore request w).2 resource = view w resource
  finalize : ∀ (id : CapabilityId) driver, capabilities.mutations[id]? = some driver →
    ∀ request w resource, resource ≠ request.prepared.resource →
      view (driver.finalize request w).2 resource = view w resource

/-- Besides, an apply or a restore makes its whole change or none, a restore acknowledged
as restored has made it, and a finalize changes nothing. -/
structure Honest [DecidableEq V] (view : W → ResourceKey → V)
    (capabilities : CapabilitySnapshot V W) : Prop extends Truthful view capabilities where
  applyWhole : ∀ (id : CapabilityId) driver, capabilities.mutations[id]? = some driver →
    ∀ request w, view (driver.apply request w).2 request.prepared.resource =
        view w request.prepared.resource ∨
      view (driver.apply request w).2 request.prepared.resource = request.prepared.desired.value
  restoreWhole : ∀ (id : CapabilityId) driver, capabilities.mutations[id]? = some driver →
    ∀ request w, view (driver.restore request w).2 request.prepared.resource =
        view w request.prepared.resource ∨
      view (driver.restore request w).2 request.prepared.resource = request.prepared.baseline.value
  restored : ∀ (id : CapabilityId) driver, capabilities.mutations[id]? = some driver →
    ∀ request w receipt, (driver.restore request w).1 = .answered (.ok receipt) →
      receipt.state = .restored →
      view (driver.restore request w).2 request.prepared.resource = request.prepared.baseline.value
  finalizeNothing : ∀ (id : CapabilityId) driver, capabilities.mutations[id]? = some driver →
    ∀ request w, view (driver.finalize request w).2 = view w

/-- The call is one that some driver of the snapshot answers in the world `w`. -/
def Answers (capabilities : CapabilitySnapshot V W) (w : W) (call : Call V) (w' : W) : Prop :=
  ∃ (id : CapabilityId) (driver : MutationDriver V W), capabilities.mutations[id]? = some driver ∧
    match call with
    | .prepare _ request reply => driver.prepare request w = (reply, w')
    | .apply _ request reply => driver.apply request w = (reply, w')
    | .status query reply => driver.status query w = (reply, w')
    | .verify _ request reply => driver.verify request w = (reply, w')
    | .restore _ request reply => driver.restore request w = (reply, w')
    | .finalize _ request reply => driver.finalize request w = (reply, w')
    | .append _ _ => False
    | .recovered _ => False

/-! ## Updates of a machine -/

section Machines

variable [Sha256]

def Machine.log (m : Machine V W ω) : List (WalEntry V) := logOf m.trace

def Machine.called (m : Machine V W ω) (call : Call V) (world : W) : Machine V W ω :=
  { m with world, trace := m.trace ++ [⟨m.kernel.wal, m.world, call⟩] }

def Machine.entry (m : Machine V W ω) (event : WalEvent V) : WalEntry V :=
  ⟨m.kernel.nextSequence, m.kernel.transactionId, event⟩

def Machine.appended (m : Machine V W ω) (event : WalEvent V) (reply : Reply WalError Unit)
    (wal : ω) : Machine V W ω :=
  { m with
    kernel := { m.kernel with wal }
    trace := m.trace ++ [⟨m.kernel.wal, m.world, .append (m.entry event) reply⟩] }

def Machine.update (m : Machine V W ω)
    (f : TransactionKernel V W ω → TransactionKernel V W ω) : Machine V W ω :=
  { m with kernel := f m.kernel }

def TransactionKernel.write (k : TransactionKernel V W ω) : LogWrite V → TransactionKernel V W ω
  | .create change => { k with
      nextSequence := k.nextSequence + 1
      resourceHeads := k.resourceHeads.insert change.resource change.changeId
      changeOrder := k.changeOrder ++ [change.changeId]
      changes := k.changes.insert change.changeId change }
  | .record change => { k with
      nextSequence := k.nextSequence + 1
      changes := k.changes.insert change.changeId change }
  | .intend _ _ _ => { k with nextSequence := k.nextSequence + 1 }

def Machine.written (m : Machine V W ω) (w : LogWrite V) (wal : ω) : Machine V W ω :=
  (m.appended w.event (.answered (.ok ())) wal).update fun k => k.write w

def TransactionKernel.tick (k : TransactionKernel V W ω) : TransactionKernel V W ω :=
  { k with operationCounter := saturatingAdd k.operationCounter 1 }

def TransactionKernel.focus (k : TransactionKernel V W ω) (candidate : Option Candidate) :
    TransactionKernel V W ω :=
  { k with activeCandidate := candidate }

/-- The memory of a change whose effect completed without a durable result. -/
def TransactionKernel.lose (k : TransactionKernel V W ω) (changeId : ChangeId)
    (operationId : OperationId) : TransactionKernel V W ω :=
  { k with
    changes := match k.changes[changeId]? with
      | none => k.changes
      | some change => k.changes.insert changeId { change with
          state := .appliedUnknown
          lastOperationId := operationId
          message := some "effect completed but its result was not durable in the WAL" } }

def TransactionKernel.sealAs (k : TransactionKernel V W ω) (outcome : TransactionSeal) :
    TransactionKernel V W ω :=
  { k with nextSequence := k.nextSequence + 1, sealed := some outcome }

def TransactionKernel.commit (k : TransactionKernel V W ω) (authorization : CommitAuthorization)
    (terminalChanges : List (ChangeRecord V)) : TransactionKernel V W ω :=
  { k with
    nextSequence := k.nextSequence + 1
    changes := insertChanges k.changes terminalChanges
    commitAuthorization := some authorization
    sealed := some .committed }

def terminalOf (candidate : Candidate) (change : ChangeRecord V) : ChangeRecord V :=
  { change with
    state := if candidate.contains change.changeId then .finalized else .rolledBack
    message := none }

theorem Machine.called_log {m : Machine V W ω} {call : Call V} {w' : W}
    (h : call.logged m.log = m.log) : (m.called call w').log = m.log := by
  change logOf (m.trace ++ [_]) = _
  rw [logOf_concat]
  exact h

theorem Machine.appended_log (m : Machine V W ω) (event : WalEvent V)
    (reply : Reply WalError Unit) (wal : ω) :
    (m.appended event reply wal).log = (Call.append (m.entry event) reply).logged m.log := by
  change logOf (m.trace ++ [_]) = _
  rw [logOf_concat]
  rfl

@[simp] theorem Machine.written_log (m : Machine V W ω) (w : LogWrite V) (wal : ω) :
    (m.written w wal).log = m.log ++ [m.entry w.event] :=
  m.appended_log w.event (.answered (.ok ())) wal

theorem appended_written (m : Machine V W ω) (w : LogWrite V) (wal : ω) :
    Appended (m.written w wal).trace w.event :=
  ⟨_, _, List.getLast?_concat, rfl, rfl⟩

@[simp] theorem Machine.update_log (m : Machine V W ω)
    (f : TransactionKernel V W ω → TransactionKernel V W ω) : (m.update f).log = m.log := rfl

end Machines

/-! ## Memory against the log -/

section Live

variable [DecidableEq V] [Serialize V] [Sha256] {change : ChangeRecord V}

/-- A record in memory and the last record of the change in the log. -/
def Tracked (st : Replay V) (changeId : ChangeId) (memory logged : ChangeRecord V) : Prop :=
  memory.identity = logged.identity ∧ memory.experimentVerified = logged.experimentVerified ∧
    (memory.state = logged.state ∨ memory.state = .appliedUnknown ∧ Uncertain st changeId)

structure Tracks (k : TransactionKernel V W ω) (st : Replay V) : Prop where
  order : k.changeOrder = st.changeOrder
  heads : k.resourceHeads = st.resourceHeads
  sequence : k.nextSequence = st.expectedSequence
  size : k.changes.size = st.changes.size
  records : ∀ changeId : ChangeId,
    Option.Rel (Tracked st changeId) k.changes[changeId]? st.changes[changeId]?

structure Live (m : Machine V W ω) (st : Replay V) : Prop where
  ledger : Ledger m.kernel.transactionId m.kernel.intentPin m.kernel.capabilities m.log st
  tracks : Tracks m.kernel st
  unsealed : m.kernel.sealed = none

theorem Tracks.logged {k : TransactionKernel V W ω} {st : Replay V} (h : Tracks k st)
    (hget : k.changes[changeId]? = some change) :
    ∃ logged, st.changes[changeId]? = some logged ∧ Tracked st changeId change logged := by
  have hrel := h.records changeId
  rw [hget] at hrel
  cases hlogged : st.changes[changeId]? with
  | none =>
    rw [hlogged] at hrel
    cases hrel
  | some logged =>
    rw [hlogged] at hrel
    cases hrel with
    | some htracked => exact ⟨logged, rfl, htracked⟩

variable {st : Replay V} {changeId : ChangeId} {k : TransactionKernel V W ω}

theorem Tracks.remembered (h : Tracks k st) {logged : ChangeRecord V}
    (hget : st.changes[changeId]? = some logged) :
    ∃ change, k.changes[changeId]? = some change ∧ Tracked st changeId change logged := by
  have hrel := h.records changeId
  rw [hget] at hrel
  cases hmemory : k.changes[changeId]? with
  | none =>
    rw [hmemory] at hrel
    cases hrel
  | some change =>
    rw [hmemory] at hrel
    cases hrel with
    | some htracked => exact ⟨change, rfl, htracked⟩

theorem Tracks.none_iff (h : Tracks k st) :
    k.changes[changeId]? = none ↔ st.changes[changeId]? = none := by
  have hrel := h.records changeId
  constructor
  · intro hnone
    rw [hnone] at hrel
    cases hlogged : st.changes[changeId]? with
    | none => rfl
    | some logged =>
      rw [hlogged] at hrel
      cases hrel
  · intro hnone
    rw [hnone] at hrel
    cases hmemory : k.changes[changeId]? with
    | none => rfl
    | some change =>
      rw [hmemory] at hrel
      cases hrel

theorem Tracks.identity (h : Tracks k st) (changeId : ChangeId) :
    (k.changes[changeId]?).map ChangeRecord.identity =
      (st.changes[changeId]?).map ChangeRecord.identity := by
  cases hmemory : k.changes[changeId]? with
  | none => rw [h.none_iff.mp hmemory]
  | some change =>
    obtain ⟨logged, hlogged, hsame, _⟩ := h.logged hmemory
    rw [hlogged, Option.map_some, Option.map_some, hsame]

/-- The memory of a kernel is a table of revisions as its log is one. -/
theorem Tracks.table (h : Tracks k st)
    (T : RevisionTable st.changes st.changeOrder st.resourceHeads) :
    RevisionTable k.changes k.changeOrder k.resourceHeads := by
  rw [h.order, h.heads]
  refine T.reidentify h.identity h.size ?_
  intro changeId change hget hverified
  obtain ⟨logged, hlogged, hsame, _, hstate⟩ := h.logged hget
  have hresource : change.resource = logged.resource := congrArg ChangeIdentity.resource hsame
  rcases hstate with hstate | ⟨hstate, _⟩
  · rw [hstate] at hverified
    rw [hresource]
    exact T.settled changeId logged hlogged hverified
  · rw [hstate] at hverified
    cases hverified

variable {m : Machine V W ω} {st : Replay V}

section Lives

variable (h : Live m st)
include h

theorem Live.inv : LedgerInv m.kernel.transactionId m.kernel.capabilities st :=
  h.ledger.inv

theorem Live.table : RevisionTable m.kernel.changes m.kernel.changeOrder m.kernel.resourceHeads :=
  h.tracks.table h.inv.table

theorem Live.wellFormed (hget : m.kernel.changes[changeId]? = some change) :
    WellFormed m.kernel.transactionId m.kernel.capabilities change := by
  obtain ⟨logged, hlogged, hsame, hverified, hstate⟩ := h.tracks.logged hget
  obtain ⟨htx, hid, hsupersedes, hcapability, hresource, hprepared⟩ :=
    ChangeIdentity.mk.inj hsame
  have hform := h.inv.wellFormed changeId logged hlogged
  constructor
  · rw [htx, hform.transaction]
  · rw [hresource, hprepared, hform.resource]
  · rw [hcapability, hprepared, hform.capability]
  · rw [hsupersedes, hid]
    exact hform.selfless
  · rw [hprepared]
    exact hform.baseline
  · rw [hprepared]
    exact hform.desired
  · rw [hprepared]
    exact hform.distinct
  · intro hneeds
    rw [hverified]
    rcases hstate with hstate | ⟨hstate, _⟩
    · rw [hstate] at hneeds
      exact hform.evidence hneeds
    · rw [hstate] at hneeds
      cases hneeds
  · rw [hcapability, hprepared]
    exact hform.pinned

theorem Live.unfinished (hget : m.kernel.changes[changeId]? = some change) :
    change.state ≠ .finalized := by
  obtain ⟨logged, hlogged, _, _, hstate⟩ := h.tracks.logged hget
  rcases hstate with hstate | ⟨hstate, _⟩
  · rw [hstate]
    exact h.inv.unfinished changeId logged hlogged
  · rw [hstate]
    exact ChangeState.noConfusion

/-! ## Live machines stay live -/

/-- Updates of the kernel that touch neither the table nor the log. -/
theorem Live.update_of_eq {m' : Machine V W ω} (hlog : m'.log = m.log)
    (htx : m'.kernel.transactionId = m.kernel.transactionId)
    (hpin : m'.kernel.intentPin = m.kernel.intentPin)
    (hcaps : m'.kernel.capabilities = m.kernel.capabilities)
    (horder : m'.kernel.changeOrder = m.kernel.changeOrder)
    (hheads : m'.kernel.resourceHeads = m.kernel.resourceHeads)
    (hsequence : m'.kernel.nextSequence = m.kernel.nextSequence)
    (hchanges : m'.kernel.changes = m.kernel.changes) (hsealed : m'.kernel.sealed = m.kernel.sealed) :
    Live m' st := by
  refine ⟨?_, ⟨?_, ?_, ?_, ?_, ?_⟩, ?_⟩
  · rw [htx, hpin, hcaps, hlog]
    exact h.ledger
  · rw [horder, h.tracks.order]
  · rw [hheads, h.tracks.heads]
  · rw [hsequence, h.tracks.sequence]
  · rw [hchanges, h.tracks.size]
  · rw [hchanges]
    exact h.tracks.records
  · rw [hsealed, h.unsealed]

theorem Live.called {call : Call V} (hcall : call.logged m.log = m.log) (w' : W) :
    Live (m.called call w') st :=
  h.update_of_eq (Machine.called_log hcall) rfl rfl rfl rfl rfl rfl rfl rfl

theorem Live.refused (event : WalEvent V) (error : WalError) (wal : ω) :
    Live (m.appended event (.answered (.error error)) wal) st :=
  h.update_of_eq (m.appended_log event _ wal) rfl rfl rfl rfl rfl rfl rfl rfl

theorem Live.ticked : Live (m.update TransactionKernel.tick) st :=
  h.update_of_eq rfl rfl rfl rfl rfl rfl rfl rfl rfl

theorem Live.focused (candidate : Option Candidate) :
    Live (m.update fun k => k.focus candidate) st :=
  h.update_of_eq rfl rfl rfl rfl rfl rfl rfl rfl rfl

theorem Live.lost (huncertain : Uncertain st changeId) (operationId : OperationId) :
    Live (m.update fun k => k.lose changeId operationId) st := by
  cases hget : m.kernel.changes[changeId]? with
  | none =>
    refine h.update_of_eq rfl rfl rfl rfl rfl rfl rfl ?_ rfl
    simp [Machine.update, TransactionKernel.lose, hget]
  | some change =>
    obtain ⟨logged, hlogged, hsame, hverified, _⟩ := h.tracks.logged hget
    refine ⟨h.ledger, ⟨h.tracks.order, h.tracks.heads, h.tracks.sequence, ?_, ?_⟩, h.unsealed⟩
    · simp only [Machine.update, TransactionKernel.lose, hget]
      rw [size_insert_of_some hget]
      exact h.tracks.size
    · intro changeId'
      simp only [Machine.update, TransactionKernel.lose, hget]
      rw [getElem?_insert_eq]
      split_ifs with heq
      · subst heq
        rw [hlogged]
        exact .some ⟨hsame, hverified, .inr ⟨rfl, huncertain⟩⟩
      · exact h.tracks.records changeId'

end Lives

theorem resolveIntent_of_ne (pending : TreeMap ChangeId (OperationId × OperationIntentKind))
    {changeId' : ChangeId} (hne : changeId ≠ changeId') (operationId : OperationId) :
    (resolveIntent pending changeId operationId)[changeId']? = pending[changeId']? := by
  unfold resolveIntent
  split
  · split_ifs
    · rw [getElem?_erase_eq, if_neg hne]
    · rfl
  · rfl

/-- A record of one change leaves open what was open about the others. -/
theorem Uncertain.recordChange (h : Uncertain st changeId) (hne : change.changeId ≠ changeId) :
    Uncertain (st.recordChange change) changeId := by
  rcases h with ⟨c, hget, hstate⟩ | ⟨operationId, operation, hpending, hoperation⟩
  · refine .inl ⟨c, ?_, hstate⟩
    change (st.changes.insert change.changeId change)[changeId]? = some c
    rw [getElem?_insert_eq, if_neg hne]
    exact hget
  · refine .inr ⟨operationId, operation, ?_, hoperation⟩
    change (resolveIntent _ _ _)[changeId]? = _
    rw [resolveIntent_of_ne _ hne]
    exact hpending

theorem Tracked.mono {st' : Replay V} {memory logged : ChangeRecord V}
    (h : Tracked st changeId memory logged)
    (hmono : memory.state = .appliedUnknown → Uncertain st changeId → Uncertain st' changeId) :
    Tracked st' changeId memory logged :=
  ⟨h.1, h.2.1, h.2.2.imp_right fun hlost => ⟨hlost.1, hmono hlost.1 hlost.2⟩⟩

theorem rel_mono {r r' : ChangeRecord V → ChangeRecord V → Prop}
    {a b : Option (ChangeRecord V)} (h : Option.Rel r a b)
    (hmono : ∀ x y, a = some x → b = some y → r x y → r' x y) : Option.Rel r' a b := by
  cases h with
  | some hr => exact .some (hmono _ _ rfl rfl hr)
  | none => exact .none

/-- Memory and log take up a record of a change together. -/
theorem Tracks.record_records (h : Tracks k st) (change : ChangeRecord V) (changeId : ChangeId) :
    Option.Rel (Tracked (st.recordChange change) changeId)
      (k.changes.insert change.changeId change)[changeId]?
      (st.changes.insert change.changeId change)[changeId]? := by
  rw [getElem?_insert_eq, getElem?_insert_eq]
  split_ifs with heq
  · exact .some ⟨rfl, rfl, .inl rfl⟩
  · refine rel_mono (h.records changeId) ?_
    intro memory logged _ _ htracked
    exact htracked.mono fun _ huncertain => huncertain.recordChange heq

/-- The memory never lags behind on the changes that a finalize is announced for. -/
def FinalizeApplied (k : TransactionKernel V W ω) : LogWrite V → Prop
  | .intend changeId _ operation => operation = .finalize →
      ∃ change, k.changes[changeId]? = some change ∧ change.state = .candidateApplied
  | _ => True

theorem Live.written (h : Live m st) {w : LogWrite V}
    (hlawful : Lawful m.kernel.transactionId m.kernel.capabilities st w)
    (happlied : FinalizeApplied m.kernel w) (wal : ω) : Live (m.written w wal) (w.replay st) := by
  have hledger : Ledger m.kernel.transactionId m.kernel.intentPin m.kernel.capabilities
      (m.written w wal).log (w.replay st) := by
    rw [Machine.written_log, Machine.entry, h.tracks.sequence]
    exact .write w h.ledger hlawful
  cases w with
  | create change =>
    refine ⟨hledger, ⟨?_, ?_, ?_, ?_, ?_⟩, h.unsealed⟩
    · exact congrArg (· ++ [change.changeId]) h.tracks.order
    · exact congrArg (·.insert change.resource change.changeId) h.tracks.heads
    · exact congrArg (· + 1) h.tracks.sequence
    · cases hlawful with
      | create _ hopens =>
        change (m.kernel.changes.insert _ _).size = (st.changes.insert _ _).size
        rw [size_insert_of_none hopens.fresh,
          size_insert_of_none (h.tracks.none_iff.mpr hopens.fresh), h.tracks.size]
    · exact h.tracks.record_records change
  | record change =>
    refine ⟨hledger, ⟨h.tracks.order, h.tracks.heads, ?_, ?_, ?_⟩, h.unsealed⟩
    · exact congrArg (· + 1) h.tracks.sequence
    · cases hlawful with
      | record _ hcontinues =>
        obtain ⟨memory, hmemory, _⟩ := h.tracks.remembered hcontinues.known
        change (m.kernel.changes.insert _ _).size = (st.changes.insert _ _).size
        rw [size_insert_of_some hcontinues.known, size_insert_of_some hmemory, h.tracks.size]
    · exact h.tracks.record_records change
  | intend changeId operationId operation =>
    refine ⟨hledger, ⟨h.tracks.order, h.tracks.heads, ?_, h.tracks.size, ?_⟩, h.unsealed⟩
    · exact congrArg (· + 1) h.tracks.sequence
    · intro changeId'
      refine rel_mono (h.tracks.records changeId') ?_
      intro memory logged hmemory _ htracked
      refine htracked.mono ?_
      rintro hunknown (hinitial | ⟨operationId', operation', hpending, hother⟩)
      · exact .inl hinitial
      · by_cases heq : changeId = changeId'
        · subst heq
          by_cases hfinalize : operation = .finalize
          · obtain ⟨change, hget, hstate⟩ := happlied hfinalize
            have hsame : some memory = some change := hmemory.symm.trans hget
            cases hsame
            rw [hunknown] at hstate
            cases hstate
          · refine .inr ⟨operationId, operation, ?_, hfinalize⟩
            change (st.pendingIntents.insert changeId _)[changeId]? = _
            rw [getElem?_insert_eq, if_pos rfl]
        · refine .inr ⟨operationId', operation', ?_, hother⟩
          change (st.pendingIntents.insert changeId _)[changeId']? = _
          rw [getElem?_insert_eq, if_neg heq]
          exact hpending

end Live

/-! ## Steps -/

section Steps

variable [DecidableEq V] [Serialize V] [Sha256]

/-- Whatever view the drivers tell the truth about, the resource holds the value. -/
def Holds (m : Machine V W ω) (resource : ResourceKey) (value : V) : Prop :=
  ∀ view, Truthful view m.kernel.capabilities → view m.world resource = value

/-- What the kernel knows when it issues a call to a driver. -/
def Guarded (m : Machine V W ω) : Call V → Prop
  | .apply changeId request _ => ∃ record, m.kernel.changes[changeId]? = some record ∧
      record.prepared = request.prepared ∧
      m.kernel.resourceHeads[record.resource]? = some changeId ∧
      (record.state = .intentDurable ∧ record.lastOperationId = request.operationId ∧
          Appended m.trace (.changeUpsert record) ∨
        record.state = .baselineRestored ∧ record.experimentVerified = true ∧
          Appended m.trace (.operationIntent changeId request.operationId .apply)) ∧
      Holds m record.resource record.prepared.baseline.value
  | .restore changeId request _ => ∃ record, m.kernel.changes[changeId]? = some record ∧
      record.prepared = request.prepared ∧
      Appended m.trace (.operationIntent changeId request.operationId .restore) ∧
      Holds m record.resource record.prepared.desired.value
  | .finalize changeId request _ => ∃ record, m.kernel.changes[changeId]? = some record ∧
      record.prepared = request.prepared ∧
      Appended m.trace (.operationIntent changeId request.operationId .finalize) ∧
      Holds m record.resource record.prepared.desired.value
  | .append _ _ | .recovered _ => False
  | _ => True

/-- A call to a driver leaves the log alone. -/
theorem Guarded.logged {m : Machine V W ω} {call : Call V} (h : Guarded m call)
    (log : List (WalEntry V)) : call.logged log = log := by
  cases call with
  | append entry reply => exact h.elim
  | recovered entries => exact h.elim
  | _ => rfl

/-- What one public call may do beyond the others. -/
structure Permit (V W ω : Type) [Sha256] where
  promote : Prop
  focus : Option Candidate → Prop
  commit : Machine V W ω → CommitAuthorization → Candidate → Prop

/-- What the kernel knows, besides that the entry is lawful, when it appends an entry. -/
def Warranted (P : Permit V W ω) (m : Machine V W ω) : LogWrite V → Prop
  | .create change => Holds m change.resource change.prepared.baseline.value
  | .record change =>
    (change.state = .rolledBack →
      Holds m change.resource change.prepared.baseline.value) ∧
    ∀ old, m.kernel.changes[change.changeId]? = some old →
      (old.experimentVerified = false → change.experimentVerified = true →
        FirstApplied m.trace change.changeId) ∧
      (change.state = .candidateApplied → old.state = .candidateApplied ∨ P.promote)
  | .intend _ _ _ => True

inductive Attempt (P : Permit V W ω) (m : Machine V W ω) : WalEvent V → Prop
  | write (st : Replay V) (w : LogWrite V) (hlive : Live m st)
      (hlawful : Lawful m.kernel.transactionId m.kernel.capabilities st w)
      (happlied : FinalizeApplied m.kernel w) (hwarranted : Warranted P m w) : Attempt P m w.event
  | roll (st : Replay V) (hlive : Live m st)
      (hrolled : ∀ (changeId : ChangeId) change, m.kernel.changes[changeId]? = some change →
        change.state = .rolledBack) : Attempt P m (.sealed .rolledBack)
  | commit (st : Replay V) (candidate : Candidate) (authorization : CommitAuthorization)
      (hlive : Live m st) (hvalid : m.kernel.validateCandidate candidate = .ok ())
      (hpermit : P.commit m authorization candidate) :
      Attempt P m (.commitSealed authorization
        (m.kernel.allChanges.map (terminalOf candidate)))

variable [TransactionWal V ω]

/-- The call that appends an entry of the kernel. -/
def putEntry (wal : ω) (entry : WalEntry V) : Reply WalError Unit × ω :=
  if entry.event.terminal then TransactionWal.sealEntry wal entry
  else TransactionWal.appendDurable wal entry

inductive Step (P : Permit V W ω) : Machine V W ω → Machine V W ω → Prop
  | call {m : Machine V W ω} (call : Call V) (w' : W)
      (hanswers : Answers m.kernel.capabilities m.world call w') (hguarded : Guarded m call) :
      Step P m (m.called call w')
  | write {m : Machine V W ω} (st : Replay V) (w : LogWrite V) (wal : ω) (hlive : Live m st)
      (hlawful : Lawful m.kernel.transactionId m.kernel.capabilities st w)
      (happlied : FinalizeApplied m.kernel w) (hwarranted : Warranted P m w)
      (hput : putEntry m.kernel.wal (m.entry w.event) = (.answered (.ok ()), wal)) :
      Step P m (m.written w wal)
  | roll {m : Machine V W ω} (wal : ω) (hattempt : Attempt P m (.sealed .rolledBack))
      (hput : putEntry m.kernel.wal (m.entry (.sealed .rolledBack)) =
        (.answered (.ok ()), wal)) :
      Step P m ((m.appended (.sealed .rolledBack) (.answered (.ok ())) wal).update fun k =>
        k.sealAs .rolledBack)
  | commit {m : Machine V W ω} (st : Replay V) (candidate : Candidate)
      (authorization : CommitAuthorization) (wal : ω)
      (hlive : Live m st) (hvalid : m.kernel.validateCandidate candidate = .ok ())
      (hpermit : P.commit m authorization candidate)
      (hput : putEntry m.kernel.wal (m.entry (.commitSealed authorization
        (m.kernel.allChanges.map (terminalOf candidate)))) = (.answered (.ok ()), wal)) :
      Step P m ((m.appended (.commitSealed authorization
        (m.kernel.allChanges.map (terminalOf candidate))) (.answered (.ok ())) wal).update
          fun k => k.commit authorization (m.kernel.allChanges.map (terminalOf candidate)))
  | refuse {m : Machine V W ω} (event : WalEvent V) (error : WalError) (wal : ω)
      (hattempt : Attempt P m event)
      (hput : putEntry m.kernel.wal (m.entry event) = (.answered (.error error), wal)) :
      Step P m (m.appended event (.answered (.error error)) wal)
  | tick {m : Machine V W ω} : Step P m (m.update TransactionKernel.tick)
  | focus {m : Machine V W ω} (candidate : Option Candidate) (hfocus : P.focus candidate) :
      Step P m (m.update fun k => k.focus candidate)
  | lose {m : Machine V W ω} (st : Replay V) (changeId : ChangeId) (operationId : OperationId)
      (hlive : Live m st) (huncertain : Uncertain st changeId) :
      Step P m (m.update fun k => k.lose changeId operationId)

/-- A crash falls on a call to a driver or on an append, which gets no answer. -/
def Down (P : Permit V W ω) (m m' : Machine V W ω) : Prop :=
  (∃ call w', call.crashed = true ∧ Step P m (m.called call w') ∧ m' = m.called call w') ∨
    ∃ event wal, Attempt P m event ∧ putEntry m.kernel.wal (m.entry event) = (.crashed, wal) ∧
      m' = m.appended event .crashed wal

def kernelSystem (P : Permit V W ω) : System (Machine V W ω) := ⟨Step P, Down P⟩

end Steps

end ScxAgent
