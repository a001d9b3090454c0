import ScxAgent.TestFixture

/-!
# The discipline of effects

An apply, a restore or a finalize reaches a driver only after the log has acknowledged an entry
that names the change and the operation, and while the log is open. If the drivers report
the values of the resources as they are, an apply finds the baseline of its change and a restore
or a finalize finds the desired value, whatever other parties write between the calls.
-/

set_option linter.unusedSectionVars false

namespace ScxAgent

open Std StepLogic List TransactionWal

variable {V W ω : Type}

/-- The effect that a call asks a driver for. -/
def Call.effect : Call V → Option (OperationIntentKind × ChangeId × MutationRequest V)
  | .apply changeId request _ => some (.apply, changeId, request)
  | .restore changeId request _ => some (.restore, changeId, request)
  | .finalize changeId request _ => some (.finalize, changeId, request)
  | _ => none

def Applied (trace : List (Event V W ω)) (changeId : ChangeId) : Prop :=
  ∃ event ∈ trace, ∃ request, event.call.effect = some (.apply, changeId, request)

/-- The value that a resource has when an effect on it is issued. -/
def PreparedMutation.found (prepared : PreparedMutation V) : OperationIntentKind → V
  | .apply => prepared.baseline.value
  | _ => prepared.desired.value

section Rules

variable [TransactionWal V ω]

/-- The write-ahead rule for an effect that is issued after the events `before`. -/
structure WrittenAhead (before : List (Event V W ω)) (wal : ω) (operation : OperationIntentKind)
    (changeId : ChangeId) (operationId : OperationId) : Prop where
  unsealed : ∀ entry ∈ logOf before, entry.event.terminal = false
  first : operation = .apply → ¬ Applied before changeId →
    ∃ change, Recorded (logOf before) change ∧ change.changeId = changeId ∧
      change.state = .intentDurable ∧ change.lastOperationId = operationId
  later : operation ≠ .apply ∨ Applied before changeId →
    ∃ entry ∈ logOf before, entry.event = .operationIntent changeId operationId operation
  stored : ∀ entries, TransactionWal.load wal = .ok entries → logOf before ⊆ entries
  sealLost : ∀ entries, TransactionWal.load wal = .ok entries →
    ∀ entry ∈ entries, entry.event.terminal = true →
      ∃ failed ∈ before, ∃ reply, failed.call = .append entry reply ∧ reply ≠ .answered (.ok ())

/-- The change that an effect is about is in the log, and its resource has the value that the
change records. -/
structure InPlace [DecidableEq V] (capabilities : CapabilitySnapshot V W)
    (before : List (Event V W ω)) (world : W) (operation : OperationIntentKind)
    (changeId : ChangeId) (prepared : PreparedMutation V) : Prop where
  recorded : ∃ change, Recorded (logOf before) change ∧ change.changeId = changeId ∧
    change.resource = prepared.resource ∧ change.prepared = prepared
  found : ∀ view, Truthful view capabilities → view world prepared.resource = prepared.found operation

/-- The rule of one event of a trace. -/
structure Orderly [DecidableEq V] (capabilities : CapabilitySnapshot V W)
    (before : List (Event V W ω)) (event : Event V W ω) : Prop where
  writtenAhead : ∀ operation changeId request,
    event.call.effect = some (operation, changeId, request) →
    WrittenAhead before event.wal operation changeId request.operationId
  inPlace : ∀ operation changeId request,
    event.call.effect = some (operation, changeId, request) →
    InPlace capabilities before event.world operation changeId request.prepared
  opening : ∀ entry change, event.call = .append entry (.answered (.ok ())) →
    entry.event = .changeUpsert change → change.state = .intentDurable →
    ¬ Applied before change.changeId

end Rules

variable {capabilities : CapabilitySnapshot V W} {change : ChangeRecord V} {event : WalEvent V}
  {changeId : ChangeId} {operation : OperationIntentKind} {call : Call V}
  {request : MutationRequest V}

section Runs

variable [DecidableEq V] [Serialize V] [Sha256] [TransactionWal V ω] [Inhabited V]
  {m t : Machine V W ω} {st : Replay V} {P : Permit V W ω}

/-- An event without an effect that opens no change. -/
theorem Orderly.of_quiet {before : List (Event V W ω)} {event : Event V W ω}
    (heffect : event.call.effect = none)
    (hopening : ∀ entry change, event.call = .append entry (.answered (.ok ())) → entry.event = .changeUpsert change → change.state = .intentDurable → ¬ Applied before change.changeId) :
    Orderly capabilities before event where
  writtenAhead operation changeId request h := by
    rw [heffect] at h
    cases h
  inPlace operation changeId request h := by
    rw [heffect] at h
    cases h
  opening := hopening

/-! ## The invariant -/

structure Disciplined (m : Machine V W ω) : Prop where
  orderly : Throughout (Orderly m.kernel.capabilities) m.trace
  known : ∀ changeId, Applied m.trace changeId →
    ∃ change, Recorded m.log change ∧ change.changeId = changeId
  accounted : ∀ entries, TransactionWal.load m.kernel.wal = .ok entries → ∀ entry ∈ entries,
    entry ∈ m.log ∨
      ∃ failed ∈ m.trace, ∃ reply, failed.call = .append entry reply ∧ reply ≠ .answered (.ok ())

variable {intentPin : EvaluationIntentPin} {transactionId : TransactionId}
  {trace : List (Event V W ω)} {wal : ω}

/-- A change that has been recorded in a ledger is known in its state. -/
theorem Ledger.knows {log : List (WalEntry V)}
    (h : Ledger transactionId intentPin capabilities log st) (hrecorded : Recorded log change) :
    st.changes[change.changeId]? ≠ none := by
  obtain ⟨entry, hmem, hevent⟩ := hrecorded
  induction h with
  | start =>
    rw [mem_singleton.mp hmem] at hevent
    cases hevent
  | @write log st w hlog hlawful ih =>
    have hinsert : ∀ c : ChangeRecord V, (w.event = .changeUpsert change → c = change) →
        (st.changes.insert c.changeId c)[change.changeId]? ≠ none := by
      intro c hnew
      rw [getElem?_insert_eq]
      split_ifs with heq
      · simp
      · rcases mem_append.mp hmem with hold | hlast
        · exact ih hold
        · rw [mem_singleton.mp hlast] at hevent
          exact absurd (congrArg ChangeRecord.changeId (hnew hevent)) heq
    cases w with
    | create c => exact hinsert c fun h => WalEvent.changeUpsert.inj h
    | record c => exact hinsert c fun h => WalEvent.changeUpsert.inj h
    | intend changeId operationId operation =>
      rcases mem_append.mp hmem with hold | hlast
      · exact ih hold
      · rw [mem_singleton.mp hlast] at hevent
        cases hevent

/-- A change in the memory of a live machine is recorded in its log. -/
theorem Live.recorded (hlive : Live m st) (hget : m.kernel.changes[changeId]? = some change) :
    ∃ logged, Recorded m.log logged ∧ logged.identity = change.identity := by
  obtain ⟨logged, hlogged, hsame, _⟩ := hlive.tracks.logged hget
  exact ⟨logged, hlive.ledger.recorded hlogged, hsame.symm⟩

/-- The last entry of a sealed log is its seal, so a machine that has just appended another entry
is live. -/
theorem Sound.live_of_appended (hsound : Sound m) (happended : Appended m.trace event)
    (hopen : event.terminal = false) : ∃ st, Live m st := by
  rcases hsound.status with hlive | ⟨front, st, last, hclosed⟩
  · exact hlive
  · obtain ⟨log, entry, hlog, hevent⟩ := happended.exists_entry
    have hends : front ++ [_] = log ++ [entry] := hclosed.log.symm.trans hlog
    have hlast := (append_inj' hends rfl).2
    have hterminal := hclosed.terminal
    rw [singleton_inj] at hlast
    rw [← hevent, ← hlast, hterminal] at hopen
    cases hopen

theorem FirstApplied.applied (h : FirstApplied trace changeId) : Applied trace changeId := by
  obtain ⟨before, between, rest, applied, verified, rfl, change, reply, verification, _, _, _,
    hcall, _⟩ := h
  refine ⟨applied, by simp, ⟨change.lastOperationId, change.prepared⟩, ?_⟩
  rw [hcall]
  rfl

theorem Appended.recorded (h : Appended trace (.changeUpsert change)) :
    Recorded (logOf trace) change := by
  obtain ⟨log, entry, hlog, hevent⟩ := h.exists_entry
  exact ⟨entry, by simp [hlog], hevent⟩

/-- A change whose first record was just appended has not been applied yet. -/
theorem Disciplined.not_applied (h : Disciplined m)
    (happended : Appended m.trace (.changeUpsert change)) (hstate : change.state = .intentDurable) :
    ¬ Applied m.trace change.changeId := by
  obtain ⟨last, entry, hlast, hcall, hevent⟩ := happended
  obtain ⟨before, htrace⟩ := getLast?_eq_some_iff.mp hlast
  have hopening := (h.orderly before last [] htrace).opening entry change hcall hevent hstate
  rintro ⟨event, hmem, request, heffect⟩
  rw [htrace] at hmem
  rcases mem_append.mp hmem with hmem | hmem
  · exact hopening ⟨event, hmem, request, heffect⟩
  · rw [mem_singleton.mp hmem, hcall] at heffect
    cases heffect

/-! ## Effects -/

section Issued

variable (hguarded : Guarded m call) (heffect : call.effect = some (operation, changeId, request))
include hguarded heffect

/-- What the guard of an effect says, whatever the kind of the effect. -/
theorem Guarded.effect :
    ∃ record, m.kernel.changes[changeId]? = some record ∧ record.prepared = request.prepared ∧
      Holds m record.resource (record.prepared.found operation) ∧
      (operation = .apply ∧ record.state = .intentDurable ∧
          record.lastOperationId = request.operationId ∧ Appended m.trace (.changeUpsert record) ∨
        Appended m.trace (.operationIntent changeId request.operationId operation) ∧
          (operation = .apply → record.experimentVerified = true)) := by
  cases call with
  | apply id req reply =>
    cases heffect
    obtain ⟨record, hget, hprepared, _, hhow, hholds⟩ := hguarded
    refine ⟨record, hget, hprepared, hholds, ?_⟩
    rcases hhow with ⟨hstate, hid, happended⟩ | ⟨_, hverified, happended⟩
    · exact .inl ⟨rfl, hstate, hid, happended⟩
    · exact .inr ⟨happended, fun _ => hverified⟩
  | restore id req reply | finalize id req reply =>
    cases heffect
    obtain ⟨record, hget, hprepared, happended, hholds⟩ := hguarded
    exact ⟨record, hget, hprepared, hholds, .inr ⟨happended, fun h => by cases h⟩⟩
  | _ => cases heffect

theorem Guarded.live (hsound : Sound m) : ∃ st, Live m st := by
  obtain ⟨record, _, _, _, ⟨_, _, _, happended⟩ | ⟨happended, _⟩⟩ := hguarded.effect heffect
  · exact hsound.live_of_appended happended rfl
  · exact hsound.live_of_appended happended rfl

theorem Guarded.writtenAhead (hsound : Sound m) (h : Disciplined m) :
    WrittenAhead m.trace m.kernel.wal operation changeId request.operationId := by
  obtain ⟨st, hlive⟩ := hguarded.live heffect hsound
  obtain ⟨record, hget, _, _, hhow⟩ := hguarded.effect heffect
  have hkey := hlive.table.keyed changeId record hget
  have hunsealed := hlive.ledger.open_entries
  refine ⟨hunsealed, ?_, ?_, fun _ hload => hsound.log_subset hload, ?_⟩
  · intro hoperation hnot
    rcases hhow with ⟨_, hstate, hid, happended⟩ | ⟨_, hverified⟩
    · exact ⟨record, happended.recorded, hkey, hstate, hid⟩
    · exact absurd (hsound.firstApplied hget (hverified hoperation)).applied hnot
  · intro hlater
    rcases hhow with ⟨hoperation, hstate, _, happended⟩ | ⟨happended, _⟩
    · have hnot := h.not_applied happended hstate
      rw [hkey] at hnot
      rcases hlater with hother | happlied
      · exact absurd hoperation hother
      · exact absurd happlied hnot
    · obtain ⟨log, entry, hlog, hevent⟩ := happended.exists_entry
      exact ⟨entry, by simp [hlog], hevent⟩
  · intro entries hload entry hmem hterminal
    rcases h.accounted entries hload entry hmem with hlogged | hfailed
    · have hopen := hunsealed entry hlogged
      rw [hterminal] at hopen
      cases hopen
    · exact hfailed

theorem Guarded.inPlace (hsound : Sound m) :
    InPlace m.kernel.capabilities m.trace m.world operation changeId request.prepared := by
  obtain ⟨st, hlive⟩ := hguarded.live heffect hsound
  obtain ⟨record, hget, hprepared, hholds, _⟩ := hguarded.effect heffect
  have hresource := (hlive.wellFormed hget).resource
  obtain ⟨logged, hrecorded, hsame⟩ := hlive.recorded hget
  rw [← hprepared]
  refine ⟨⟨logged, hrecorded, ?_, ?_, ?_⟩, ?_⟩
  · rw [← hlive.table.keyed changeId record hget]
    exact congrArg ChangeIdentity.changeId hsame
  · rw [← hresource]
    exact congrArg ChangeIdentity.resource hsame
  · exact congrArg ChangeIdentity.prepared hsame
  · rw [← hresource]
    exact hholds

end Issued

/-! ## Every run is disciplined -/

/-- A machine that has taken one more event. -/
theorem Disciplined.concat (h : Disciplined m) {event : Event V W ω}
    (hcapabilities : t.kernel.capabilities = m.kernel.capabilities)
    (htrace : t.trace = m.trace ++ [event]) (horderly : Orderly m.kernel.capabilities m.trace event)
    (hlog : m.log ⊆ t.log)
    (hknown : ∀ changeId request, event.call.effect = some (.apply, changeId, request) →
      ∃ change, Recorded m.log change ∧ change.changeId = changeId)
    (haccounted : ∀ entries, load t.kernel.wal = .ok entries → ∀ entry ∈ entries,
      entry ∈ t.log ∨ ∃ failed ∈ t.trace, ∃ reply, failed.call = .append entry reply ∧
        reply ≠ .answered (.ok ())) : Disciplined t := by
  refine ⟨?_, ?_, haccounted⟩
  · rw [htrace, hcapabilities]
    exact h.orderly.concat horderly
  · have hkeep : ∀ changeId, (∃ change, Recorded m.log change ∧ change.changeId = changeId) →
        ∃ change, Recorded t.log change ∧ change.changeId = changeId := by
      rintro changeId ⟨change, hrecorded, hid⟩
      exact ⟨change, hrecorded.mono hlog, hid⟩
    rintro changeId ⟨e, hmem, request, heffect⟩
    rw [htrace] at hmem
    rcases mem_append.mp hmem with hmem | hmem
    · exact hkeep changeId (h.known changeId ⟨e, hmem, request, heffect⟩)
    · rw [mem_singleton.mp hmem] at heffect
      exact hkeep changeId (hknown changeId request heffect)

/-- An append, whatever its answer, of an entry that opens no change that has been applied. -/
theorem Disciplined.appended (hwal : AppendOnly ω) (h : Disciplined m) {reply : Reply WalError Unit}
    (hput : putEntry m.kernel.wal (m.entry event) = (reply, wal))
    (hopening : ∀ change, event = .changeUpsert change → change.state = .intentDurable → ¬ Applied m.trace change.changeId)
    (hcapabilities : t.kernel.capabilities = m.kernel.capabilities)
    (htrace : t.trace = (m.appended event reply wal).trace) (hstored : t.kernel.wal = wal) :
    Disciplined t := by
  have hlog : t.log = (Call.append (m.entry event) reply).logged m.log := by
    rw [Machine.log, htrace]
    exact m.appended_log event reply wal
  have hsubset : m.log ⊆ t.log := by
    rw [Machine.log, Machine.log, htrace]
    exact m.log_subset_appended event reply wal
  refine h.concat hcapabilities htrace (.of_quiet rfl ?_) hsubset (fun _ _ h => by cases h) ?_
  · intro entry change hcall hevent hstate
    cases hcall
    exact hopening change hevent hstate
  · intro entries' hload entry hmem
    rw [hstored] at hload
    obtain ⟨entries, hbefore, hafter⟩ := hwal.loaded _ _ _ _ _ hput hload
    have hold : entry ∈ entries → entry ∈ t.log ∨ ∃ failed ∈ t.trace, ∃ reply,
        failed.call = .append entry reply ∧ reply ≠ .answered (.ok ()) := by
      intro hin
      rcases h.accounted entries hbefore entry hin with hlogged | ⟨failed, hfailed, hfacts⟩
      · exact .inl (hsubset hlogged)
      · exact .inr ⟨failed, by rw [htrace]; exact mem_append_left _ hfailed, hfacts⟩
    rcases hafter with rfl | ⟨_, rfl⟩
    · rcases mem_append.mp hmem with hin | hlast
      · exact hold hin
      · rw [mem_singleton.mp hlast]
        by_cases hreply : reply = .answered (.ok ())
        · left
          rw [hlog, hreply]
          simp [Call.logged]
        · right
          refine ⟨⟨m.kernel.wal, m.world, .append (m.entry event) reply⟩, ?_, reply, rfl, hreply⟩
          rw [htrace]
          exact mem_append_right _ (mem_singleton.mpr rfl)
    · exact hold hmem

/-- The entries that a kernel appends open only changes that have not been applied. -/
theorem Attempt.opening (h : Attempt P m event) (hdisciplined : Disciplined m)
    (hevent : event = .changeUpsert change) (hstate : change.state = .intentDurable) :
    ¬ Applied m.trace change.changeId := by
  cases h with
  | write st w hlive hlawful happlied hwarranted =>
    cases hlawful with
    | create hform hopens =>
      cases hevent
      intro happlied
      obtain ⟨other, hrecorded, hid⟩ := hdisciplined.known _ happlied
      have hknown := hlive.ledger.knows hrecorded
      rw [hid] at hknown
      exact hknown hopens.fresh
    | record hform hcontinues =>
      cases hevent
      exact absurd hstate hcontinues.resumed
    | intend => cases hevent
  | roll => cases hevent
  | commit => cases hevent

theorem Step.disciplined (hwal : AppendOnly ω) (hsound : Sound m) (h : Step P m t)
    (hm : Disciplined m) : Disciplined t := by
  cases h with
  | call call w' hanswers hguarded =>
    have hlog : (m.called call w').log = m.log := Machine.called_log (hguarded.logged m.log)
    refine hm.concat rfl rfl ⟨?_, ?_, ?_⟩ (by rw [hlog]; exact Subset.refl _) ?_ ?_
    · exact fun _ _ _ heffect => hguarded.writtenAhead heffect hsound hm
    · exact fun _ _ _ heffect => hguarded.inPlace heffect hsound
    · intro entry change hcall
      subst hcall
      exact hguarded.elim
    · intro changeId request heffect
      obtain ⟨change, hrecorded, hid, _⟩ := (hguarded.inPlace heffect hsound).recorded
      exact ⟨change, hrecorded, hid⟩
    · intro entries hload entry hmem
      rw [hlog]
      rcases hm.accounted entries hload entry hmem with hlogged | ⟨failed, hfailed, hfacts⟩
      · exact .inl hlogged
      · exact .inr ⟨failed, mem_append_left _ hfailed, hfacts⟩
  | write st w wal hlive hlawful happlied hwarranted hput =>
    have hattempt : Attempt P m w.event := .write st w hlive hlawful happlied hwarranted
    refine hm.appended hwal hput (fun _ => hattempt.opening hm) ?_ rfl ?_
    · cases w <;> rfl
    · cases w <;> rfl
  | roll wal hattempt hput =>
    exact hm.appended hwal hput (fun _ => hattempt.opening hm) rfl rfl rfl
  | commit st candidate authorization wal hlive hvalid hpermit hput =>
    exact hm.appended hwal hput (fun _ h => by cases h) rfl rfl rfl
  | refuse event error wal hattempt hput =>
    exact hm.appended hwal hput (fun _ => hattempt.opening hm) rfl rfl rfl
  | tick | focus _ _ | lose _ _ _ _ _ => exact ⟨hm.orderly, hm.known, hm.accounted⟩

variable {env : W → W → Prop} {w₀ : W} {s : Stage V W ω}

theorem Restarts.disciplined (h : Restarts m t) (hm : Disciplined m)
    (hsubset : ∀ entries, load m.kernel.wal = .ok entries → m.log ⊆ entries) :
    Disciplined t := by
  obtain ⟨entries, k, hload, hrecover, rfl⟩ := h
  have hsetting := recover_setting hload hrecover
  have hlog := m.recovered_log k entries
  refine hm.concat hsetting.2.2.1 rfl (.of_quiet rfl fun _ _ h => by cases h) ?_
    (fun _ _ h => by cases h) ?_
  · rw [hlog]
    exact hsubset entries hload
  · intro entries' hload' entry hmem
    change load k.wal = .ok entries' at hload'
    rw [hsetting.2.2.2, hload] at hload'
    cases hload'
    rw [hlog]
    exact .inl hmem

/-- Before anything is recorded, an append of a start record is orderly. -/
theorem disciplined_fresh (hempty : load wal = .ok []) :
    Disciplined (Machine.fresh transactionId intentPin capabilities wal w₀) where
  orderly := .nil
  known := by
    rintro changeId ⟨event, hmem, _⟩
    cases hmem
  accounted entries hload entry hmem := by
    change load wal = .ok entries at hload
    rw [hempty] at hload
    cases hload
    cases hmem

theorem RunInvariant.disciplined (hwal : AppendOnly ω) :
    RunInvariant env w₀ (Disciplined : Machine V W ω → Prop) Disciplined where
  begun hempty hput :=
    (disciplined_fresh hempty).appended hwal hput (fun _ h => by cases h) rfl rfl rfl
  reborn {transactionId intentPin capabilities wal wal' reply m} hempty hput hreply hrestart
      hsound := by
    have hdown : Disciplined ((Machine.fresh transactionId intentPin capabilities wal w₀).appended
        (.started intentPin capabilities.generation) reply wal') :=
      (disciplined_fresh hempty).appended hwal hput (fun _ h => by cases h) rfl rfl rfl
    refine hrestart.disciplined hdown fun entries _ => ?_
    have hnothing : ((Machine.fresh transactionId intentPin capabilities wal w₀).appended
        (.started intentPin capabilities.generation) reply wal').log = [] := by
      rw [Machine.appended_log]
      rcases reply with _ | (error | ⟨⟩)
      · rfl
      · rfl
      · exact absurd rfl hreply
    rw [hnothing]
    exact nil_subset _
  step hsound hstep hm := Step.disciplined hwal hsound hstep hm
  stop hm := hm
  crash hsound hattempt hput hm :=
    hm.appended hwal hput (fun _ => hattempt.opening hm) rfl rfl rfl
  restart hsound hrestart hm := hrestart.disciplined hm fun _ hload => hsound.log_subset hload
  world _ hm := ⟨hm.orderly, hm.known, hm.accounted⟩

/-- If appends are all or nothing, the log holds the acknowledged entries and no others when an
effect is issued. -/
def Settled (before : List (Event V W ω)) (event : Event V W ω) : Prop :=
  event.call.effect ≠ none → TransactionWal.load event.wal = .ok (logOf before)

theorem Restarts.settled (h : Restarts m t) (hm : Throughout Settled m.trace) :
    Exact t ∧ Throughout Settled t.trace := by
  refine ⟨h.exact, ?_⟩
  obtain ⟨entries, k, _, _, rfl⟩ := h
  exact hm.concat fun hnone => absurd rfl hnone

theorem Step.settled (h : Step P m t) (hexact : Exact m) (hm : Throughout Settled m.trace) :
    Throughout Settled t.trace := by
  cases h with
  | call call w' hanswers hguarded => exact hm.concat fun _ => hexact
  | tick | focus _ _ | lose _ _ _ _ _ => exact hm
  | _ => exact hm.concat fun hnone => absurd rfl hnone

theorem RunInvariant.settled (hwal : AllOrNothing ω) :
    RunInvariant env w₀ (fun m : Machine V W ω => Exact m ∧ Throughout Settled m.trace)
      (fun m => Throughout Settled m.trace) where
  begun hempty hput :=
    ⟨hwal.appended _ _ _ _ hempty hput, Throughout.nil.concat fun hnone => absurd rfl hnone⟩
  reborn _ _ _ hrestart _ :=
    hrestart.settled (Throughout.nil.concat fun hnone => absurd rfl hnone)
  step _ hstep hm := ⟨Step.exact hwal hstep hm.1, hstep.settled hm.1 hm.2⟩
  stop hm := hm.2
  crash _ _ _ hm := hm.2.concat fun hnone => absurd rfl hnone
  restart _ hrestart hm := hrestart.settled hm
  world _ hm := hm

end Runs

section WrittenAheadTest

open TestFixture

end WrittenAheadTest

/-! ## Values of other parties -/

variable {resource : ResourceKey} {view : W → ResourceKey → V}

section Values

variable [DecidableEq V] [Serialize V] [Sha256] [TransactionWal V ω] [Inhabited V]
  {m t : Machine V W ω} {P : Permit V W ω} {env : W → W → Prop} {w₀ : W} {s : Stage V W ω}

/-- A resource is as it was on `m`, or it was then at a value that some change on it records. -/
def Excused (view : W → ResourceKey → V) (m : Machine V W ω) (resource : ResourceKey)
    (t : Machine V W ω) : Prop :=
  view t.world resource = view m.world resource ∨
    ∃ change, Recorded t.log change ∧ change.resource = resource ∧
      (view m.world resource = change.prepared.baseline.value ∨
        view m.world resource = change.prepared.desired.value)

variable {u : Machine V W ω}

theorem Excused.of_grown (h : Excused view m resource t) (hlog : t.log ⊆ u.log)
    (hworld : view u.world resource = view t.world resource) : Excused view m resource u := by
  rcases h with hsame | ⟨change, hrecorded, hfacts⟩
  · exact .inl (hworld.trans hsame)
  · exact .inr ⟨change, hrecorded.mono hlog, hfacts⟩

/-- A call without an effect changes no value. -/
theorem Truthful.view_of_quiet (h : Truthful view capabilities) {w w' : W}
    (hanswers : Answers capabilities w call w') (hquiet : call.effect = none) :
    view w' = view w := by
  cases call with
  | prepare capabilityId request reply => exact h.prepare_view hanswers
  | status query reply => exact h.status_view hanswers
  | verify changeId request reply => exact h.verify_view hanswers
  | append entry reply => exact hanswers.elim fun _ h => h.elim fun _ h => h.2.elim
  | recovered entries => exact hanswers.elim fun _ h => h.elim fun _ h => h.2.elim
  | _ => cases hquiet

theorem Truthful.view_of_effect (h : Truthful view capabilities) {w w' : W}
    (hanswers : Answers capabilities w call w')
    (heffect : call.effect = some (operation, changeId, request))
    (hne : resource ≠ request.prepared.resource) : view w' resource = view w resource := by
  cases call with
  | apply id req reply =>
    cases heffect
    exact h.effect_elsewhere (.inl hanswers) hne
  | restore id req reply =>
    cases heffect
    exact h.effect_elsewhere (.inr (.inl hanswers)) hne
  | finalize id req reply =>
    cases heffect
    exact h.effect_elsewhere (.inr (.inr hanswers)) hne
  | _ => cases heffect

theorem Step.excused (hsound : Sound t) (htruthful : Truthful view t.kernel.capabilities)
    (h : Step P t u) (ht : Excused view m resource t) : Excused view m resource u := by
  have hsubset := h.log_subset
  cases h with
  | call call w' hanswers hguarded =>
    have hlog : (t.called call w').log = t.log := Machine.called_log (hguarded.logged t.log)
    rcases heffect : call.effect with _ | ⟨operation, changeId, request⟩
    · exact ht.of_grown hsubset (congrFun (htruthful.view_of_quiet hanswers heffect) resource)
    · by_cases hresource : resource = request.prepared.resource
      swap
      · exact ht.of_grown hsubset (htruthful.view_of_effect hanswers heffect hresource)
      rcases ht with hsame | ⟨change, hrecorded, hfacts⟩
      swap
      · exact .inr ⟨change, by rw [hlog]; exact hrecorded, hfacts⟩
      obtain ⟨⟨change, hrecorded, _, hat, hprepared⟩, hfound⟩ := hguarded.inPlace heffect hsound
      have hvalue := hfound view htruthful
      rw [← hresource, hsame] at hvalue
      refine .inr ⟨change, by rw [hlog]; exact hrecorded, hat.trans hresource.symm, ?_⟩
      rw [hprepared]
      cases operation with
      | apply => exact .inl hvalue
      | restore => exact .inr hvalue
      | finalize => exact .inr hvalue
  | write st w wal hlive hlawful happlied hwarranted hput =>
    exact ht.of_grown hsubset rfl
  | roll wal hattempt hput => exact ht.of_grown hsubset rfl
  | commit st candidate authorization wal hlive hvalid hpermit hput =>
    exact ht.of_grown hsubset rfl
  | refuse event error wal hattempt hput => exact ht.of_grown hsubset rfl
  | tick => exact ht
  | focus candidate hfocus => exact ht
  | lose st changeId operationId hlive huncertain => exact ht

theorem Steps.excused (hwal : AppendOnly ω) (hsound : Sound m)
    (htruthful : Truthful view m.kernel.capabilities) (h : (kernelSystem P).Steps m t)
    (resource : ResourceKey) : Excused view m resource t := by
  have hall := System.Steps.invariant (I := fun t => Sound t ∧
    t.kernel.capabilities = m.kernel.capabilities ∧ Excused view m resource t) ?_ h
    ⟨hsound, rfl, .inl rfl⟩
  · exact hall.2.2
  · rintro t u ⟨hsoundT, hcapabilities, hexcused⟩ hstep
    refine ⟨Step.sound hwal hstep hsoundT, ?_, ?_⟩
    · exact (Step.extends hstep).capabilities.trans hcapabilities
    · exact Step.excused hsoundT (by rw [hcapabilities]; exact htruthful) hstep hexcused

/-- A public call, however it ends, changes a resource only if it finds it at a value that a
change on the resource records. -/
theorem PublicCall.excused (hwal : AppendOnly ω) (hsound : Sound m)
    (htruthful : Truthful view m.kernel.capabilities) (call : PublicCall V)
    {outcome : Except (Halt TransactionError) (List (ChangeRecord V))}
    (hrun : call.invoke m = (outcome, t)) (resource : ResourceKey) : Excused view m resource t := by
  rcases outcome with (e | _ | _) | result
  · rcases PublicCall.invoke_error hsound hrun with ⟨rfl, _⟩ | ⟨_, hsteps, _⟩
    · exact .inl rfl
    · exact Steps.excused hwal hsound htruthful hsteps resource
  · obtain ⟨u, hsteps, hdown⟩ := PublicCall.invoke_crashed hsound hrun
    have hexcused := Steps.excused hwal hsound htruthful hsteps resource
    rcases hdown with ⟨call, w', _, hstep, rfl⟩ | ⟨event, wal, _, _, rfl⟩
    · exact Steps.excused hwal hsound htruthful (hsteps.trans (.single hstep)) resource
    · exact hexcused.of_grown (u.log_subset_appended event .crashed wal) rfl
  · exact absurd hrun (call.invoke_never_panics hsound t)
  · exact Steps.excused hwal hsound htruthful (PublicCall.invoke_ok hsound hrun).2.1 resource

/-- Up to `s`, and to a crash of the call that is running there, an apply overwrites the recorded
baseline of its change and a restore the recorded desired value. A resource that holds any other
value when a call is issued on `s` keeps it. -/
structure DriftKept (view : W → ResourceKey → V) (s : Stage V W ω) : Prop where
  applies : ∀ m before event after, Crashes s.machine m → m.trace = before ++ event :: after →
    ∀ changeId request reply, event.call = .apply changeId request reply →
      ∃ change, Recorded (logOf before) change ∧ change.changeId = changeId ∧
        change.prepared = request.prepared ∧
        view event.world change.resource = change.prepared.baseline.value
  restores : ∀ m before event after, Crashes s.machine m → m.trace = before ++ event :: after →
    ∀ changeId request reply, event.call = .restore changeId request reply →
      ∃ change, Recorded (logOf before) change ∧ change.changeId = changeId ∧
        change.prepared = request.prepared ∧
        view event.world change.resource = change.prepared.desired.value
  kept : ∀ (call : PublicCall V) outcome t, call.invoke s.machine = (outcome, t) → ∀ resource,
    view t.world resource ≠ view s.machine.world resource →
    ∃ change, Recorded t.log change ∧ change.resource = resource ∧
      (view s.machine.world resource = change.prepared.baseline.value ∨
        view s.machine.world resource = change.prepared.desired.value)

/-- Whatever other parties write between the public calls, no call overwrites it. -/
theorem external_drift_not_overwritten {view : W → ResourceKey → V} (hwal : AppendOnly ω)
    (hreach : Reachable env w₀ s) (htruthful : Truthful view s.machine.kernel.capabilities) :
    DriftKept view s := by
  have hsound := hreach.sound hwal
  have hfound : ∀ {m : Machine V W ω} {before event after}, Crashes s.machine m →
      m.trace = before ++ event :: after → ∀ operation changeId request,
      event.call.effect = some (operation, changeId, request) →
      ∃ change, Recorded (logOf before) change ∧ change.changeId = changeId ∧
        change.prepared = request.prepared ∧
        view event.world change.resource = change.prepared.found operation := by
    intro m before event after hcrash htrace operation changeId request heffect
    have hdisciplined := (RunInvariant.disciplined hwal).crashed hwal hreach hcrash
    obtain ⟨⟨change, hrecorded, hid, hat, hprepared⟩, hfound⟩ :=
      (hdisciplined.orderly before event after htrace).inPlace operation changeId request heffect
    refine ⟨change, hrecorded, hid, hprepared, ?_⟩
    rw [hat, hprepared]
    refine hfound view ?_
    rw [(hcrash.extends hsound).capabilities]
    exact htruthful
  refine ⟨?_, ?_, ?_⟩
  · intro m before event after hcrash htrace changeId request reply hcall
    exact hfound hcrash htrace .apply changeId request (by rw [hcall]; rfl)
  · intro m before event after hcrash htrace changeId request reply hcall
    exact hfound hcrash htrace .restore changeId request (by rw [hcall]; rfl)
  · intro call outcome t hrun resource hchanged
    exact (call.excused hwal hsound htruthful hrun resource).resolve_left hchanged

end Values

section DriftTest

open TestFixture

/-- Another party writes a third value to the resource of an experiment. -/
theorem external_drift_not_overwritten_third :
    ∃ s : TestStage, s.machine.kernel.resourceHeads[resourceA]? = some changeA ∧
      s.machine.world.current resourceA = .text "other" ∧ DriftKept FakeWorld.current s := by
  obtain ⟨s, hrun, hhead⟩ := (Option.any_eq_true
    (fun s : TestStage => s.machine.kernel.resourceHeads[resourceA]? = some changeA)
    (runTest transactionId [] [] [tryA])).mp (by decide +kernel)
  obtain ⟨hreach, _, _, hcapabilities⟩ := reachable_runTest hrun
  let drifted : TestStage :=
    ⟨{ s.machine with world := ⟨fun _ => .text "other", []⟩ }, s.candidate⟩
  have hwritten : Reachable (fun _ _ => True) (world []) drifted := hreach.next (.written trivial)
  refine ⟨drifted, of_decide_eq_true hhead, rfl,
    external_drift_not_overwritten MemoryWal.allOrNothing.toAppendOnly hwritten ?_⟩
  change Truthful FakeWorld.current s.machine.kernel.capabilities
  rw [hcapabilities]
  exact testSnapshot_honest.toTruthful

end DriftTest

end ScxAgent
