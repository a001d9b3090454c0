import ScxAgent.Control.Consistency

/-!
# What failed requests change

A compare-and-set request that is answered with an error, without a fatal error, has changed no copy
of a rule, with one exception: the rule was set and published, and could then not be read back for the
answer.
-/

namespace ScxAgent.Control

open StepLogic OutcomeLogic FileReplace Rules Scheduler Option

/-- The request is valid and asks for this change. -/
structure Asks (request : ControlRequest) (comm : Comm) (expected desired : RuleState) : Prop where
  valid : request.validate = .ok ()
  op : request.op = .compareAndSetRule
  name : request.comm = some comm.value
  expects : ∃ state, request.expected = some state ∧ state.toState = .ok expected
  desires : ∃ state, request.desired = some state ∧ state.toState = .ok desired

variable {request : ControlRequest}

theorem Asks.unique {comm comm' : Comm} {expected expected' desired desired' : RuleState}
    (h : Asks request comm expected desired) (h' : Asks request comm' expected' desired') :
    comm = comm' ∧ expected = expected' ∧ desired = desired' := by
  obtain ⟨state, hexpected, hstate⟩ := h.expects
  obtain ⟨_, hexpected', hstate'⟩ := h'.expects
  obtain ⟨wanted, hdesired, hwanted⟩ := h.desires
  obtain ⟨_, hdesired', hwanted'⟩ := h'.desires
  cases hexpected.symm.trans hexpected'
  cases hdesired.symm.trans hdesired'
  refine ⟨Comm.ext_value (some.inj (h.name.symm.trans h'.name)), ?_, ?_⟩
  · exact Except.ok.inj (hstate.symm.trans hstate')
  · exact Except.ok.inj (hwanted.symm.trans hwanted')

theorem exists_asks (hvalid : request.validate = .ok ()) (hop : request.op = .compareAndSetRule) :
    ∃ comm expected desired, Asks request comm expected desired := by
  have hfields := ControlRequest.fieldsMatch_of_validate hvalid
  simp only [ControlRequest.fieldsMatch, hop, Bool.and_eq_true, any_eq_true] at hfields
  obtain ⟨⟨⟨⟨name, hname, hcomm⟩, -⟩, expected, hexpected, hexpects⟩, desired, hdesired, hdesires⟩ :=
    hfields
  obtain ⟨expectedState, hexpectedState⟩ := WireState.toState_of_isValid hexpects
  obtain ⟨desiredState, hdesiredState⟩ := WireState.toState_of_isValid hdesires
  have hok : validateComm name = .ok () := by
    cases hcheck : validateComm name with
    | ok _ => rfl
    | error error => rw [ControlRequest.validComm, hcheck] at hcomm; cases hcomm
  exact ⟨⟨name, hok⟩, expectedState, desiredState, hvalid, hop, hname, ⟨expected, hexpected,
    hexpectedState⟩, desired, hdesired, hdesiredState⟩

/-- No copy of a rule differs, apart from the revision. -/
structure Unchanged (os : Platform) (d d' : Daemon) : Prop where
  learned : d'.ruleStore.map (·.rules.learned) = d.ruleStore.map (·.rules.learned)
  persisted_eq : ∀ store, d.ruleStore = some store →
    (persisted os store.path d'.disk).map Prod.fst = (persisted os store.path d.disk).map Prod.fst
  rules : d'.bpf.rules = d.bpf.rules

variable {error : String}

section Changes

variable {os : Platform} {base : Rules.RuleTable} {d d' : Daemon} {comm : Comm}
  {expected desired : RuleState} {store : RuleStore} {next : RuleSet}

theorem Reads.unchanged (h : Reads d d') : Unchanged os d d' where
  learned := by rw [h.store]
  persisted_eq := fun store hstore => by rw [persisted, h.file store hstore, persisted]
  rules := h.rules

/-- Going back to the same learned rules leaves nothing but the revision changed. -/
theorem Moved.unchanged (hmoved : Moved comm store next d d') (hstore : d.ruleStore = some store)
    (hlearned : next.learned = store.rules.learned)
    (heffective : next.effective = store.rules.effective) (h : Consistent os base d) :
    Unchanged os d d' where
  learned := by rw [hmoved.now, hstore, map_some, map_some, hlearned]
  persisted_eq := fun store' hstore' => by
    cases hstore.symm.trans hstore'
    rw [h.stored store hstore, persisted_of_canonical hmoved.file, hlearned]
    rfl
  rules := by
    have hmirrors := h.mirrors
    rw [Daemon.effective, hstore] at hmirrors
    rw [hmoved.rules, heffective]
    exact hmirrors.publish_same comm

theorem Moved.changed (hmoved : Moved comm store next d d') (hstore : d.ruleStore = some store)
    (hnext : Succeeds comm expected desired store.rules next) : ¬ Unchanged os d d' := by
  intro h
  have hlearned := h.learned
  rw [hmoved.now, hstore, map_some, map_some, some.injEq, hnext.learned] at hlearned
  exact RuleStore.learnedAfter_ne (hnext.was ▸ hnext.changes) hlearned

theorem Change.unchanged_of_error (hchange : Change comm expected desired d (.error error) d')
    (h : Consistent os base d) (hfatal : d'.fatalControlError = none) : Unchanged os d d' := by
  cases hchange with
  | kept hreads => exact hreads.unchanged
  | rolledBack hstore hnext hback hmoved =>
    obtain ⟨hlearned, heffective⟩ := hnext.back hback
    exact hmoved.unchanged hstore hlearned heffective h
  | fatal hraised => exact absurd hfatal hraised

end Changes

section Requests

variable [Sha256] {os : Platform} {base : Rules.RuleTable} {d d' : Daemon} {request : ControlRequest}
  {comm : Comm} {expected desired : RuleState} {cas : CasResult}

theorem Asks.handle (h : Asks request comm expected desired) :
    handleControlInner os request = answerChange os request.requestId comm expected desired := by
  obtain ⟨state, hexpected, hstate⟩ := h.expects
  obtain ⟨state', hdesired, hstate'⟩ := h.desires
  have hcomm : Comm.new comm.value = .ok comm := Comm.new_eq_ok.mpr rfl
  simp only [handleControlInner, h.valid, h.op, compareAndSetRule, h.name, hexpected, hdesired, hstate,
    hstate', hcomm, validated, StepLogic.ofExcept, pure_bind]

theorem handleControl_ok {response : ControlResponse}
    (h : handleControlInner os request d = (.ok response, d')) :
    handleControl os request d = (.ok response, d') := by
  rw [handleControl, bind_ok (b := .ok response) (t := d')]
  · rfl
  · rw [attempt, h]
    rfl

theorem handleControl_error (h : handleControlInner os request d = (.error (.error error), d')) :
    handleControl os request d =
      (.ok (controlResponse d' request.requestId .error none [] (some error)), d') := by
  rw [handleControl, bind_ok (b := .error error) (t := d')]
  · rfl
  · rw [attempt, h]
    rfl

/-- The change was made and published, and the rule could then not be read back. -/
def ReadBackFails (os : Platform) (request : ControlRequest) (d : Daemon) : Prop :=
  ∃ comm expected desired, Asks request comm expected desired ∧ ∃ cas d₁ error d₂,
    changeRule os comm expected desired d = (.ok cas, d₁) ∧ cas.status = .applied ∧
      ruleObservation os comm d₁ = (.error (.error error), d₂)

/-- The claim that a failed request without a fatal error has changed no rule. -/
def FailsClean (os : Platform) (request : ControlRequest) (d : Daemon) : Prop :=
  ∀ response d', handleControl os request d = (.ok response, d') → response.status = .error →
    d'.fatalControlError = none → Unchanged os d d'

theorem FailsClean.of_error (hrun : handleControlInner os request d = (.error (.error error), d'))
    (h : d'.fatalControlError = none → Unchanged os d d') : FailsClean os request d := by
  intro response d'' hhandled _ hfatal
  cases (handleControl_error hrun).symm.trans hhandled
  exact h hfatal

omit [Sha256] in
theorem answer_ne_error (status : CasStatus) : (CasStatus.answer status).1 ≠ .error := by
  cases status <;> exact nofun

section Asking

variable (hasks : Asks request comm expected desired)
include hasks

omit [Sha256] in
theorem ReadBackFails.cases (h : ReadBackFails os request d) : ∃ cas d₁ error d₂,
      changeRule os comm expected desired d = (.ok cas, d₁) ∧ cas.status = .applied ∧
        ruleObservation os comm d₁ = (.error (.error error), d₂) := by
  obtain ⟨_, _, _, hasks', hrest⟩ := h
  obtain ⟨rfl, rfl, rfl⟩ := hasks.unique hasks'
  exact hrest

/-- A change that has failed has failed clean. -/
theorem failsClean_of_change_error
    (hrun : changeRule os comm expected desired d = (.error (.error error), d'))
    (hchange : Change comm expected desired d (.error error) d')
    (hconsistent : Consistent os base d) :
    FailsClean os request d ↔ ¬ ReadBackFails os request d := by
  have hinner : handleControlInner os request d = (.error (.error error), d') := by
    rw [hasks.handle, answerChange, bind_error hrun]
  refine iff_of_true (.of_error hinner (hchange.unchanged_of_error hconsistent)) fun h => ?_
  obtain ⟨_, _, _, _, hrun', -⟩ := h.cases hasks
  cases hrun.symm.trans hrun'

/-- A change that was read back is answered without an error. -/
theorem failsClean_of_read_back {d₁ d₂ : Daemon} {observation : RuleObservation}
    (hrun : changeRule os comm expected desired d = (.ok cas, d₁))
    (hread : ruleObservation os comm d₁ = (.ok observation, d₂)) :
    FailsClean os request d ↔ ¬ ReadBackFails os request d := by
  have hinner : handleControlInner os request d = (.ok (controlResponse d₂ request.requestId
      (CasStatus.answer cas.status).1 (some cas.current) [observation]
      (CasStatus.answer cas.status).2), d₂) := by
    rw [hasks.handle, answerChange, bind_ok hrun, bind_ok hread]
    rfl
  refine iff_of_true (fun response d' hhandled hstatus _ => ?_) fun h => ?_
  · cases (handleControl_ok hinner).symm.trans hhandled
    exact absurd hstatus (answer_ne_error cas.status)
  · obtain ⟨_, _, _, _, hrun', -, hread'⟩ := h.cases hasks
    cases hrun.symm.trans hrun'
    cases hread.symm.trans hread'

/-- A change that could not be read back has failed clean exactly if there was none. -/
theorem failsClean_of_read_error {d₁ d₂ : Daemon}
    (hrun : changeRule os comm expected desired d = (.ok cas, d₁))
    (hchange : Change comm expected desired d (.ok cas) d₁)
    (hread : ruleObservation os comm d₁ = (.error (.error error), d₂)) (hreads : Reads d₁ d₂)
    (hserving : d.fatalControlError = none) :
    FailsClean os request d ↔ ¬ ReadBackFails os request d := by
  have hinner : handleControlInner os request d = (.error (.error error), d₂) := by
    rw [hasks.handle, answerChange, bind_ok hrun, bind_error hread]
  cases hchange with
  | kept hkept hstatus =>
    refine iff_of_true (.of_error hinner fun _ => Reads.unchanged (hkept.then_reads hreads)) fun h => ?_
    obtain ⟨_, _, _, _, hrun', happlied, -⟩ := h.cases hasks
    cases hrun.symm.trans hrun'
    exact hstatus cas rfl happlied
  | applied hstore hnext hstatus hmoved =>
    have hmoved' := hmoved.then_reads hreads
    refine iff_of_false (fun hclean => ?_) (not_not.mpr ⟨comm, expected, desired, hasks, cas, d₁,
      error, d₂, hrun, hstatus, hread⟩)
    exact hmoved'.changed hstore hnext
      (hclean _ _ (handleControl_error hinner) rfl (hmoved'.fatal.trans hserving))

end Asking

end Requests

section FirstRule

theorem startedDaemon_consistent :
    Consistent freshPlatform ∅ startedDaemon ∧ startedDaemon.fatalControlError = none := by
  have hstarted : Settles (startUp freshPlatform (some RuleStore.fresh.path.given) ∅) Daemon.fresh
      (fun _ d => Consistent freshPlatform ∅ d ∧ d.fatalControlError = none) (fun _ _ => True) :=
    startUp_settles _ ⟨fun _ => rfl, rfl⟩
  have hok : (startUp freshPlatform (some RuleStore.fresh.path.given) ∅ Daemon.fresh).1 = .ok () := by
    decide +kernel
  rcases hstarted.cases with ⟨_, d, hrun, h⟩ | ⟨_, _, hrun, -⟩
  · rw [startedDaemon, hrun]
    exact h
  · rw [hrun] at hok
    cases hok

/-- The tenth call on the directory fails, which is the one that reads the file back. -/
def unreadableDaemon : Daemon :=
  { startedDaemon with disk := { startedDaemon.disk with
      faults := fun n => if n = 9 then some ⟨false, "Input/output error (os error 5)", 0⟩ else none } }

def ffmpeg : Comm := ⟨"ffmpeg", ffmpeg_valid⟩

def unreadableAnswer : Except (Halt String) ControlResponse × Daemon :=
  @handleControl freshPlatform constantHash firstRequest unreadableDaemon

end FirstRule

end ScxAgent.Control
