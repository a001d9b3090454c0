import ScxAgent.Rules.StoreRuns
import ScxAgent.Scheduler.RuleGenerations
import ScxAgent.Control.Handler

/-!
# The three copies of a rule

Over every run of the daemon, whatever calls fail, the BPF map, the memory of the store and its file
agree on every rule unless a fatal error has been raised. `Change` says all that a compare-and-set
request can do to them.
-/

namespace ScxAgent.Control

open StepLogic OutcomeLogic FileReplace Rules Scheduler Function

/-- Only the rules map may have changed, to `map`. -/
structure Published (map : RuleKey → Option UInt32) (d d' : Daemon) : Prop where
  store : d'.ruleStore = d.ruleStore
  file : ∀ store, d.ruleStore = some store →
    d'.disk.files store.path.fileName = d.disk.files store.path.fileName
  rules : d'.bpf.rules = map
  fatal : d'.fatalControlError = d.fatalControlError

/-- No copy of a rule has changed. -/
abbrev Reads (d d' : Daemon) : Prop := Published d.bpf.rules d d'

theorem Published.trans {map' : RuleKey → Option UInt32} {d'' : Daemon} (h : Published map d d')
    (h' : Published map' d' d'') : Published map' d d'' where
  store := h'.store.trans h.store
  file := fun store hstore => (h'.file store (h.store.trans hstore)).trans (h.file store hstore)
  rules := h'.rules
  fatal := h'.fatal.trans h.fatal

variable {map : RuleKey → Option UInt32} {d'' d' d : Daemon}

theorem Published.then_reads (h : Published map d d') (h' : Reads d' d'') :
    Published map d d'' := by
  have hboth := h.trans h'
  rwa [h.rules] at hboth

theorem Reads.then_published (h : Reads d d') (h' : Published map d' d'') :
    Published map d d'' := h.trans h'

theorem Reads.refl (d : Daemon) : Reads d d := ⟨rfl, fun _ _ => rfl, rfl, rfl⟩

/-! ## What the parts of the handler change -/

section Calls

variable {d : Daemon} {comm : Comm} {E : String → Daemon → Prop}

theorem mapCall_settles {α : Type} (effect : BpfSide → α × BpfSide) :
    Settles (mapCall effect) d
      (fun r d' => (∃ error, r = .error error) ∧ Reads d d' ∨
        r = .ok (effect { d.bpf with calls := d.bpf.calls + 1 }).1 ∧
          d' = { d with bpf := (effect { d.bpf with calls := d.bpf.calls + 1 }).2 }) E := by
  cases hfault : d.bpf.faults d.bpf.calls with
  | some error =>
    refine .of_run (a := .error error)
      (t := { d with bpf := { d.bpf with calls := d.bpf.calls + 1 } }) ?_
      (.inl ⟨⟨error, rfl⟩, rfl, fun _ _ => rfl, rfl, rfl⟩)
    simp only [mapCall, hfault]
  | none =>
    refine .of_run (a := .ok (effect { d.bpf with calls := d.bpf.calls + 1 }).1)
      (t := { d with bpf := (effect { d.bpf with calls := d.bpf.calls + 1 }).2 }) ?_
      (.inr ⟨rfl, rfl⟩)
    simp only [mapCall, hfault]

theorem lookupRule_settles :
    Settles (lookupRule comm) d
      (fun r d' => Reads d d' ∧ ∀ value, r = .ok value → value = d.bpf.rules comm.asBpfKey) E := by
  refine (mapCall_settles _).conseq (fun r d' h => ?_) fun _ _ h => h
  rcases h with ⟨⟨error, rfl⟩, hreads⟩ | ⟨rfl, rfl⟩
  · exact ⟨hreads, nofun⟩
  · exact ⟨⟨rfl, fun _ _ => rfl, rfl, rfl⟩, fun value hvalue => (Except.ok.inj hvalue).symm⟩

theorem writeRule_settles (id : Option UInt32) :
    Settles (writeRule comm id) d
      (fun r d' => (∃ error, r = .error error) ∧ Reads d d' ∨
        r = .ok () ∧ Published (update d.bpf.rules comm.asBpfKey id) d d') E := by
  refine (mapCall_settles _).conseq (fun r d' h => ?_) fun _ _ h => h
  rcases h with hfailed | ⟨rfl, rfl⟩
  · exact .inl hfailed
  · exact .inr ⟨rfl, rfl, fun _ _ => rfl, rfl, rfl⟩

theorem updateRule_settles (state : RuleState) :
    Settles (updateRule comm state) d
      (fun _ d' => Published (ruleAfter d.bpf.rules comm state) d d') (fun _ d' => Reads d d') := by
  cases state with
  | present ruleClass =>
    refine (writeRule_settles _).bind fun r d' h => ?_
    rcases h with ⟨⟨error, rfl⟩, hreads⟩ | ⟨rfl, hpublished⟩
    · exact .raise hreads
    · exact .pure hpublished
  | absent =>
    refine lookupRule_settles.bind fun r d' ⟨hreads, hvalue⟩ => ?_
    match r with
    | .error error => exact .raise hreads
    | .ok none =>
      rw [ruleAfter_absent_of_none (hvalue none rfl).symm]
      exact .pure hreads
    | .ok (some id) =>
      refine (writeRule_settles _).bind fun r' d'' h => ?_
      rcases h with ⟨⟨error, rfl⟩, hreads'⟩ | ⟨rfl, hpublished⟩
      · exact .raise (hreads.then_reads hreads')
      · rw [hreads.rules] at hpublished
        exact .pure (hreads.then_published hpublished)

theorem writeRulesSeq_settles (value : UInt64) :
    Settles (writeRulesSeq value) d (fun _ d' => Reads d d') E :=
  .of_run rfl ⟨rfl, fun _ _ => rfl, rfl, rfl⟩

/-- A publication sets the rule in the map, or changes nothing there. -/
theorem publishRule_settles (state : RuleState) :
    Settles (publishRule comm state) d
      (fun _ d' => Published (ruleAfter d.bpf.rules comm state) d d') (fun _ d' => Reads d d') := by
  refine Settles.seq (.of_run rfl ?_)
  refine (writeRulesSeq_settles _).bind fun _ d₁ h₁ => ?_
  refine Settles.seq (.attempt ((updateRule_settles state).conseq ?_ ?_))
  · intro _ d₂ h₂
    rw [h₁.rules] at h₂
    refine (writeRulesSeq_settles _).bind fun _ d₃ h₃ => ?_
    exact .pure ((h₁.then_published h₂).then_reads h₃)
  · intro error d₂ h₂
    refine (writeRulesSeq_settles _).bind fun _ d₃ h₃ => ?_
    exact .raise ((h₁.then_reads h₂).then_reads h₃)

theorem activeRule_settles :
    Settles (activeRule comm) d
      (fun active d' => Reads d d' ∧ classOfId (d.bpf.rules comm.asBpfKey) = .ok active)
      (fun _ d' => Reads d d') := by
  refine lookupRule_settles.bind fun r d' ⟨hreads, hvalue⟩ => ?_
  refine .orRaise_then (fun value hr => ?_) fun _ _ => hreads
  rw [← hvalue value hr]
  exact .ofExcept (fun active hactive => ⟨hreads, hactive⟩) fun _ _ => hreads

theorem clearRuleMiss_settles : Settles (clearRuleMiss comm) d (fun _ d' => Reads d d') E := by
  refine (mapCall_settles _).bind fun r d₁ h₁ => ?_
  have hreads : Reads d d₁ := by
    rcases h₁ with ⟨-, hreads⟩ | ⟨-, rfl⟩
    · exact hreads
    · exact ⟨rfl, fun _ _ => rfl, rfl, rfl⟩
  match r with
  | .error error => exact .of_run rfl ⟨hreads.store, hreads.file, hreads.rules, hreads.fatal⟩
  | .ok false => exact .of_run rfl ⟨hreads.store, hreads.file, hreads.rules, hreads.fatal⟩
  | .ok true =>
    refine (mapCall_settles _).bind fun r' d₂ h₂ => ?_
    have hreads' : Reads d₁ d₂ := by
      rcases h₂ with ⟨-, hreads'⟩ | ⟨-, rfl⟩
      · exact hreads'
      · exact ⟨rfl, fun _ _ => rfl, rfl, rfl⟩
    have hboth := hreads.then_reads hreads'
    exact .of_run rfl ⟨hboth.store, hboth.file, hboth.rules, hboth.fatal⟩

theorem clearIfPresent_settles (state : RuleState) :
    Settles (clearIfPresent comm state) d (fun _ d' => Reads d d') E := by
  cases state with
  | absent => exact .pure (.refl d)
  | present _ => exact clearRuleMiss_settles

theorem enabledStore_settles :
    Settles enabledStore d (fun store d' => d' = d ∧ d.ruleStore = some store)
      (fun _ d' => d' = d ∧ d.ruleStore = none) := by
  unfold Settles Follows enabledStore
  cases hstore : d.ruleStore with
  | none => exact ⟨.refl d, rfl, rfl⟩
  | some store => exact ⟨.refl d, rfl, rfl⟩

variable (os : Platform)

theorem persistedSnapshot_settles :
    Settles (persistedSnapshot os) d (fun _ d' => Reads d d') (fun _ d' => Reads d d') := by
  refine (enabledStore_settles.conseq (fun _ _ h => h) ?_).bind fun store d₁ ⟨hsame, hstore⟩ => ?_
  · rintro _ _ ⟨rfl, -⟩
    exact .refl _
  subst hsame
  refine Settles.seq (.focus (loadDocument_settles.conseq ?_ ?_))
  · rintro _ disk ⟨hidle, -⟩
    exact .pure ⟨rfl, fun store _ => congrFun hidle.files _, rfl, rfl⟩
  · rintro _ disk ⟨hidle, -⟩
    exact ⟨rfl, fun store _ => congrFun hidle.files _, rfl, rfl⟩

theorem ruleObservationWithPersisted_settles (learned : Rules.RuleTable) (matchesStore : Bool) :
    Settles (ruleObservationWithPersisted comm learned matchesStore) d (fun _ d' => Reads d d')
      (fun _ d' => Reads d d') := by
  refine (enabledStore_settles.conseq (fun _ _ h => h) ?_).bind fun store d₁ ⟨hsame, _⟩ => ?_
  · rintro _ _ ⟨rfl, -⟩
    exact .refl _
  subst hsame
  refine activeRule_settles.bind fun active d₂ ⟨hreads, _⟩ => ?_
  exact Settles.seq (.of_run rfl (.pure hreads))

theorem ruleObservation_settles :
    Settles (ruleObservation os comm) d (fun _ d' => Reads d d') (fun _ d' => Reads d d') := by
  refine (persistedSnapshot_settles os).bind fun _ d₁ h₁ => ?_
  exact (ruleObservationWithPersisted_settles _ _).conseq (fun _ _ h => h₁.then_reads h)
    fun _ _ h => h₁.then_reads h

end Calls

/-! ## The map mirrors the table -/

/-- The map holds exactly the rules of the table, as far as names are concerned. -/
def Mirrors (map : RuleKey → Option UInt32) (table : Rules.RuleTable) : Prop :=
  ∀ comm : Comm, map comm.asBpfKey = table[comm]?.map RuleClass.asBpfId

variable {table : Rules.RuleTable} {comm : Comm}

/-- Publishing the rule of one name, where the tables agree on all others. -/
theorem Mirrors.publish {table' : Rules.RuleTable} (h : Mirrors map table)
    (hothers : ∀ other ≠ comm, table'[other]? = table[other]?) :
    Mirrors (ruleAfter map comm (.fromOption table'[comm]?)) table' := by
  intro other
  rw [ruleAfter, RuleState.toClass_fromOption]
  by_cases heq : other = comm
  · rw [heq, update_self]
  · rw [update_of_ne fun hkey => heq (Comm.asBpfKey_injective hkey), h, hothers other heq]

/-- Publishing a rule that is there already. -/
theorem Mirrors.publish_same (h : Mirrors map table) (comm : Comm) :
    ruleAfter map comm (.fromOption table[comm]?) = map := by
  rw [ruleAfter, RuleState.toClass_fromOption, ← h, update_eq_self]

theorem Mirrors.classOfId (h : Mirrors map table) (comm : Comm) :
    classOfId (map comm.asBpfKey) = .ok table[comm]? := by
  rw [h comm]
  cases table[comm]? with
  | none => rfl
  | some ruleClass => simp [Control.classOfId]

/-! ## What a compare-and-set request changes -/

/-- The rules of the base and, where there is a store, those of the store. -/
def Daemon.effective (base : Rules.RuleTable) (d : Daemon) : Rules.RuleTable :=
  (d.ruleStore.map (·.rules.effective)).getD base

/-- The map mirrors the effective rules, and the file holds the learned ones. -/
structure Consistent (os : Platform) (base : Rules.RuleTable) (d : Daemon) : Prop where
  mirrors : Mirrors d.bpf.rules (d.effective base)
  stored : ∀ store, d.ruleStore = some store →
    persisted os store.path d.disk = .ok (store.rules.learned, store.rules.revision)

/-- The store and its file have moved on to `next`, and the map shows its rule of `comm`. -/
structure Moved (comm : Comm) (store : RuleStore) (next : RuleSet) (d d' : Daemon) : Prop where
  now : d'.ruleStore = some { store with rules := next }
  file : d'.disk.files store.path.fileName = some next.canonicalLearnedJson
  rules : d'.bpf.rules = ruleAfter d.bpf.rules comm (.fromOption next.effective[comm]?)
  fatal : d'.fatalControlError = d.fatalControlError

/-- All that a change can do to a consistent daemon. -/
inductive Change (comm : Comm) (expected desired : RuleState) (d : Daemon) :
    Except String CasResult → Daemon → Prop
  | kept {r : Except String CasResult} {d' : Daemon} (hreads : Reads d d')
    (hstatus : ∀ cas, r = .ok cas → cas.status ≠ .applied) : Change comm expected desired d r d'
  | applied {cas : CasResult} {d' : Daemon} {store : RuleStore} {next : RuleSet}
    (hstore : d.ruleStore = some store) (hnext : Succeeds comm expected desired store.rules next)
    (hstatus : cas.status = .applied) (hmoved : Moved comm store next d d') :
    Change comm expected desired d (.ok cas) d'
  | rolledBack {error : String} {d' : Daemon} {store : RuleStore} {next last : RuleSet}
    (hstore : d.ruleStore = some store) (hnext : Succeeds comm expected desired store.rules next)
    (hback : Succeeds comm desired expected next last) (hmoved : Moved comm store last d d') :
    Change comm expected desired d (.error error) d'
  | fatal {error : String} {d' : Daemon} (h : d'.fatalControlError ≠ none) :
    Change comm expected desired d (.error error) d'

section Changes

variable {os : Platform} {d : Daemon} {comm : Comm} {expected desired : RuleState}

theorem storeCompareAndSet_settles :
    Settles (storeCompareAndSet os comm expected desired) d
      (fun cas d' => ∃ store k', d.ruleStore = some store ∧
        CasOutcome comm expected desired ⟨store, d.disk⟩ (.ok cas) k' ∧
        d' = { d with ruleStore := some k'.store, disk := k'.disk })
      (fun error d' => d' = d ∧ d.ruleStore = none ∨ ∃ store k', d.ruleStore = some store ∧
        CasOutcome comm expected desired ⟨store, d.disk⟩ (.error error) k' ∧
        d' = { d with ruleStore := some k'.store, disk := k'.disk }) := by
  refine (enabledStore_settles.conseq (fun _ _ h => h) fun _ _ h => .inl h).bind
    fun store d₁ ⟨hsame, hstore⟩ => ?_
  subst hsame
  exact .focus ((Keeper.compareAndSet_outcome os).conseq
    (fun cas k' h => ⟨store, k', hstore, h, rfl⟩) fun error k' h => .inr ⟨store, k', hstore, h, rfl⟩)

variable {next : RuleSet} {store : RuleStore}

theorem Moved.then_reads (h : Moved comm store next d d') (h' : Reads d' d'') :
    Moved comm store next d d'' where
  now := h'.store.trans h.now
  file := (h'.file _ h.now).trans h.file
  rules := h'.rules.trans h.rules
  fatal := h'.fatal.trans h.fatal

variable {cas : CasResult}

/-- In a consistent daemon there is nothing to reconcile. -/
theorem reconcileRule_settles (hmirrors : Mirrors d.bpf.rules table)
    (heffective : cas.effective.toClass = table[comm]?) :
    Settles (reconcileRule comm cas) d (fun cas' d' => Reads d d' ∧ cas' = cas)
      (fun _ d' => Reads d d') := by
  refine activeRule_settles.bind fun active d₁ ⟨hreads, hactive⟩ => ?_
  rw [hmirrors.classOfId, Except.ok.injEq] at hactive
  rw [if_pos (hactive.symm.trans heffective.symm)]
  refine (clearIfPresent_settles _).bind fun _ d₂ h₂ => ?_
  exact .pure ⟨hreads.then_reads h₂, rfl⟩

theorem refuseRule_settles (error : String) :
    Settles (refuseRule error) d (fun _ _ => False)
      (fun _ d' => d'.fatalControlError ≠ none ∨
        d.ruleStore.any RuleStore.persistenceUncertain = false ∧ d' = d) := by
  refine Settles.seq (.of_run rfl ?_)
  by_cases huncertain : d.ruleStore.any RuleStore.persistenceUncertain
  · rw [if_pos huncertain]
    exact Settles.seq (.of_run rfl (.raise (.inl (Option.some_ne_none _))))
  · rw [if_neg huncertain]
    exact .raise (.inr ⟨Bool.eq_false_iff.mpr huncertain, rfl⟩)

/-- The rollback of a rule that was just set, where it goes through. -/
theorem rollBackRule_settles (hstore : d.ruleStore = some { store with rules := next })
    (hnow : next.learnedState comm = cas.current) (hne : cas.current ≠ cas.previous) :
    Settles (rollBackRule os comm cas) d
      (fun _ d' => ∃ last, Succeeds comm cas.current cas.previous next last ∧
        Moved comm store last d d') (fun _ _ => True) := by
  refine Settles.seq (.attempt (storeCompareAndSet_settles.conseq ?_ ?_))
  swap
  · intro _ _ _
    exact .orRaise_then nofun fun _ _ => trivial
  rintro rollback d₁ ⟨store', k', hstore', houtcome, rfl⟩
  cases hstore.symm.trans hstore'
  cases houtcome with
  | conflict _ hexpected => exact absurd hnow hexpected
  | noop _ _ hsame => exact absurd hsame hne
  | applied disk last hlast hreplaced =>
    refine .orRaise_then (fun rollback hrollback => ?_) nofun
    cases hrollback
    refine Settles.seq (.attempt ((publishRule_settles _).conseq ?_ ?_))
    · intro _ d₂ hpublished
      exact .pure ⟨last, hlast, hpublished.store,
        (hpublished.file _ rfl).trans hreplaced.contents, hpublished.rules, hpublished.fatal⟩
    · intro _ _ _
      exact .raise trivial

theorem publishApplied_settles {disk : Directory} (hstore : d.ruleStore = some store)
    (hnext : Succeeds comm expected desired store.rules next)
    (hfile : disk.files store.path.fileName = some next.canonicalLearnedJson)
    (hcas : cas = RuleStore.casResult { store with rules := next } .applied comm (store.rules.learnedState comm) desired) :
    Settles (publishApplied os comm cas)
      { d with ruleStore := some { store with rules := next }, disk }
      (fun cas d' => Change comm expected desired d (.ok cas) d')
      (fun error d' => Change comm expected desired d (.error error) d') := by
  subst hcas
  refine Settles.seq (.attempt ((publishRule_settles _).conseq ?_ ?_))
  · intro _ d₁ h₁
    refine (clearIfPresent_settles _).bind fun _ d₂ h₂ => .pure ?_
    have hmoved : Moved comm store next d d₁ :=
      ⟨h₁.store, (h₁.file _ rfl).trans hfile, h₁.rules, h₁.fatal⟩
    exact .applied hstore hnext rfl (hmoved.then_reads h₂)
  · intro error d₁ h₁
    have hne : desired ≠ store.rules.learnedState comm := hnext.was ▸ hnext.changes.symm
    refine Settles.seq (.attempt ((rollBackRule_settles h₁.store hnext.now hne).conseq ?_ ?_))
    · rintro _ d₂ ⟨last, hlast, hmoved⟩
      refine .raise (.rolledBack hstore hnext (hnext.was ▸ hlast) ?_)
      exact ⟨hmoved.now, hmoved.file, hmoved.rules.trans (by rw [h₁.rules]),
        hmoved.fatal.trans h₁.fatal⟩
    · intro _ d₂ _
      exact Settles.seq (.of_run rfl (.raise (.fatal (Option.some_ne_none _))))

theorem changeRule_settles {base : Rules.RuleTable} (h : Consistent os base d) :
    Settles (changeRule os comm expected desired) d
      (fun cas d' => Change comm expected desired d (.ok cas) d')
      (fun error d' => Change comm expected desired d (.error error) d') := by
  refine (enabledStore_settles.conseq (fun _ _ h => h) ?_).bind fun store d₁ ⟨hsame, hstore⟩ => ?_
  · rintro _ _ ⟨rfl, -⟩
    exact .kept (.refl _) nofun
  subst hsame
  have hmirrors : Mirrors d₁.bpf.rules store.rules.effective := by
    have hm := h.mirrors
    rwa [Daemon.effective, hstore] at hm
  by_cases hbase : store.rules.base.contains comm
  · rw [if_pos hbase]
    exact .raise (.kept (.refl _) nofun)
  rw [if_neg hbase]
  refine Settles.seq (.attempt (storeCompareAndSet_settles.conseq ?_ ?_))
  · rintro cas d₂ ⟨store', k', hstore', houtcome, rfl⟩
    cases hstore.symm.trans hstore'
    cases houtcome with
    | conflict =>
      exact .pure (.kept ⟨hstore.symm, fun _ _ => rfl, rfl, rfl⟩ (by rintro _ ⟨⟩; exact nofun))
    | noop =>
      have hsame : ({ d₁ with ruleStore := some store } : Daemon) = d₁ := by rw [← hstore]
      have heffective : (store.casResult .noop comm (store.rules.learnedState comm) desired).effective.toClass
          = store.rules.effective[comm]? := RuleState.toClass_fromOption _
      change Settles (reconcileRule comm _) { d₁ with ruleStore := some store } _ _
      rw [hsame]
      refine (reconcileRule_settles hmirrors heffective).conseq ?_ fun _ _ hreads => .kept hreads nofun
      rintro _ d₃ ⟨hreads, rfl⟩
      exact .kept hreads (by rintro _ ⟨⟩; exact nofun)
    | applied disk next hnext hreplaced =>
      exact publishApplied_settles hstore hnext hreplaced.contents rfl
  · rintro error d₂ (⟨-, hnone⟩ | ⟨store', k', hstore', houtcome, rfl⟩)
    · cases hstore.symm.trans hnone
    cases hstore.symm.trans hstore'
    refine (refuseRule_settles error).conseq (fun _ _ h => h.elim) fun _ d₃ hrefused => ?_
    rcases hrefused with hfatal | ⟨hcertain, rfl⟩
    · exact .fatal hfatal
    cases houtcome with
    | refused _ disk huntouched =>
      refine .kept ⟨hstore.symm, fun s hs => ?_, rfl, rfl⟩ nofun
      cases hstore.symm.trans hs
      exact huntouched.contents
    | unsynced => cases hcertain

end Changes

/-! ## Requests keep the copies consistent -/

section Requests

variable {os : Platform} {base : Rules.RuleTable} {d d' : Daemon}

theorem Reads.consistent (hreads : Reads d d') (h : Consistent os base d) : Consistent os base d' where
  mirrors := by
    rw [hreads.rules, Daemon.effective, hreads.store]
    exact h.mirrors
  stored := fun store hstore => by
    rw [hreads.store] at hstore
    rw [persisted, hreads.file store hstore]
    exact h.stored store hstore

variable {comm : Comm}

theorem Moved.consistent {store : RuleStore} {next : RuleSet} (hmoved : Moved comm store next d d')
    (hstore : d.ruleStore = some store)
    (hothers : ∀ other ≠ comm, next.effective[other]? = store.rules.effective[other]?)
    (h : Consistent os base d) :
    Consistent os base d' where
  mirrors := by
    have hmirrors := h.mirrors
    rw [Daemon.effective, hstore] at hmirrors
    rw [hmoved.rules, Daemon.effective, hmoved.now]
    exact Mirrors.publish hmirrors hothers
  stored := fun store' hstore' => by
    cases hmoved.now.symm.trans hstore'
    exact persisted_of_canonical hmoved.file

/-- A fatal error has been raised, or the copies agree. -/
def Intact (os : Platform) (base : Rules.RuleTable) (d : Daemon) : Prop :=
  d.fatalControlError ≠ none ∨ Consistent os base d

theorem Reads.intact (hreads : Reads d d') (h : Intact os base d) : Intact os base d' :=
  h.imp (hreads.fatal ▸ ·) hreads.consistent

theorem Change.intact {expected desired : RuleState} {r : Except String CasResult}
    (hchange : Change comm expected desired d r d') (h : Consistent os base d) :
    Intact os base d' := by
  cases hchange with
  | kept hreads => exact .inr (hreads.consistent h)
  | applied hstore hnext _ hmoved =>
    exact .inr (hmoved.consistent hstore (fun _ => hnext.effective_other) h)
  | rolledBack hstore hnext hback hmoved =>
    refine .inr (hmoved.consistent hstore (fun _ _ => ?_) h)
    rw [(hnext.back hback).2]
  | fatal hfatal => exact .inl hfatal

theorem validated_settles {α : Type} {E : String → Daemon → Prop} {field : Option α} {p : α → Bool}
    (h : field.any p = true) :
    Settles (validated field) d (fun a d' => d' = d ∧ field = some a) E := by
  cases field with
  | none => cases h
  | some a => exact .pure ⟨rfl, rfl⟩

variable [Sha256] {request : ControlRequest}

theorem getRule_settles (h : Consistent os base d)
    (hcomm : request.comm.any ControlRequest.validComm = true) :
    Settles (getRule os request) d (fun _ => Intact os base) (fun _ => Intact os base) := by
  refine (validated_settles hcomm).bind fun _ d₁ ⟨hsame, _⟩ => ?_
  subst hsame
  refine Settles.seq (.ofExcept (fun comm _ => ?_) fun _ _ => .inr h)
  refine (enabledStore_settles.conseq (fun _ _ h => h) ?_).bind fun store d₂ ⟨hsame, _⟩ => ?_
  · rintro _ _ ⟨rfl, -⟩
    exact .inr h
  subst hsame
  refine ((ruleObservation_settles os).conseq (fun _ _ h => h) ?_).bind fun _ d₃ hreads => ?_
  · exact fun _ _ hreads => hreads.intact (.inr h)
  exact Settles.seq (.of_run rfl (.pure (hreads.intact (.inr h))))

theorem snapshot_settles {p : List String → Bool} (h : Consistent os base d)
    (hcomms : request.comms.any p = true) :
    Settles (snapshot os request) d (fun _ => Intact os base) (fun _ => Intact os base) := by
  refine (validated_settles hcomms).bind fun comms d₁ ⟨hsame, _⟩ => ?_
  subst hsame
  refine (Settles.mapM (I := Intact os base) comms (.inr h) fun comm t ht => ?_).bind
    fun comms d₂ h₂ => ?_
  · exact .ofExcept (fun _ _ => ht) fun _ _ => ht
  refine ((persistedSnapshot_settles os).conseq (fun _ _ h => h) ?_).bind fun _ d₃ hreads => ?_
  · exact fun _ _ hreads => hreads.intact h₂
  refine (Settles.mapM (I := Intact os base) comms (hreads.intact h₂) fun comm t ht => ?_).bind
    fun _ d₄ h₄ => ?_
  · exact (ruleObservationWithPersisted_settles _ _).conseq (fun _ _ h => h.intact ht)
      fun _ _ h => h.intact ht
  exact Settles.seq (.of_run rfl (.pure h₄))

theorem answerChange_settles {requestId : String} {expected desired : RuleState}
    (h : Consistent os base d) :
    Settles (answerChange os requestId comm expected desired) d (fun _ => Intact os base)
      (fun _ => Intact os base) := by
  refine ((changeRule_settles h).conseq (fun _ _ h => h) ?_).bind fun cas d₁ h₁ => ?_
  · exact fun _ _ hchange => hchange.intact h
  refine ((ruleObservation_settles os).conseq (fun _ _ h => h) ?_).bind fun _ d₂ hreads => ?_
  · exact fun _ _ hreads => hreads.intact (h₁.intact h)
  exact Settles.seq (.of_run rfl (.pure (hreads.intact (h₁.intact h))))

theorem compareAndSetRule_settles (h : Consistent os base d)
    (hcomm : request.comm.any ControlRequest.validComm = true)
    (hexpected : request.expected.any WireState.isValid = true)
    (hdesired : request.desired.any WireState.isValid = true) :
    Settles (compareAndSetRule os request) d (fun _ => Intact os base) (fun _ => Intact os base) := by
  refine (validated_settles hcomm).bind fun _ d₁ ⟨hsame, _⟩ => ?_
  subst hsame
  refine Settles.seq (.ofExcept (fun comm _ => ?_) fun _ _ => .inr h)
  refine (validated_settles hexpected).bind fun _ d₂ ⟨hsame, _⟩ => ?_
  subst hsame
  refine Settles.seq (.ofExcept (fun expected _ => ?_) fun _ _ => .inr h)
  refine (validated_settles hdesired).bind fun _ d₃ ⟨hsame, _⟩ => ?_
  subst hsame
  refine Settles.seq (.ofExcept (fun desired _ => ?_) fun _ _ => .inr h)
  exact answerChange_settles h

theorem handleControlInner_settles (request : ControlRequest) (h : Consistent os base d) :
    Settles (handleControlInner os request) d (fun _ => Intact os base) (fun _ => Intact os base) := by
  refine Settles.seq (.ofExcept (fun _ hvalid => ?_) fun _ _ => .inr h)
  have hfields := ControlRequest.fieldsMatch_of_validate hvalid
  unfold ControlRequest.fieldsMatch at hfields
  cases hop : request.op with
  | getRule =>
    simp only [hop, Bool.and_eq_true] at hfields
    exact getRule_settles h hfields.1.1.1
  | snapshot =>
    simp only [hop, Bool.and_eq_true] at hfields
    exact snapshot_settles h hfields.1.1.2
  | compareAndSetRule =>
    simp only [hop, Bool.and_eq_true] at hfields
    exact compareAndSetRule_settles h hfields.1.1.1 hfields.1.2 hfields.2

/-- Every request is answered, and leaves the copies intact. -/
theorem handleControl_settles (request : ControlRequest) (h : Consistent os base d) :
    Settles (handleControl os request) d (fun _ => Intact os base) (fun _ _ => False) := by
  refine Settles.seq (.attempt ((handleControlInner_settles request h).conseq ?_ ?_))
  · exact fun _ _ h => .pure h
  · exact fun _ _ h => Settles.seq (.of_run rfl (.pure h))

end Requests

/-! ## Runs of the daemon -/

section Startup

variable {os : Platform} {base : Rules.RuleTable} {d : Daemon}

/-- Before the rules are loaded. -/
structure Blank (d : Daemon) : Prop where
  rules : ∀ key, d.bpf.rules key = none
  fatal : d.fatalControlError = none

/-- The rest of the entries is still to be loaded. -/
structure Loading (table : Rules.RuleTable) (d₀ : Daemon) (rest : List (Comm × RuleClass))
    (d : Daemon) : Prop where
  mirrors : ∀ comm : Comm, (∀ ruleClass, (comm, ruleClass) ∉ rest) →
    d.bpf.rules comm.asBpfKey = table[comm]?.map RuleClass.asBpfId
  entries : ∀ entry ∈ rest, table[entry.1]? = some entry.2
  others : Published d.bpf.rules d₀ d

theorem Loading.next {d₀ : Daemon} {ruleClass : RuleClass} {rest : List (Comm × RuleClass)}
    (h : Loading table d₀ ((comm, ruleClass) :: rest) d)
    (hwritten : Published (update d.bpf.rules comm.asBpfKey (some ruleClass.asBpfId)) d d') :
    Loading table d₀ rest d' where
  mirrors := fun other hother => by
    rw [hwritten.rules]
    by_cases heq : other = comm
    · rw [heq, update_self, h.entries (comm, ruleClass) List.mem_cons_self, Option.map_some]
    · rw [update_of_ne fun hkey => heq (Comm.asBpfKey_injective hkey)]
      refine h.mirrors other fun otherClass hmem => ?_
      rcases List.mem_cons.mp hmem with hfirst | hrest
      · exact heq (congrArg Prod.fst hfirst)
      · exact hother otherClass hrest
  entries := fun entry hentry => h.entries entry (List.mem_cons_of_mem _ hentry)
  others := hwritten.rules ▸ h.others.trans hwritten

theorem loadRules_settles (table : Rules.RuleTable) (hempty : ∀ key, d.bpf.rules key = none) :
    Settles (loadRules table) d
      (fun _ d' => Mirrors d'.bpf.rules table ∧ Published d'.bpf.rules d d') (fun _ _ => True) := by
  refine (Settles.forM (Loading table d) table.toList ?_ ?_).conseq ?_ fun _ _ h => h
  · refine ⟨fun comm habsent => ?_, ?_, Reads.refl d⟩
    · rw [hempty]
      cases hrule : table[comm]? with
      | none => rfl
      | some ruleClass =>
        exact absurd (Std.ExtTreeMap.mem_toList_iff_getElem?_eq_some.mpr hrule) (habsent ruleClass)
    · exact fun entry hentry => Std.ExtTreeMap.mem_toList_iff_getElem?_eq_some.mp hentry
  · rintro ⟨comm, ruleClass⟩ rest t h
    refine (writeRule_settles _).bind fun r t' hwritten => ?_
    rcases hwritten with ⟨⟨error, rfl⟩, _⟩ | ⟨rfl, hwritten⟩
    · exact .raise trivial
    · exact .pure (h.next hwritten)
  · intro _ d' h
    exact ⟨fun comm => h.mirrors comm fun _ => List.not_mem_nil, h.others⟩

theorem openStore_settles (learnedRules : Option LearnedPath) :
    Settles (openStore os base learnedRules) d
      (fun ruleStore d' => d'.bpf = d.bpf ∧ d'.fatalControlError = d.fatalControlError ∧
        ∀ store, ruleStore = some store → Stored os store d'.disk) (fun _ _ => True) := by
  cases learnedRules with
  | none => exact .pure ⟨rfl, rfl, nofun⟩
  | some path =>
    refine Settles.seq (.attempt (.focus ((openAt_settles path base).conseq ?_ ?_)))
    · rintro store disk ⟨hidle, -, -, -, hstored⟩
      refine .orRaise_then (fun store' hstore' => .pure ⟨rfl, rfl, ?_⟩) nofun
      rintro _ ⟨⟩
      cases hstore'
      exact hstored.of_idle hidle
    · exact fun _ _ _ => .orRaise_then nofun fun _ _ => trivial

/-- The daemon that has started is consistent. -/
theorem startUp_settles (learnedRules : Option LearnedPath) (hblank : Blank d) :
    Settles (startUp os learnedRules base) d
      (fun _ d' => Consistent os base d' ∧ d'.fatalControlError = none) (fun _ _ => True) := by
  refine (openStore_settles learnedRules).bind fun ruleStore d₁ ⟨hbpf, hfatal, hstored⟩ => ?_
  refine Settles.seq (.of_run rfl ?_)
  have hempty : ∀ key, d₁.bpf.rules key = none := fun key => by rw [hbpf, hblank.rules]
  refine (loadRules_settles (d := { d₁ with ruleStore }) _ hempty).bind fun _ d₂ h₂ => ?_
  obtain ⟨hmirrors, h₂⟩ := h₂
  refine (writeRulesSeq_settles 2).conseq (fun _ d₃ hreads => ⟨?_, ?_⟩) fun _ _ h => h
  · refine hreads.consistent ⟨?_, fun store hstore => ?_⟩
    · rw [Daemon.effective, h₂.store]
      exact hmirrors
    · rw [h₂.store] at hstore
      rw [persisted, h₂.file store hstore]
      exact (hstored store hstore).persisted_eq
  · rw [hreads.fatal, h₂.fatal]
    exact hfatal.trans hblank.fatal

end Startup

section Runs

variable [Sha256]

/-- A request is handled while the daemon serves, or something else happens that concerns no rule. -/
inductive Next (os : Platform) : Daemon → Daemon → Prop
  | request {d : Daemon} (request : ControlRequest) (hserving : d.fatalControlError = none) :
    Next os d (handleControl os request d).2
  | other {d d' : Daemon} (hreads : Reads d d') : Next os d d'

theorem Next.intact {os : Platform} {base : Rules.RuleTable} (hnext : Next os d d')
    (h : Intact os base d) : Intact os base d' := by
  cases hnext with
  | other hreads => exact hreads.intact h
  | request request hserving =>
    have hconsistent := h.resolve_left (not_not.mpr hserving)
    rcases (handleControl_settles request hconsistent).cases with
      ⟨response, d', hrun, hintact⟩ | ⟨_, _, _, hfalse⟩
    · rw [hrun]
      exact hintact
    · exact hfalse.elim

/-- In every state that the daemon reaches after it has started, a fatal error has been raised, or the
map holds the class of every effective rule and the file holds the learned ones. -/
theorem rules_consistent_or_fatal (os : Platform) (learnedRules : Option LearnedPath)
    (base : Rules.RuleTable) {d₀ d d' : Daemon} (hblank : Blank d₀)
    (hstart : startUp os learnedRules base d₀ = (.ok (), d))
    (hrun : Relation.ReflTransGen (Next os) d d') :
    d'.fatalControlError ≠ none ∨
      (∀ comm : Comm,
        d'.bpf.rules comm.asBpfKey = (d'.effective base)[comm]?.map RuleClass.asBpfId) ∧
      ∀ store, d'.ruleStore = some store →
        persisted os store.path d'.disk = .ok (store.rules.learned, store.rules.revision) := by
  have hstarted : Settles (startUp os learnedRules base) d₀ _ _ := startUp_settles learnedRules hblank
  have hfirst : Intact os base d := by
    rcases hstarted.cases with ⟨_, d₁, hok, h⟩ | ⟨_, _, herror, _⟩
    · cases hstart.symm.trans hok
      exact .inr h.1
    · cases hstart.symm.trans herror
  have hlast : Intact os base d' := by
    induction hrun with
    | refl => exact hfirst
    | tail _ hnext ih => exact hnext.intact ih
  exact hlast.imp_right fun h => ⟨h.mirrors, h.stored⟩

end Runs

section FirstRule

def BpfSide.fresh : BpfSide where
  rules _ := none
  rulesSeq := 0
  ruleMissComms _ := false
  taskStateErrors := 0
  ruleRefreshDeferred := 0
  calls := 0
  faults _ := none

def Daemon.fresh : Daemon where
  ruleStore := none
  disk := .fresh
  bpf := .fresh
  activationBatcher := .new 0 1 (by decide)
  schedulerInstanceId := "7-1"
  defaultClass := .batch
  fatalControlError := none

def freshPlatform : Platform := ⟨7, fun _ => "invalid"⟩

/-- The daemon has started without a file. -/
def startedDaemon : Daemon :=
  (startUp freshPlatform (some RuleStore.fresh.path.given) ∅ Daemon.fresh).2

@[reducible] def constantHash : Sha256 := ⟨fun _ => Vector.replicate 32 0⟩

def firstRequest : ControlRequest where
  version := 1
  requestId := "request-1"
  op := .compareAndSetRule
  comm := some "ffmpeg"
  comms := none
  expected := some (.ofState .absent)
  desired := some (.ofState (.present .latency))

/-- The daemon has handled the request. -/
def changedDaemon : Daemon := (@handleControl freshPlatform constantHash firstRequest startedDaemon).2

theorem rules_consistent_after_first_rule :
    changedDaemon.fatalControlError = none ∧ ∀ comm : Comm,
      changedDaemon.bpf.rules comm.asBpfKey =
        (changedDaemon.effective ∅)[comm]?.map RuleClass.asBpfId := by
  have hstart : startUp freshPlatform (some RuleStore.fresh.path.given) ∅ Daemon.fresh =
      (.ok (), startedDaemon) := Prod.ext (by decide +kernel) rfl
  have hserving : startedDaemon.fatalControlError = none := by decide +kernel
  have hnext : @Next constantHash freshPlatform startedDaemon changedDaemon :=
    @Next.request constantHash freshPlatform startedDaemon firstRequest hserving
  have hconsistent := @rules_consistent_or_fatal constantHash freshPlatform _ ∅ _ _ _
    ⟨fun _ => rfl, rfl⟩ hstart (.single hnext)
  have hfatal : changedDaemon.fatalControlError = none := by decide +kernel
  exact ⟨hfatal, (hconsistent.resolve_left (not_not.mpr hfatal)).1⟩

end FirstRule

end ScxAgent.Control
