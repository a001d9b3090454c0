import ScxAgent.Rules.Store

/-!
# Runs of the rule store

What the document of the store decodes to, what one compare-and-set can do to the memory and the
file, and what follows for every sequence of calls under every pattern of failures.
-/

namespace ScxAgent.Rules

open StepLogic OutcomeLogic FileReplace JsonText List

/-! ## The document is read back -/

@[simp] theorem RuleClass.decode_text (k : RuleClass) : RuleClass.decode (.str k.text) = some k := by
  cases k <;> rfl

@[simp] theorem Comm.decode_value (comm : Comm) : Comm.decode (.str comm.value) = some comm := by
  simp only [Comm.decode, text, Option.bind_some, Comm.new_eq_ok.mpr rfl]
  rfl

theorem StoredRule.decode_encode (rule : StoredRule) : StoredRule.decode rule.encode = some rule := by
  simp [StoredRule.decode, StoredRule.encode, fields, lookup, required]

theorem StoredDocument.decode_encode (document : StoredDocument) :
    StoredDocument.decode document.encode = some document := by
  simp [StoredDocument.decode, StoredDocument.encode, fields, lookup, required, word32_toNat,
    word64_toNat, sequence_map StoredRule.decode_encode]

theorem collectRules_ok (path : StorePath) (rules : List StoredRule) (learned : RuleTable)
    (hnew : ∀ rule ∈ rules, rule.comm ∉ learned)
    (hdistinct : rules.Pairwise fun a b => a.comm ≠ b.comm) :
    collectRules path learned rules =
      .ok (learned.insertMany (rules.map fun rule => (rule.comm, rule.ruleClass))) := by
  induction rules generalizing learned with
  | nil => simp [collectRules]
  | cons rule rules ih =>
    have habsent : ¬ learned.contains rule.comm = true := fun h =>
      hnew rule mem_cons_self (Std.ExtTreeMap.contains_iff_mem.mp h)
    rw [pairwise_cons] at hdistinct
    rw [collectRules, if_neg habsent, ih _ ?_ hdistinct.2]
    · simp [Std.ExtTreeMap.insertMany_list_eq_foldl]
    · intro other hother hmem
      rw [Std.ExtTreeMap.mem_insert] at hmem
      rcases hmem with heq | hmem
      · exact hdistinct.1 other hother (Std.LawfulEqCmp.compare_eq_iff_eq.mp heq)
      · exact hnew other (mem_cons_of_mem _ hother) hmem

theorem collectRules_toList (path : StorePath) (learned : RuleTable) :
    collectRules path ∅ (learned.toList.map fun (comm, ruleClass) => ⟨comm, ruleClass⟩) =
      .ok learned := by
  rw [collectRules_ok]
  · rw [map_map]
    have hsame := map_id'' (f := (fun rule : StoredRule => (rule.comm, rule.ruleClass)) ∘
      fun (comm, ruleClass) => ⟨comm, ruleClass⟩) (fun _ => rfl) learned.toList
    rw [hsame, insertMany_toList]
  · exact fun _ _ => Std.ExtTreeMap.not_mem_empty
  · rw [pairwise_map]
    exact Std.ExtTreeMap.distinct_keys_toList.imp fun hne heq =>
      hne (Std.LawfulEqCmp.compare_eq_iff_eq.mpr heq)

theorem parseDocument_canonical (os : Platform) (path : StorePath) (revision : UInt64)
    (learned : RuleTable) :
    parseDocument os path (canonicalDocument revision learned) = .ok (learned, revision) := by
  have hspace : Spaces "\n".toList := by simp [Spaces, isSpace]
  rw [parseDocument, canonicalDocument, readBytes_toByteArray, read_write pretty_spaced _ hspace,
    Option.bind_some, StoredDocument.decode_encode]
  simp only [ne_eq, not_true_eq_false, if_false]
  rw [collectRules_toList]
  rfl

/-! ## The atomic replacement -/

section Files

variable {os : Platform} {path : StorePath} {d : Directory}

theorem fileName_ne_tempName (count : UInt64) : path.fileName ≠ tempName os path count := by
  intro heq
  have hlength := congrArg String.length heq
  simp only [tempName, String.length_append] at hlength
  have hname : (toString path.fileName).length = path.fileName.length := rfl
  have hdot : (toString ".").length = 1 := rfl
  omega

/-- Nothing is in the way of a temporary file, and no call is to fail. -/
def Unobstructed (os : Platform) (path : StorePath) (d : Directory) : Prop :=
  ¬ d.Faulty ∧ ∀ count, d.files (tempName os path count) = none

theorem createTempFile_settles (attempts : ℕ) :
    Settles (createTempFile os path attempts) d
      (fun temp d' => Beside temp d d' ∧ path.fileName ≠ temp ∧ d.files temp = none ∧
        d'.files temp = some ByteArray.empty)
      (fun _ d' => Untouched path.fileName d d' ∧ (0 < attempts → ¬ Unobstructed os path d)) := by
  induction attempts generalizing d with
  | zero => exact .raise ⟨.refl d, nofun⟩
  | succ attempts ih =>
    refine nextCount_settles.bind fun count d₁ h₁ => ?_
    refine createNew_settles.bind fun r d₂ hcreated => ?_
    rcases hcreated with ⟨rfl, h₂, hfree, hempty⟩ | ⟨⟨error, rfl⟩, h₂, hreason⟩
    · rw [h₁.files] at hfree
      exact .pure ⟨fun target htarget => (h₁ target).trans (h₂ target htarget),
        fileName_ne_tempName count, hfree, hempty⟩
    have hsofar := h₁.trans h₂
    have hobstructed : ¬ Unobstructed os path d := by
      rintro ⟨hcalm, hfree⟩
      rcases hreason with hfaulty | htaken
      · exact hcalm (h₁.faulty hfaulty)
      · exact htaken (by rw [h₁.files, hfree])
    by_cases hexists : error.alreadyExists
    · simp only [hexists, if_true]
      refine (ih (d := d₂)).conseq (fun temp d₃ h => ?_) fun _ d₃ h => ?_
      · obtain ⟨hbeside, hne, hfree, hempty⟩ := h
        rw [hsofar.files] at hfree
        exact ⟨fun target htarget => (hsofar target).trans (hbeside target htarget), hne, hfree, hempty⟩
      · exact ⟨(hsofar path.fileName).trans h.1, fun _ => hobstructed⟩
    · simp only [hexists]
      exact .raise ⟨hsofar path.fileName, fun _ => hobstructed⟩

/-- What the calls up to the rename do to the files. -/
theorem replaceFile_settles {temp : String} (contents : ByteArray) (hne : path.fileName ≠ temp)
    (hempty : d.files temp = some ByteArray.empty) :
    Settles (replaceFile path temp contents) d
      (fun _ d' => Replaced path.fileName (some contents) d d' ∧ d'.files temp = none ∧
        ∀ other, other ≠ path.fileName → other ≠ temp → d'.files other = d.files other)
      (fun _ d' => Beside temp d d' ∧ d.Faulty) := by
  refine (writeAll_settles contents).bind fun r d₁ ⟨h₁, hr⟩ => ?_
  refine .orRaise_then (fun _ hok => ?_) fun error herror => ⟨h₁, ?_⟩
  swap
  · rcases hr with ⟨hok, -⟩ | ⟨-, hfaulty⟩
    · cases hok.symm.trans herror
    · exact hfaulty
  have hwritten : d₁.files temp = some contents := by
    rcases hr with ⟨-, hwritten⟩ | ⟨⟨error, herror⟩, -⟩
    · rw [hwritten, hempty, Option.getD_some, ByteArray.empty_append]
    · cases hok.symm.trans herror
  refine io_orRaise (fun d₂ h₂ => ?_) fun _ d₂ h₂ hfaulty =>
    ⟨h₁.trans (.of_idle h₂), (h₁ _ hne).faulty hfaulty⟩
  have hsofar := (h₁ _ hne).trans (h₂ _)
  refine (rename_settles hne).bind fun r' d₃ hrenamed => ?_
  rcases hrenamed with ⟨rfl, hreplaced, hgone, hothers⟩ | ⟨⟨error, rfl⟩, hidle, hfaulty⟩
  · rw [h₂.files, hwritten] at hreplaced
    refine .pure ⟨hreplaced.after hsofar, hgone, fun other htarget htemp => ?_⟩
    rw [hothers other htarget htemp, h₂.files, (h₁ other htemp).contents]
  · exact .raise ⟨(h₁.trans (.of_idle h₂)).trans (.of_idle hidle), hsofar.faulty hfaulty⟩

theorem syncParent_settles :
    Settles (syncParent path) d
      (fun outcome d' => Idle d d' ∧ (¬ d.Faulty → outcome = .durable)) fun _ _ => False := by
  refine (io_idle _).bind fun r d₁ ⟨h₁, hr⟩ => ?_
  rcases hr with rfl | ⟨⟨error, rfl⟩, hfaulty⟩
  · refine (io_idle _).bind fun r' d₂ ⟨h₂, hr'⟩ => ?_
    rcases hr' with rfl | ⟨⟨error, rfl⟩, hfaulty⟩
    · exact .pure ⟨h₁.trans h₂, fun _ => rfl⟩
    · exact .pure ⟨h₁.trans h₂, fun hcalm => absurd (h₁.faulty hfaulty) hcalm⟩
  · exact .pure ⟨h₁, fun hcalm => absurd hfaulty hcalm⟩

/-- The file is replaced as a whole, or an error leaves it as it was; there is no error unless
something is in the way. -/
theorem atomicReplace_settles (contents : ByteArray) :
    Settles (atomicReplace os path contents) d
      (fun outcome d' => Replaced path.fileName (some contents) d d' ∧
        (∀ other ≠ path.fileName, d'.files other = d.files other) ∧
        (¬ d.Faulty → outcome = .durable))
      (fun _ d' => Untouched path.fileName d d' ∧ ¬ Unobstructed os path d) := by
  refine ((createTempFile_settles 32).conseq (fun _ _ h => h) ?_).bind fun temp d₁ h₁ => ?_
  · exact fun _ _ h => ⟨h.1, h.2 (by decide)⟩
  obtain ⟨h₁, hne, hfree, hempty⟩ := h₁
  have hcalm : d₁.Faulty → d.Faulty := (h₁ _ hne).faulty
  refine Settles.seq (.attempt ((replaceFile_settles contents hne hempty).conseq ?_ ?_))
  · rintro _ d₂ ⟨h₂, hgone, hothers⟩
    refine syncParent_settles.conseq (fun outcome d₃ ⟨h₃, hdurable⟩ => ?_) fun _ _ h => h.elim
    refine ⟨(h₂.after (h₁ _ hne)).before (h₃ _), fun other hother => ?_, fun hfaults =>
      hdurable fun hfaulty => hfaults (hcalm (h₂.faulty hfaulty))⟩
    rw [h₃.files]
    by_cases htemp : other = temp
    · rw [htemp, hgone, hfree]
    · rw [hothers other hother htemp, (h₁ other htemp).contents]
  · rintro error d₂ ⟨h₂, hfaulty⟩
    refine removeFile_settles.bind fun _ d₃ h₃ => .raise ⟨?_, fun h => h.1 (hcalm hfaulty)⟩
    exact ((h₁ _ hne).trans (h₂ _ hne)).trans (h₃ _ hne)

end Files

/-! ## One compare-and-set -/

variable {rules : RuleSet}

theorem RuleSet.new_ok {base learned : RuleTable} {revision : UInt64}
    (h : RuleSet.new base learned revision = .ok rules) :
    rules.base = base ∧ rules.learned = learned ∧ rules.revision = revision := by
  unfold RuleSet.new at h
  split at h
  · cases h
  · dsimp only at h
    split at h
    · cases h
    · cases h
      exact ⟨rfl, rfl, rfl⟩

/-- The rules that follow once `comm` has the desired state. -/
structure Succeeds (comm : Comm) (expected desired : RuleState) (rules next : RuleSet) : Prop where
  free : comm ∉ rules.base
  was : rules.learnedState comm = expected
  changes : expected ≠ desired
  noOverflow : rules.revision + 1 ≠ 0
  base : next.base = rules.base
  learned : next.learned = RuleStore.learnedAfter rules.learned comm desired
  revision : next.revision = rules.revision + 1

/-- All that a compare-and-set can do. -/
inductive CasOutcome (comm : Comm) (expected desired : RuleState) (k : Keeper) :
    Except String CasResult → Keeper → Prop
  | conflict (hfree : comm ∉ k.store.rules.base) (h : k.store.rules.learnedState comm ≠ expected) :
    CasOutcome comm expected desired k (.ok (k.store.casResult .conflict comm
      (k.store.rules.learnedState comm) (k.store.rules.learnedState comm))) k
  | noop (hfree : comm ∉ k.store.rules.base) (h : k.store.rules.learnedState comm = expected)
    (hsame : expected = desired) :
    CasOutcome comm expected desired k (.ok (k.store.casResult .noop comm
      (k.store.rules.learnedState comm) desired)) k
  | refused (error : String) (disk : Directory)
    (h : Untouched k.store.path.fileName k.disk disk) :
    CasOutcome comm expected desired k (.error error) { k with disk }
  | unsynced (error : String) (disk : Directory) (next : RuleSet)
    (hnext : Succeeds comm expected desired k.store.rules next)
    (h : Replaced k.store.path.fileName (some next.canonicalLearnedJson) k.disk disk) :
    CasOutcome comm expected desired k (.error error)
      ⟨{ k.store with rules := next, persistenceUncertain := true }, disk⟩
  | applied (disk : Directory) (next : RuleSet)
    (hnext : Succeeds comm expected desired k.store.rules next)
    (h : Replaced k.store.path.fileName (some next.canonicalLearnedJson) k.disk disk) :
    CasOutcome comm expected desired k
      (.ok (RuleStore.casResult { k.store with rules := next } .applied comm
        (k.store.rules.learnedState comm) desired))
      ⟨{ k.store with rules := next }, disk⟩

namespace Keeper

variable (os : Platform) {k : Keeper} {comm : Comm} {expected desired : RuleState}

theorem commit_outcome {next : RuleSet} (hnext : Succeeds comm expected desired k.store.rules next) :
    Settles (commit os comm (k.store.rules.learnedState comm) desired next) k
      (fun r k' => CasOutcome comm expected desired k (.ok r) k')
      (fun e k' => CasOutcome comm expected desired k (.error e) k') := by
  refine Settles.seq (.of_run rfl ?_)
  refine Settles.seq (.focus ((atomicReplace_settles _).conseq ?_ ?_))
  · rintro outcome disk ⟨hreplaced, -, -⟩
    cases outcome with
    | durable =>
      refine Settles.seq (.of_run rfl ?_)
      exact Settles.seq (.of_run rfl (.pure (.applied disk next hnext hreplaced)))
    | renamedButUnsynced error =>
      exact Settles.seq (.of_run rfl (.raise (.unsynced error disk next hnext hreplaced)))
  · rintro error disk ⟨huntouched, -⟩
    exact .refused error disk huntouched

theorem compareAndSet_outcome :
    Settles (compareAndSet os comm expected desired) k
      (fun r k' => CasOutcome comm expected desired k (.ok r) k')
      (fun e k' => CasOutcome comm expected desired k (.error e) k') := by
  have hrefused (error : String) : CasOutcome comm expected desired k (.error error) k :=
    .refused error k.disk (.refl k.disk)
  refine Settles.seq (.of_run rfl ?_)
  by_cases hbase : k.store.rules.base.contains comm
  · rw [if_pos hbase]
    exact .raise (hrefused _)
  have hfree : comm ∉ k.store.rules.base := fun h => hbase (Std.ExtTreeMap.contains_iff_mem.mpr h)
  rw [if_neg hbase]
  by_cases hexpected : k.store.rules.learnedState comm = expected
  swap
  · rw [if_pos hexpected]
    exact .pure (.conflict hfree hexpected)
  rw [if_neg (not_not.mpr hexpected)]
  by_cases hsame : k.store.rules.learnedState comm = desired
  · rw [if_pos hsame]
    exact .pure (.noop hfree hexpected (hexpected.symm.trans hsame))
  rw [if_neg hsame]
  by_cases hoverflow : k.store.rules.revision + 1 = 0
  · rw [if_pos hoverflow]
    exact .raise (hrefused _)
  rw [if_neg hoverflow]
  refine Settles.seq (.ofExcept (fun next hnew => ?_) fun _ _ => hrefused _)
  obtain ⟨hbase', hlearned, hrevision⟩ := RuleSet.new_ok hnew
  exact commit_outcome os ⟨hfree, hexpected, fun h => hsame (hexpected.trans h), hoverflow, hbase',
    hlearned, hrevision⟩

end Keeper

/-! ## Opening the store -/

/-- What a reader of the file finds. -/
def persisted (os : Platform) (path : StorePath) (disk : Directory) :
    Except String (RuleTable × UInt64) :=
  match disk.files path.fileName with
  | none => .ok (∅, 0)
  | some bytes => parseDocument os path bytes

theorem persisted_of_canonical {os : Platform} {path : StorePath} {disk : Directory}
    (h : disk.files path.fileName = some rules.canonicalLearnedJson) :
    persisted os path disk = .ok (rules.learned, rules.revision) := by
  rw [persisted, h]
  exact parseDocument_canonical os path rules.revision rules.learned

theorem RuleSet.new_self (rules : RuleSet) :
    RuleSet.new rules.base rules.learned rules.revision = .ok rules := by
  obtain ⟨revision, base, learned, effective, hdisjoint, rfl, hbounded⟩ := rules
  have hnone : learned.keys.find? (base.contains ·) = none := by
    rw [find?_eq_none]
    intro comm hcomm hbase
    exact hdisjoint comm (Std.ExtTreeMap.mem_keys.mp hcomm) (Std.ExtTreeMap.contains_iff_mem.mp hbase)
  unfold RuleSet.new
  split
  · rename_i hsome
    rw [hnone] at hsome
    cases hsome
  · exact dif_neg (not_lt.mpr hbounded)

theorem RuleSet.eq_of_layers {rules' : RuleSet} (hbase : rules'.base = rules.base)
    (hlearned : rules'.learned = rules.learned) (hrevision : rules'.revision = rules.revision) :
    rules' = rules := by
  have hnew := rules'.new_self
  rw [hbase, hlearned, hrevision, rules.new_self] at hnew
  exact (Except.ok.inj hnew).symm

section Opening

variable {os : Platform} {path : StorePath} {d : Directory}

theorem ensureParentDirectory_settles :
    Settles (ensureParentDirectory path) d (fun _ d' => Idle d d' ∧ d.isDirectory = true)
      (fun _ _ => d.isDirectory = true → d.Faulty) := by
  refine io_orRaise (fun d₁ h₁ => ?_) fun _ _ _ hfaulty _ => hfaulty
  refine io_orRaise (fun d₂ h₂ => ?_) fun _ _ _ hfaulty _ => h₁.faulty hfaulty
  by_cases hdirectory : d₁.isDirectory
  · rw [if_pos hdirectory]
    exact .pure ⟨h₁.trans h₂, h₁.isDirectory ▸ hdirectory⟩
  · rw [if_neg hdirectory]
    exact .raise fun h => absurd (h₁.isDirectory.trans h) hdirectory

theorem loadDocument_settles :
    Settles (loadDocument os path) d
      (fun document d' => Idle d d' ∧ persisted os path d = .ok document)
      (fun _ d' => Idle d d' ∧ ((∃ document, persisted os path d = .ok document) → d.Faulty)) := by
  refine (io_idle _).bind fun r d₁ ⟨h₁, hr⟩ => ?_
  rcases hr with rfl | ⟨⟨error, rfl⟩, hfaulty⟩
  · dsimp only
    unfold persisted
    cases d.files path.fileName with
    | none => exact .pure ⟨h₁, rfl⟩
    | some bytes =>
      refine .ofExcept (fun document hok => ⟨h₁, hok⟩) fun error herror => ⟨h₁, ?_⟩
      rintro ⟨document, hok⟩
      cases herror.symm.trans hok
  · exact .raise ⟨h₁, fun _ => hfaulty⟩

def StorePath.given (path : StorePath) : LearnedPath :=
  ⟨path.display, path.parent, some path.fileName⟩

/-- The file of the store holds the learned rules and their revision. -/
structure Stored (os : Platform) (store : RuleStore) (d : Directory) : Prop where
  isDirectory : d.isDirectory = true
  persisted_eq : persisted os store.path d = .ok (store.rules.learned, store.rules.revision)

theorem Stored.of_idle {store : RuleStore} {d' : Directory} (h : Stored os store d)
    (hidle : Idle d d') : Stored os store d' := by
  refine ⟨hidle.isDirectory.trans h.isDirectory, ?_⟩
  rw [persisted, hidle.files]
  exact h.persisted_eq

theorem openAt_settles (path : LearnedPath) (base : RuleTable) :
    Settles (RuleStore.openAt os path base) d
      (fun store d' => Idle d d' ∧ path = store.path.given ∧ store.rules.base = base ∧
        store.persistenceUncertain = false ∧ Stored os store d)
      (fun _ _ => ∀ store : RuleStore, path = store.path.given → store.rules.base = base →
        Stored os store d → d.Faulty) := by
  obtain ⟨display, parent, fileName⟩ := path
  cases fileName with
  | none => exact .raise fun _ hpath => nomatch hpath
  | some fileName =>
    refine (ensureParentDirectory_settles.conseq (fun _ _ h => h) ?_).bind fun _ d₁ ⟨h₁, hdir⟩ => ?_
    · exact fun _ _ hfaulty store _ _ hstored => hfaulty hstored.isDirectory
    have hfile : ∀ path, persisted os path d₁ = persisted os path d := fun path => by
      rw [persisted, h₁.files, persisted]
    refine (loadDocument_settles.conseq (fun _ _ h => h) ?_).bind fun document d₂ ⟨h₂, hloaded⟩ => ?_
    · rintro _ _ ⟨-, hfaulty⟩ ⟨path, rules, _⟩ hpath - ⟨-, hstored⟩
      cases hpath
      exact h₁.faulty (hfaulty ⟨_, (hfile _).trans hstored⟩)
    rw [hfile] at hloaded
    refine Settles.seq (.ofExcept (fun rules hrules => .pure ?_) fun error herror => ?_)
    · cases hnew : RuleSet.new base document.1 document.2 with
      | error error => rw [hnew] at hrules; cases hrules
      | ok rules' =>
        rw [hnew] at hrules
        cases hrules
        obtain ⟨hbase, hlearned, hrevision⟩ := RuleSet.new_ok hnew
        exact ⟨h₁.trans h₂, rfl, hbase, rfl, hdir, by rw [hlearned, hrevision]; exact hloaded⟩
    · rintro ⟨path, rules, _⟩ hpath rfl ⟨-, hstored⟩
      cases hpath
      cases hloaded.symm.trans hstored
      rw [RuleSet.new_self] at herror
      cases herror

/-- A file that holds the rules opens to them when no call fails. -/
theorem openAt_stored {store : RuleStore} (hstored : Stored os store d)
    (hfaults : ∀ n, d.faults n = none) :
    ∃ d', RuleStore.openAt os store.path.given store.rules.base d =
      (.ok { store with persistenceUncertain := false }, d') := by
  rcases (openAt_settles store.path.given store.rules.base).cases with
    ⟨store', d', hrun, -, hpath, hbase, hcertain, hstored'⟩ | ⟨_, _, -, hfaulty⟩
  · obtain ⟨⟨display, parent, fileName⟩, rules, uncertain⟩ := store
    obtain ⟨⟨display', parent', fileName'⟩, rules', uncertain'⟩ := store'
    cases hpath
    cases hcertain
    have hsame := hstored'.persisted_eq.symm.trans hstored.persisted_eq
    rw [Except.ok.injEq, Prod.mk.injEq] at hsame
    cases RuleSet.eq_of_layers hbase hsame.1 hsame.2
    exact ⟨d', hrun⟩
  · obtain ⟨n, hn⟩ := hfaulty store rfl rfl hstored
    exact absurd (hfaults n) hn

end Opening

/-! ## Runs -/

structure CasCall where
  comm : Comm
  expected : RuleState
  desired : RuleState

namespace Keeper

variable (os : Platform)

def call (k : Keeper) (c : CasCall) : Except (Halt String) CasResult × Keeper :=
  compareAndSet os c.comm c.expected c.desired k

def run (k : Keeper) (calls : List CasCall) : Keeper := calls.foldl (fun k c => (k.call os c).2) k

/-- How many calls change the learned rules. -/
def changes : Keeper → List CasCall → ℕ
  | _, [] => 0
  | k, c :: calls =>
    let k' := (k.call os c).2
    (if k'.store.rules.learned = k.store.rules.learned then 0 else 1) + changes k' calls

/-- The call has replaced the file and still ended in an error. -/
def RenamedButUnsynced (k : Keeper) (c : CasCall) : Prop :=
  (∃ error, (k.call os c).1 = .error (.error error)) ∧ (k.call os c).2.disk.renames ≠ k.disk.renames

/-- The call has reported a conflict or nothing to do, or has failed before the rename. -/
def Quiet (k : Keeper) (c : CasCall) : Prop :=
  (∃ result, (k.call os c).1 = .ok result ∧ result.status ≠ .applied) ∨
    (∃ error, (k.call os c).1 = .error (.error error)) ∧ ¬ k.RenamedButUnsynced os c

end Keeper

theorem RuleStore.learnedAfter_ne {comm : Comm} {desired : RuleState}
    (h : rules.learnedState comm ≠ desired) :
    RuleStore.learnedAfter rules.learned comm desired ≠ rules.learned := by
  intro heq
  apply h
  rw [RuleSet.learnedState, ← heq]
  cases desired with
  | absent => simp [RuleStore.learnedAfter, RuleState.fromOption]
  | present ruleClass => simp [RuleStore.learnedAfter, RuleState.fromOption]

theorem Succeeds.revision_toNat {comm : Comm} {expected desired : RuleState} {next : RuleSet}
    (h : Succeeds comm expected desired rules next) :
    next.revision.toNat = rules.revision.toNat + if next.learned = rules.learned then 0 else 1 := by
  have hne : next.learned ≠ rules.learned := by
    rw [h.learned]
    exact RuleStore.learnedAfter_ne (h.was ▸ h.changes)
  have hnoOverflow := h.noOverflow
  rw [ne_eq, ← UInt64.toNat_inj, UInt64.toNat_add] at hnoOverflow
  rw [if_neg hne, h.revision, UInt64.toNat_add]
  have hbound := rules.revision.toNat_lt
  simp only [UInt64.toNat_one, UInt64.toNat_zero] at hnoOverflow ⊢
  omega

section Tables

variable {comm : Comm} {expected desired : RuleState} {rules next : RuleSet} {other : Comm}

theorem learnedAfter_other {learned : RuleTable} (hne : other ≠ comm) :
    (RuleStore.learnedAfter learned comm desired)[other]? = learned[other]? := by
  have hcompare : compare comm other ≠ .eq := fun h =>
    hne (Std.LawfulEqCmp.compare_eq_iff_eq.mp h).symm
  cases desired with
  | absent => rw [RuleStore.learnedAfter, Std.ExtTreeMap.getElem?_erase, if_neg hcompare]
  | present ruleClass => rw [RuleStore.learnedAfter, Std.ExtTreeMap.getElem?_insert, if_neg hcompare]

theorem learnedAfter_self (learned : RuleTable) :
    (RuleStore.learnedAfter learned comm desired)[comm]? = desired.toClass := by
  cases desired with
  | absent => simp [RuleStore.learnedAfter, RuleState.toClass]
  | present ruleClass => simp [RuleStore.learnedAfter, RuleState.toClass]

section Success

variable (h : Succeeds comm expected desired rules next)
include h

theorem Succeeds.now : next.learnedState comm = desired := by
  rw [RuleSet.learnedState, h.learned, learnedAfter_self, RuleState.fromOption_toClass]

theorem Succeeds.effective_other (hne : other ≠ comm) :
    next.effective[other]? = rules.effective[other]? := by
  rw [next.effective_eq, rules.effective_eq, Std.ExtTreeMap.getElem?_union,
    Std.ExtTreeMap.getElem?_union, h.base, h.learned, learnedAfter_other hne]

/-- Setting a rule and setting it back leaves the tables as they were. -/
theorem Succeeds.back {last : RuleSet} (hback : Succeeds comm desired expected next last) :
    last.learned = rules.learned ∧ last.effective = rules.effective := by
  have hlearned : last.learned = rules.learned := by
    apply Std.ExtTreeMap.ext_getElem?
    intro other
    rw [hback.learned]
    by_cases hother : other = comm
    · rw [hother, learnedAfter_self, ← h.was, RuleSet.learnedState, RuleState.toClass_fromOption]
    · rw [learnedAfter_other hother, h.learned, learnedAfter_other hother]
  refine ⟨hlearned, ?_⟩
  rw [last.effective_eq, rules.effective_eq, hlearned, hback.base, h.base]

end Success

end Tables

namespace CasOutcome

variable {os : Platform} {comm : Comm} {expected desired : RuleState} {k k' : Keeper}
  {r : Except String CasResult}

section Outcome

variable (h : CasOutcome comm expected desired k r k')
include h

theorem path : k'.store.path = k.store.path := by
  cases h <;> rfl

theorem base : k'.store.rules.base = k.store.rules.base := by
  cases h with
  | conflict | noop | refused => rfl
  | unsynced _ _ _ hnext | applied _ _ hnext => exact hnext.base

theorem revision :
    k'.store.rules.revision.toNat = k.store.rules.revision.toNat +
      if k'.store.rules.learned = k.store.rules.learned then 0 else 1 := by
  cases h with
  | conflict | noop | refused => simp
  | unsynced _ _ _ hnext | applied _ _ hnext => exact hnext.revision_toNat

theorem stored (hstored : Stored os k.store k.disk)
    (hsynced : (∃ error, r = .error error) → k'.disk.renames = k.disk.renames) :
    Stored os k'.store k'.disk := by
  cases h with
  | conflict | noop => exact hstored
  | refused error disk huntouched =>
    refine ⟨huntouched.isDirectory.trans hstored.isDirectory, ?_⟩
    rw [persisted, huntouched.contents]
    exact hstored.persisted_eq
  | unsynced error disk next hnext hreplaced =>
    have := hreplaced.renames.symm.trans (hsynced ⟨error, rfl⟩)
    omega
  | applied disk next hnext hreplaced =>
    exact ⟨hreplaced.isDirectory.trans hstored.isDirectory, persisted_of_canonical hreplaced.contents⟩

end Outcome

end CasOutcome

namespace Keeper

variable {os : Platform} {k : Keeper} {c : CasCall}

theorem call_outcome (os : Platform) (k : Keeper) (c : CasCall) :
    (∃ result, (k.call os c).1 = .ok result ∧
      CasOutcome c.comm c.expected c.desired k (.ok result) (k.call os c).2) ∨
    ∃ error, (k.call os c).1 = .error (.error error) ∧
      CasOutcome c.comm c.expected c.desired k (.error error) (k.call os c).2 := by
  unfold call
  rcases (compareAndSet_outcome os).cases with ⟨result, k', hrun, h⟩ | ⟨error, k', hrun, h⟩
  · exact .inl ⟨result, by rw [hrun], by rw [hrun]; exact h⟩
  · exact .inr ⟨error, by rw [hrun], by rw [hrun]; exact h⟩

theorem exists_outcome (os : Platform) (k : Keeper) (c : CasCall) :
    ∃ r, CasOutcome c.comm c.expected c.desired k r (k.call os c).2 := by
  rcases k.call_outcome os c with ⟨_, -, h⟩ | ⟨_, -, h⟩
  · exact ⟨_, h⟩
  · exact ⟨_, h⟩

/-- A quiet call changes neither the memory nor the file. -/
theorem Quiet.unchanged (h : k.Quiet os c) :
    (k.call os c).2.store = k.store ∧
      (k.call os c).2.disk.files k.store.path.fileName = k.disk.files k.store.path.fileName := by
  rcases h with ⟨result, hok, hstatus⟩ | ⟨⟨error, herror⟩, hsynced⟩
  · rcases k.call_outcome os c with ⟨result', hok', h⟩ | ⟨_, herror, _⟩
    · cases hok.symm.trans hok'
      generalize (k.call os c).2 = k' at h ⊢
      cases h with
      | conflict | noop => exact ⟨rfl, rfl⟩
      | applied => exact absurd rfl hstatus
    · cases hok.symm.trans herror
  · have hrenames : (k.call os c).2.disk.renames = k.disk.renames :=
      not_not.mp fun hne => hsynced ⟨⟨error, herror⟩, hne⟩
    rcases k.call_outcome os c with ⟨_, hok, _⟩ | ⟨error', herror', h⟩
    · cases herror.symm.trans hok
    · generalize (k.call os c).2 = k' at h hrenames ⊢
      cases h with
      | refused _ _ huntouched => exact ⟨rfl, huntouched.contents⟩
      | unsynced _ _ _ _ hreplaced =>
        have := hreplaced.renames.symm.trans hrenames
        omega

/-! Each fact about one call becomes one about runs by induction over the calls. -/

theorem run_path (calls : List CasCall) : (k.run os calls).store.path = k.store.path := by
  induction calls generalizing k with
  | nil => rfl
  | cons c calls ih =>
    obtain ⟨r, h⟩ := k.exists_outcome os c
    exact ih.trans h.path

theorem run_base (calls : List CasCall) :
    (k.run os calls).store.rules.base = k.store.rules.base := by
  induction calls generalizing k with
  | nil => rfl
  | cons c calls ih =>
    obtain ⟨r, h⟩ := k.exists_outcome os c
    exact ih.trans h.base

theorem run_revision (calls : List CasCall) :
    (k.run os calls).store.rules.revision.toNat =
      k.store.rules.revision.toNat + k.changes os calls := by
  induction calls generalizing k with
  | nil => rfl
  | cons c calls ih =>
    obtain ⟨r, h⟩ := k.exists_outcome os c
    have hrest := ih (k := (k.call os c).2)
    rw [h.revision] at hrest
    rw [changes, ← Nat.add_assoc]
    exact hrest

theorem run_stored (calls : List CasCall) (hstored : Stored os k.store k.disk)
    (hsynced : ∀ before c after, calls = before ++ c :: after →
      ¬ (k.run os before).RenamedButUnsynced os c) :
    Stored os (k.run os calls).store (k.run os calls).disk := by
  induction calls generalizing k with
  | nil => exact hstored
  | cons c calls ih =>
    apply ih
    · have hfirst := hsynced [] c calls rfl
      rcases k.call_outcome os c with ⟨_, _, h⟩ | ⟨error, herror, h⟩
      · exact h.stored hstored nofun
      · exact h.stored hstored fun _ => not_not.mp fun hne => hfirst ⟨⟨error, herror⟩, hne⟩
    · intro before c' after hcalls
      exact hsynced (c :: before) c' after (by rw [hcalls]; rfl)

end Keeper

/-- Over every run of compare-and-set calls from an opened store: the layers stay disjoint and
bounded, the revision counts the changes, a quiet call changes nothing, and the file can be opened to
what the memory holds. -/
theorem compareAndSet_runs_keep_store (os : Platform) (path : LearnedPath) (base : RuleTable)
    (d d₀ : Directory) (store : RuleStore)
    (hopen : RuleStore.openAt os path base d = (.ok store, d₀)) (calls : List CasCall) :
    let k := Keeper.run os ⟨store, d₀⟩ calls
    k.store.rules.base = base ∧
    (∀ comm ∈ k.store.rules.learned, comm ∉ base) ∧
    k.store.rules.effective = k.store.rules.learned ∪ base ∧
    k.store.rules.effective.size ≤ 1024 ∧
    k.store.rules.revision.toNat =
      store.rules.revision.toNat + Keeper.changes os ⟨store, d₀⟩ calls ∧
    (∀ c, k.Quiet os c → (k.call os c).2.store = k.store ∧
      (k.call os c).2.disk.files k.store.path.fileName = k.disk.files k.store.path.fileName) ∧
    ((∀ before c after, calls = before ++ c :: after →
        ¬ (Keeper.run os ⟨store, d₀⟩ before).RenamedButUnsynced os c) →
      ∃ store' d', RuleStore.openAt os path base { k.disk with faults := fun _ => none } =
        (.ok store', d') ∧ store'.rules.learned = k.store.rules.learned ∧
        store'.rules.revision = k.store.rules.revision) := by
  intro k
  have hopened : Settles (RuleStore.openAt os path base) d _ _ := openAt_settles path base
  rcases hopened.cases with ⟨store', d', hrun, hidle, hpath, hbase, -, hstored⟩ | ⟨_, _, hrun, _⟩
  swap
  · cases hrun.symm.trans hopen
  cases hrun.symm.trans hopen
  have hbase' : k.store.rules.base = base := (Keeper.run_base calls).trans hbase
  refine ⟨hbase', ?_, ?_, k.store.rules.bounded, Keeper.run_revision calls,
    fun c => Keeper.Quiet.unchanged, fun hsynced => ?_⟩
  · exact hbase' ▸ k.store.rules.disjoint
  · exact hbase' ▸ k.store.rules.effective_eq
  · have hfirst : Stored os store d₀ := hstored.of_idle hidle
    have hlast : Stored os k.store k.disk := Keeper.run_stored calls hfirst hsynced
    have hpath' : path = k.store.path.given := by rw [hpath, Keeper.run_path]
    obtain ⟨d', hreopened⟩ := openAt_stored (d := { k.disk with faults := fun _ => none })
      ⟨hlast.isDirectory, hlast.persisted_eq⟩ fun _ => rfl
    rw [hbase', ← hpath'] at hreopened
    exact ⟨_, d', hreopened, rfl, rfl⟩

def RuleSet.fresh : RuleSet where
  revision := 0
  base := ∅
  learned := ∅
  effective := ∅
  disjoint := fun _ h => absurd h Std.ExtTreeMap.not_mem_empty
  effective_eq := by apply Std.ExtTreeMap.ext_getElem?; simp
  bounded := by simp

def RuleStore.fresh : RuleStore := ⟨⟨"/run/rules.json", "/run", "rules.json"⟩, .fresh, false⟩

theorem RuleStore.fresh_stored (os : Platform) : Stored os RuleStore.fresh Directory.fresh :=
  ⟨rfl, rfl⟩

/-- A first rule is added to a store that was opened without a file. -/
theorem compareAndSet_runs_keep_fresh_store :
    ∃ d₀, RuleStore.openAt ⟨7, fun _ => "invalid"⟩ ⟨"/run/rules.json", "/run", some "rules.json"⟩ ∅
        Directory.fresh = (.ok RuleStore.fresh, d₀) ∧
      let calls : List CasCall := [⟨⟨"ffmpeg", ffmpeg_valid⟩, .absent, .present .batch⟩]
      (Keeper.run ⟨7, fun _ => "invalid"⟩ ⟨RuleStore.fresh, d₀⟩ calls).store.rules.revision.toNat =
        0 + Keeper.changes ⟨7, fun _ => "invalid"⟩ ⟨RuleStore.fresh, d₀⟩ calls := by
  obtain ⟨d₀, hopen⟩ := openAt_stored (RuleStore.fresh_stored ⟨7, fun _ => "invalid"⟩) fun _ => rfl
  exact ⟨d₀, hopen, (compareAndSet_runs_keep_store _ _ _ _ d₀ _ hopen _).2.2.2.2.1⟩

end ScxAgent.Rules
