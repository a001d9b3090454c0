import ScxAgent.Rules.Comm
import ScxAgent.SeqCount
import ScxAgent.Scheduler.QueueAccounting

/-!
# Rule generations

User space changes the rules map while the callbacks read it. `publish_rule` makes `rules_seq` odd,
changes the map and makes `rules_seq` even again; `refresh_task_class` reads `rules_seq` before and
after its lookup and records the generation with the class. Here both are cut into their accesses to
shared memory, and the accesses of one publisher and of any number of refreshes, at most one for a
task, are interleaved with each other and with whatever else the callbacks do. The log is kept for
the statements only.
-/

namespace ScxAgent.Scheduler

open Relation List Option Function Sched
open Rules (Comm RuleClass RuleState)
open SeqCount (Cell Phase Vouched number)

abbrev RuleTable := RuleKey → Option UInt32

/-- The class that a table assigns to a name, the default class if it has no rule. -/
def Config.classify (cfg : Config) (rules : RuleTable) (key : RuleKey) : WorkloadClass :=
  match (rules key).bind classOfId with
  | some k => k
  | none => cfg.sanitizeClass cfg.defaultClass

variable {T : Type} [DecidableEq T] (cfg : Config)

/-! ## The publisher -/

inductive PublishPoint where
  /-- The stable generation has been read. -/
  | opened
  /-- The odd generation stands. -/
  | announced
  /-- The rule to delete was found. -/
  | found
  /-- The map was changed, or the change has failed. -/
  | applied
  deriving DecidableEq

/-- A `publish_rule` in progress. It borrows the scheduler mutably, so there is only one. -/
structure Publishing where
  comm : Comm
  state : RuleState
  stable : UInt64
  point : PublishPoint

/-- The next call on the rules map; `ok` says whether it succeeds. -/
def Publishing.mapCall (w : Publishing) (rules : RuleTable) (ok : Bool) : PublishPoint × RuleTable :=
  let key := w.comm.asBpfKey
  match w.point, w.state with
  | .announced, .present k =>
    (.applied, if ok then Function.update rules key (some k.asBpfId) else rules)
  | .announced, .absent => (if ok ∧ (rules key).isSome then .found else .applied, rules)
  | .found, _ => (.applied, if ok then Function.update rules key none else rules)
  | point, _ => (point, rules)

def Sched.setRules (s : Sched T) (seq : UInt64) (rules : RuleTable) : Sched T :=
  { s with kernel := { s.kernel with rulesSeq := seq, rules } }

/-! ## A refresh -/

/-- A `refresh_task_class` in progress, by its next access to shared memory. -/
inductive RefreshPoint where
  | sampled (checkComm : Bool) (seq : UInt64)
  /-- The name is copied byte by byte and may change under the copy. -/
  | copying (checkComm : Bool) (seq : UInt64) (comm : RuleKey) (rest : List (Fin 16))
  | compared (seq : UInt64) (comm : RuleKey)
  | looking (seq : UInt64) (comm : RuleKey)
  | classified (seq : UInt64) (comm : RuleKey) (k : WorkloadClass)
  | confirmed (seq : UInt64) (comm : RuleKey) (k : WorkloadClass)
  | switched (seq : UInt64) (comm : RuleKey)
  | stamping (seq : UInt64)

/-- The part of `transition_task_class` that changes the class. -/
def Sched.switchClass (s : Sched T) (p : T) (tctx : TaskCtx) (k : WorkloadClass) : Sched T :=
  if k ≠ tctx.classId then
    let s := if tctx.queueOwned then s.taskQueueDec p else s
    s.updateTask p fun tctx =>
      { resetClassState cfg { tctx with state := .none, queuedCpu := none } with classId := k }
  else s

/-- One access; the refresh goes on or returns its result. -/
def Sched.advanceRefresh (s : Sched T) (p : T) (tctx : TaskCtx) :
    RefreshPoint → (RefreshPoint ⊕ ClassRefreshResult) × Sched T
  | .sampled checkComm seq =>
    if checkComm = false ∧ seq = tctx.seenRulesSeq then (.inr .unchanged, s)
    else (.inl (.copying checkComm seq (fun _ => 0) (List.finRange 16)), s)
  | .copying checkComm seq comm (i :: rest) =>
    (.inl (.copying checkComm seq (Function.update comm i ((s.kernel.task p).comm i)) rest), s)
  | .copying checkComm seq comm [] =>
    if checkComm = true ∧ seq = tctx.seenRulesSeq ∧ comm = tctx.classifiedComm then
      (.inr .unchanged, s)
    else (.inl (.compared seq comm), s)
  | .compared seq comm =>
    if seq % 2 = 1 then (.inr .deferred, s)
    else if tctx.inRun then (.inr .deferred, s)
    else (.inl (.looking seq comm), s)
  | .looking seq comm => (.inl (.classified seq comm (s.classifyKey cfg comm)), s)
  | .classified seq comm k =>
    if seq ≠ s.kernel.rulesSeq ∨ s.kernel.rulesSeq % 2 = 1 then (.inr .deferred, s)
    else (.inl (.confirmed seq comm k), s)
  | .confirmed seq comm k =>
    if tctx.inRun then (.inr .deferred, s)
    else (.inl (.switched seq comm), s.switchClass cfg p tctx k)
  | .switched seq comm =>
    (.inl (.stamping seq), s.updateTask p fun tctx => { tctx with classifiedComm := comm })
  | .stamping seq =>
    (.inr .updated, s.updateTask p fun tctx => { tctx with seenRulesSeq := seq })

/-! ## The interleaving -/

inductive RuleEvent (T : Type) where
  | published (seq : UInt64) (rules : RuleTable)
  /-- A refresh of the task has read the generation. -/
  | sampled (p : T)
  /-- A refresh of the task has recorded its result. -/
  | recorded (p : T) (seq : UInt64) (comm : RuleKey) (k : WorkloadClass)

structure Live (T : Type) where
  sched : Sched T
  writer : Option Publishing
  refreshes : T → Option RefreshPoint
  /-- The latest event first. -/
  log : List (RuleEvent T)

/-- What a refresh records in the context of a task. -/
def TaskCtx.ruleRecord (tctx : TaskCtx) : WorkloadClass × RuleKey × UInt64 :=
  (tctx.classId, tctx.classifiedComm, tctx.seenRulesSeq)

def Sched.ruleRecord (s : Sched T) (p : T) : Option (WorkloadClass × RuleKey × UInt64) :=
  (s.tasks p).map TaskCtx.ruleRecord

namespace Live

/-- A refresh of `p` reads the generation. -/
def sample (l : Live T) (p : T) (checkComm : Bool) : Live T :=
  { l with
    refreshes := Function.update l.refreshes p (some (.sampled checkComm l.sched.kernel.rulesSeq))
    log := .sampled p :: l.log }

/-- The record that a finished refresh leaves in the log. -/
def recordOf (p : T) (next : RefreshPoint ⊕ ClassRefreshResult) (sched : Sched T) :
    List (RuleEvent T) :=
  match next, sched.ruleRecord p with
  | .inr .updated, some (k, comm, seq) => [.recorded p seq comm k]
  | _, _ => []

/-- A refresh of `p` goes on at `next`, or is over and logged. -/
def resume (l : Live T) (p : T) (next : RefreshPoint ⊕ ClassRefreshResult) (sched : Sched T) :
    Live T :=
  { l with
    sched
    refreshes := Function.update l.refreshes p next.getLeft?
    log := recordOf p next sched ++ l.log }

/-- The publisher goes on, with the generation and the rules map as it leaves them. -/
def write (l : Live T) (w : Publishing) (seq : UInt64) (rules : RuleTable) : Live T :=
  { l with sched := l.sched.setRules seq rules, writer := some w }

/-- The publisher makes the generation even again. -/
def release (l : Live T) (seq : UInt64) : Live T :=
  { l with
    sched := l.sched.setRules seq l.sched.kernel.rules
    writer := none
    log := .published seq l.sched.kernel.rules :: l.log }

inductive Next : Live T → Live T → Prop
  | start {l : Live T} (comm : Comm) (state : RuleState) (hidle : l.writer = none) :
      Next l (l.write ⟨comm, state, l.sched.kernel.rulesSeq &&& ~~~1, .opened⟩
        l.sched.kernel.rulesSeq l.sched.kernel.rules)
  | announce {l : Live T} {w : Publishing} (hw : l.writer = some w) (hpoint : w.point = .opened) :
      Next l (l.write { w with point := .announced } (w.stable + 1) l.sched.kernel.rules)
  | mapCall {l : Live T} {w : Publishing} (ok : Bool) (hw : l.writer = some w)
      (hpoint : w.point = .announced ∨ w.point = .found) :
      Next l (l.write { w with point := (w.mapCall l.sched.kernel.rules ok).1 }
        l.sched.kernel.rulesSeq (w.mapCall l.sched.kernel.rules ok).2)
  | publish {l : Live T} {w : Publishing} (hw : l.writer = some w) (hpoint : w.point = .applied) :
      Next l (l.release (w.stable + 2))
  | refresh {l : Live T} (p : T) (checkComm : Bool) (htask : (l.sched.tasks p).isSome)
      (hidle : l.refreshes p = none) :
      Next l (l.sample p checkComm)
  | advance {l : Live T} {p : T} {point : RefreshPoint} {tctx : TaskCtx}
      (hpoint : l.refreshes p = some point) (htask : l.sched.tasks p = some tctx) :
      Next l (l.resume p (l.sched.advanceRefresh cfg p tctx point).1
        (l.sched.advanceRefresh cfg p tctx point).2)
  -- anything else the kernel and the callbacks do; only a refresh writes the records of its task,
  -- which other callbacks cannot reach while it holds the lock
  | other {l : Live T} (sched : Sched T) (hseq : sched.kernel.rulesSeq = l.sched.kernel.rulesSeq)
      (hrules : sched.kernel.rules = l.sched.kernel.rules)
      (hrecord : ∀ p, (l.refreshes p).isSome → sched.ruleRecord p = l.sched.ruleRecord p) :
      Next l { l with sched }

/-- The daemon has loaded its rules and set the generation, and attaches the scheduler. -/
structure Started (l : Live T) : Prop where
  seq : l.sched.kernel.rulesSeq = 2
  writer : l.writer = none
  refreshes : ∀ p, l.refreshes p = none
  log : l.log = [.published 2 l.sched.kernel.rules]

end Live

/-! ## Publications in the log -/

/-- The published tables under their numbers, the latest first. -/
def publications (log : List (RuleEvent T)) : List (UInt64 × RuleTable) :=
  log.filterMap fun
    | .published seq rules => some (seq, rules)
    | _ => none

def RuleEvent.isSampled (p : T) : RuleEvent T → Bool
  | .sampled q => q = p
  | _ => false

/-- What was published since the latest refresh of the task read the generation. -/
def sinceSample (p : T) (log : List (RuleEvent T)) : List (UInt64 × RuleTable) :=
  publications (log.takeWhile fun event => !event.isSampled p)

/-- How much was published before. -/
def sampledAt (p : T) (log : List (RuleEvent T)) : ℕ :=
  (publications (log.dropWhile fun event => !event.isSampled p)).length

omit [DecidableEq T] in
@[simp] theorem publications_published (seq : UInt64) (rules : RuleTable)
    (log : List (RuleEvent T)) :
    publications (.published seq rules :: log) = (seq, rules) :: publications log := rfl

omit [DecidableEq T] in
@[simp] theorem publications_sampled (p : T) (log : List (RuleEvent T)) :
    publications (.sampled p :: log) = publications log := rfl

theorem publications_length (p : T) (log : List (RuleEvent T)) :
    (publications log).length = (sinceSample p log).length + sampledAt p log := by
  rw [sinceSample, sampledAt, ← length_append, publications, publications, publications,
    ← filterMap_append, takeWhile_append_dropWhile]

theorem sampledAt_le (p : T) (log : List (RuleEvent T)) :
    sampledAt p log ≤ (publications log).length := by
  rw [publications_length p log]
  exact Nat.le_add_left _ _

theorem sampledAt_self (p : T) (log : List (RuleEvent T)) :
    sampledAt p (.sampled p :: log) = (publications log).length := by
  rw [sampledAt, dropWhile_cons_of_neg (by simp [RuleEvent.isSampled]), publications_sampled]

variable {event : RuleEvent T}

theorem sampledAt_cons (p : T) (log : List (RuleEvent T)) (h : event.isSampled p = false) :
    sampledAt p (event :: log) = sampledAt p log := by
  rw [sampledAt, dropWhile_cons_of_pos (by rw [h]; rfl), sampledAt]

/-! ## The invariant -/

namespace Live

def phase (l : Live T) : Phase :=
  match l.writer with
  | none => .stable
  | some w => if w.point = .opened then .stable else .updating

def cell (l : Live T) : Cell RuleTable where
  seq := l.sched.kernel.rulesSeq
  value := l.sched.kernel.rules
  published := publications l.log

/-- While its number has not come back, the table published under `seq` gives the name this class. -/
def Assigned (l : Live T) (p : T) (seq : UInt64) (comm : RuleKey) (k : WorkloadClass) : Prop :=
  seq = number (sampledAt p l.log) ∧
    ((publications l.log).length < sampledAt p l.log + 2 ^ 63 →
      Vouched (publications l.log) seq fun rules => cfg.classify rules comm = k)

/-- What a refresh knows at each of its points. -/
def Knows (l : Live T) (p : T) : RefreshPoint → Prop
  | .sampled _ seq | .copying _ seq _ _ | .compared seq _ =>
    seq % 2 = 0 → seq = number (sampledAt p l.log)
  | .looking seq _ => seq = number (sampledAt p l.log)
  | .classified seq comm k =>
    seq = number (sampledAt p l.log) ∧
      l.cell.Fresh l.phase (sampledAt p l.log) fun rules => cfg.classify rules comm = k
  | .confirmed seq comm k => l.Assigned cfg p seq comm k
  | .switched seq comm =>
    ∃ k old seen, l.sched.ruleRecord p = some (k, old, seen) ∧ l.Assigned cfg p seq comm k
  | .stamping seq =>
    ∃ k comm seen, l.sched.ruleRecord p = some (k, comm, seen) ∧ l.Assigned cfg p seq comm k

/-- A record, with the log as it was, names an even generation and the class that the table
published under it assigns. -/
def RecordFits (log : List (RuleEvent T)) (p : T) (seq : UInt64) (comm : RuleKey)
    (k : WorkloadClass) : Prop :=
  (sinceSample p log).length < 2 ^ 63 →
    seq % 2 = 0 ∧ Vouched (publications log) seq fun rules => cfg.classify rules comm = k

structure Sound (l : Live T) : Prop where
  cell : l.cell.Sound l.phase
  stable : ∀ w, l.writer = some w → w.stable = number (publications l.log).length
  refreshes : ∀ p point, l.refreshes p = some point → l.Knows cfg p point
  records : ∀ later p seq comm k before, l.log = later ++ .recorded p seq comm k :: before →
    RecordFits cfg before p seq comm k

end Live

/-! ## What a refresh writes -/

section Records

variable {s : Sched T} {p q : T} {tctx : TaskCtx}

theorem ruleRecord_updateTask_of_ne (f : TaskCtx → TaskCtx) (hne : q ≠ p) :
    (s.updateTask p f).ruleRecord q = s.ruleRecord q := by
  simp only [ruleRecord, updateTask, update_of_ne hne]

theorem ruleRecord_updateTask_self (f : TaskCtx → TaskCtx) :
    (s.updateTask p f).ruleRecord p = (s.tasks p).map fun tctx => (f tctx).ruleRecord := by
  simp only [ruleRecord, updateTask, Function.update_self, Option.map_map]
  rfl

theorem taskQueueDec_rules (s : Sched T) (p : T) :
    (s.taskQueueDec p).kernel = s.kernel ∧ (s.taskQueueDec p).ruleRecord = s.ruleRecord := by
  have hreads : ReadsTasks (T := T) (fun s => (s.kernel, s.ruleRecord)) TaskCtx.ruleRecord :=
    fun _ _ _ h => Prod.ext rfl (map_updateTask TaskCtx.ruleRecord h)
  have hcounts : CountFree (T := T) fun s => (s.kernel, s.ruleRecord) := ⟨rfl, rfl, rfl⟩
  exact Prod.mk.inj (hcounts.taskQueueDec hreads fun _ => rfl)

/-- The class of the task becomes `k`; the generation and the name stay behind. -/
theorem switchClass_rules (htask : s.tasks p = some tctx) (k : WorkloadClass) :
    (s.switchClass cfg p tctx k).kernel = s.kernel ∧
      (∀ q ≠ p, (s.switchClass cfg p tctx k).ruleRecord q = s.ruleRecord q) ∧
      (s.switchClass cfg p tctx k).ruleRecord p =
        some (k, tctx.classifiedComm, tctx.seenRulesSeq) := by
  have hrecord : s.ruleRecord p = some tctx.ruleRecord := by rw [ruleRecord, htask]; rfl
  unfold switchClass
  by_cases hk : k = tctx.classId
  · rw [if_neg (not_not.mpr hk)]
    exact ⟨rfl, fun _ _ => rfl, by rw [hrecord, hk]; rfl⟩
  · rw [if_pos hk]
    dsimp only
    have hleft : (if tctx.queueOwned then s.taskQueueDec p else s).kernel = s.kernel ∧
        (if tctx.queueOwned then s.taskQueueDec p else s).ruleRecord = s.ruleRecord := by
      split
      · exact taskQueueDec_rules s p
      · exact ⟨rfl, rfl⟩
    generalize (if tctx.queueOwned then s.taskQueueDec p else s) = s₁ at hleft ⊢
    obtain ⟨hkernel, hsame⟩ := hleft
    refine ⟨hkernel, fun q hq => ?_, ?_⟩
    · rw [ruleRecord_updateTask_of_ne _ hq, hsame]
    · have hleft := congrFun hsame p
      rw [hrecord, ruleRecord, map_eq_some_iff] at hleft
      obtain ⟨tctx', htask', hrecord'⟩ := hleft
      rw [ruleRecord_updateTask_self, htask', map_some]
      simp only [TaskCtx.ruleRecord, Prod.mk.injEq] at hrecord'
      exact congrArg some (Prod.ext rfl (Prod.ext hrecord'.2.1 hrecord'.2.2))

/-- A refresh leaves the rules and the records of other tasks alone. -/
theorem advanceRefresh_frame (htask : s.tasks p = some tctx) (point : RefreshPoint) :
    (s.advanceRefresh cfg p tctx point).2.kernel = s.kernel ∧
      ∀ q ≠ p, (s.advanceRefresh cfg p tctx point).2.ruleRecord q = s.ruleRecord q := by
  have hsame : s.kernel = s.kernel ∧ ∀ q ≠ p, s.ruleRecord q = s.ruleRecord q :=
    ⟨rfl, fun _ _ => rfl⟩
  match point with
  | .sampled _ _ | .copying _ _ _ [] | .classified _ _ _ =>
    simp only [advanceRefresh]
    split <;> exact hsame
  | .copying _ _ _ (_ :: _) | .looking _ _ => exact hsame
  | .compared _ _ =>
    simp only [advanceRefresh]
    split
    · exact hsame
    · split <;> exact hsame
  | .confirmed _ _ k =>
    simp only [advanceRefresh]
    split
    · exact hsame
    · exact ⟨(switchClass_rules cfg htask k).1, (switchClass_rules cfg htask k).2.1⟩
  | .switched _ _ | .stamping _ =>
    exact ⟨rfl, fun q hq => ruleRecord_updateTask_of_ne _ hq⟩

end Records

/-! ## One step keeps the invariant -/

namespace Live

variable {l l' : Live T} {p q : T} {seq : UInt64} {comm : RuleKey} {k : WorkloadClass}
  {point : RefreshPoint} {tctx : TaskCtx}

/-- A refresh of `q` knows what it knew if it was not sampled again, its records stand, and what was
published still vouches for what it has seen. -/
theorem Knows.mono (h : l.Knows cfg q point) (hsampled : sampledAt q l'.log = sampledAt q l.log)
    (hrecord : l'.sched.ruleRecord q = l.sched.ruleRecord q)
    (hassigned : ∀ seq comm k, l.Assigned cfg q seq comm k → l'.Assigned cfg q seq comm k)
    (hfresh : ∀ holds, l.cell.Fresh l.phase (sampledAt q l.log) holds →
      l'.cell.Fresh l'.phase (sampledAt q l.log) holds) :
    l'.Knows cfg q point := by
  cases point with
  | sampled _ seq | copying _ seq _ _ | compared seq _ | looking seq _ =>
    simp only [Knows]
    rw [hsampled]
    exact h
  | classified seq comm k =>
    simp only [Knows]
    rw [hsampled]
    exact ⟨h.1, hfresh _ h.2⟩
  | confirmed seq comm k => exact hassigned seq comm k h
  | switched seq comm =>
    obtain ⟨k, old, seen, hold, hk⟩ := h
    exact ⟨k, old, seen, hrecord.trans hold, hassigned seq comm k hk⟩
  | stamping seq =>
    obtain ⟨k, comm, seen, hold, hk⟩ := h
    exact ⟨k, comm, seen, hrecord.trans hold, hassigned seq comm k hk⟩

/-- Nothing a refresh of `q` relies on has changed. -/
structure Undisturbed (q : T) (l l' : Live T) : Prop where
  published : publications l'.log = publications l.log
  sampled : sampledAt q l'.log = sampledAt q l.log
  stable : l'.phase = .stable →
    l.phase = .stable ∧ l'.sched.kernel.rules = l.sched.kernel.rules
  record : l'.sched.ruleRecord q = l.sched.ruleRecord q

theorem Knows.undisturbed (h : l.Knows cfg q point) (hq : Undisturbed q l l') :
    l'.Knows cfg q point := by
  refine h.mono cfg hq.sampled hq.record (fun seq comm k hassigned => ?_)
    fun holds hfresh hphase hlength => ?_
  · unfold Assigned
    rw [hq.published, hq.sampled]
    exact hassigned
  · obtain ⟨hstable, hrules⟩ := hq.stable hphase
    simp only [cell, hq.published, hrules] at hlength ⊢
    exact hfresh hstable hlength

/-- A publication under the next number. -/
structure Publishes (l l' : Live T) : Prop where
  log : ∃ rules, l'.log =
    .published (number ((publications l.log).length + 1)) rules :: l.log
  record : l'.sched.ruleRecord = l.sched.ruleRecord

theorem Knows.publish (h : l.Knows cfg q point) (hpublish : Publishes l l') :
    l'.Knows cfg q point := by
  obtain ⟨⟨rules, hlog⟩, hrecord⟩ := hpublish
  have hle := sampledAt_le q l.log
  have hsampled : sampledAt q l'.log = sampledAt q l.log := by rw [hlog, sampledAt_cons q l.log rfl]
  refine h.mono cfg hsampled (congrFun hrecord q) (fun seq comm k hassigned => ?_)
    fun holds _ => Cell.Fresh.of_published ?_
  · obtain ⟨rfl, hvouched⟩ := hassigned
    unfold Assigned
    rw [hsampled, hlog, publications_published, length_cons]
    exact ⟨rfl, fun hlt => (hvouched (by omega)).publish hle hlt⟩
  · rw [cell, hlog]
    exact Nat.lt_succ_of_le hle

/-- An event that is no record leaves the records of the log as they were. -/
theorem records_cons {log : List (RuleEvent T)}
    (h : ∀ later p seq comm k before, log = later ++ .recorded p seq comm k :: before →
      RecordFits cfg before p seq comm k)
    (hevent : ∀ p seq comm k, event = .recorded p seq comm k → RecordFits cfg log p seq comm k) :
    ∀ later p seq comm k before, event :: log = later ++ .recorded p seq comm k :: before →
      RecordFits cfg before p seq comm k := by
  intro later p seq comm k before hlog
  cases later with
  | nil =>
    cases hlog
    exact hevent p seq comm k rfl
  | cons first later =>
    rw [cons_append, cons.injEq] at hlog
    exact h later p seq comm k before hlog.2

omit [DecidableEq T] in
theorem record_of_task {s : Sched T} {seen : UInt64} (htask : s.tasks p = some tctx)
    (hrecord : s.ruleRecord p = some (k, comm, seen)) :
    tctx.classId = k ∧ tctx.classifiedComm = comm ∧ tctx.seenRulesSeq = seen := by
  rw [ruleRecord, htask, map_some, some.injEq] at hrecord
  simpa only [TaskCtx.ruleRecord, Prod.mk.injEq] using hrecord

/-- What is known of a refresh once it has made one more access. -/
def Advanced (l : Live T) (p : T) (sched : Sched T) : RefreshPoint ⊕ ClassRefreshResult → Prop
  | .inl next => (l.resume p (.inl next) sched).Knows cfg p next
  | .inr .updated => ∃ k comm seq,
      sched.ruleRecord p = some (k, comm, seq) ∧ l.Assigned cfg p seq comm k
  | .inr _ => True

theorem Knows.advance (hsound : l.cell.Sound l.phase) (htask : l.sched.tasks p = some tctx)
    (h : l.Knows cfg p point) :
    l.Advanced cfg p (l.sched.advanceRefresh cfg p tctx point).2
      (l.sched.advanceRefresh cfg p tctx point).1 := by
  match point with
  | .sampled _ _ | .copying _ _ _ [] =>
    simp only [advanceRefresh]
    split
    · trivial
    · exact h
  | .copying _ _ _ (_ :: _) => exact h
  | .compared seq comm =>
    simp only [advanceRefresh]
    split
    · trivial
    · rename_i heven
      split
      · trivial
      · refine h ?_
        have hlt : (seq % 2).toNat < 2 := by
          rw [UInt64.toNat_mod]
          exact Nat.mod_lt _ (by decide)
        apply UInt64.toNat_inj.mp
        have hne : (seq % 2).toNat ≠ 1 := fun hone => heven (UInt64.toNat_inj.mp hone)
        change (seq % 2).toNat = 0
        omega
  | .looking seq comm => exact ⟨h, fun _ _ => rfl⟩
  | .classified seq comm k =>
    simp only [advanceRefresh]
    split
    · trivial
    · rename_i hconfirmed
      rw [not_or, not_not] at hconfirmed
      refine ⟨h.1, fun hlt => ?_⟩
      have hseq : l.cell.seq = number (sampledAt p l.log) := hconfirmed.1.symm.trans h.1
      rw [h.1]
      exact hsound.vouched hseq h.2 (sampledAt_le p l.log) hlt
  | .confirmed seq comm k =>
    simp only [advanceRefresh]
    split
    · trivial
    · exact ⟨k, _, _, (switchClass_rules cfg htask k).2.2, h⟩
  | .switched seq comm =>
    obtain ⟨k, old, seen, hrecord, hassigned⟩ := h
    obtain ⟨hclass, -, -⟩ := record_of_task htask hrecord
    refine ⟨k, comm, tctx.seenRulesSeq, ?_, hassigned⟩
    change (l.sched.updateTask p _).ruleRecord p = _
    rw [ruleRecord_updateTask_self, htask, ← hclass]
    rfl
  | .stamping seq =>
    obtain ⟨k, comm, seen, hrecord, hassigned⟩ := h
    obtain ⟨hclass, hcomm, -⟩ := record_of_task htask hrecord
    refine ⟨k, comm, seq, ?_, hassigned⟩
    change (l.sched.updateTask p _).ruleRecord p = _
    rw [ruleRecord_updateTask_self, htask, ← hclass, ← hcomm]
    rfl

theorem Assigned.fits (h : l.Assigned cfg p seq comm k) : RecordFits cfg l.log p seq comm k := by
  intro hsince
  refine ⟨?_, h.2 ?_⟩
  · rw [h.1]
    exact SeqCount.even_number _
  · rw [publications_length p l.log]
    omega

omit [DecidableEq T] in
/-- An access leaves no record, or the one that the refresh has just made. -/
theorem recordOf_cases (p : T) (next : RefreshPoint ⊕ ClassRefreshResult) (sched : Sched T) :
    recordOf p next sched = [] ∨ next = .inr .updated ∧
      ∃ k comm seq, sched.ruleRecord p = some (k, comm, seq) ∧
        recordOf p next sched = [.recorded p seq comm k] := by
  unfold recordOf
  split
  · rename_i k comm seq hrecord
    exact .inr ⟨rfl, k, comm, seq, hrecord, rfl⟩
  · exact .inl rfl

omit [DecidableEq T] in
theorem recordOf_updated {sched : Sched T} (hrecord : sched.ruleRecord p = some (k, comm, seq)) :
    recordOf p (.inr .updated) sched = [.recorded p seq comm k] := by
  simp only [recordOf, hrecord]

theorem resume_published (l : Live T) (p q : T) (next : RefreshPoint ⊕ ClassRefreshResult)
    (sched : Sched T) :
    publications (l.resume p next sched).log = publications l.log ∧
      sampledAt q (l.resume p next sched).log = sampledAt q l.log := by
  rcases recordOf_cases p next sched with hlog | ⟨-, k, comm, seq, -, hlog⟩
  · rw [resume, hlog]
    exact ⟨rfl, rfl⟩
  · rw [resume, hlog]
    exact ⟨rfl, sampledAt_cons q l.log rfl⟩

omit [DecidableEq T] in
theorem phase_of_writer {w : Publishing} (hw : l.writer = some w) :
    l.phase = if w.point = .opened then .stable else .updating := by
  simp only [phase, hw]

theorem mapCall_point (w : Publishing) (rules : RuleTable) (ok : Bool)
    (hpoint : w.point = .announced ∨ w.point = .found) : (w.mapCall rules ok).1 ≠ .opened := by
  unfold Publishing.mapCall
  rcases hpoint with hpoint | hpoint
  · rw [hpoint]
    cases w.state with
    | absent =>
      dsimp only
      split <;> decide
    | present k => exact nofun
  · rw [hpoint]
    exact nofun

theorem Sound.advance (h : l.Sound cfg) (hpoint : l.refreshes p = some point)
    (htask : l.sched.tasks p = some tctx) :
    Sound cfg (l.resume p (l.sched.advanceRefresh cfg p tctx point).1
      (l.sched.advanceRefresh cfg p tctx point).2) := by
  have hadvanced := Knows.advance cfg h.cell htask (h.refreshes p point hpoint)
  have hframe := advanceRefresh_frame cfg htask point
  generalize l.sched.advanceRefresh cfg p tctx point = outcome at hadvanced hframe ⊢
  obtain ⟨next, sched⟩ := outcome
  obtain ⟨hkernel, hothers⟩ := hframe
  dsimp only at hadvanced hkernel hothers ⊢
  have hpublished := fun q => resume_published l p q next sched
  have hcell : (l.resume p next sched).cell = l.cell := by
    simp only [Live.cell, (hpublished p).1]
    simp only [resume, hkernel]
  refine ⟨?_, ?_, ?_, ?_⟩
  · rw [hcell]
    exact h.cell
  · intro w hw
    rw [(hpublished p).1]
    exact h.stable w hw
  · intro q next' hq
    by_cases hqp : q = p
    · subst hqp
      simp only [resume, update_self] at hq
      cases next with
      | inr result => cases hq
      | inl point' =>
        cases hq
        exact hadvanced
    · simp only [resume, update_of_ne hqp] at hq
      exact (h.refreshes q next' hq).undisturbed cfg ⟨(hpublished q).1, (hpublished q).2,
        fun hstable => ⟨hstable, congrArg Kernel.rules hkernel⟩, hothers q hqp⟩
  · rcases recordOf_cases p next sched with hlog | ⟨rfl, k, comm, seq, hrecord, hlog⟩
    · rw [resume, hlog]
      exact h.records
    · rw [resume, hlog]
      refine records_cons cfg h.records ?_
      rintro _ _ _ _ ⟨⟩
      obtain ⟨k', comm', seq', hrecord', hassigned⟩ := hadvanced
      cases hrecord.symm.trans hrecord'
      exact hassigned.fits cfg

theorem Sound.next (h : l.Sound cfg) (hnext : Next cfg l l') : l'.Sound cfg := by
  cases hnext with
  | start comm state hidle =>
    have hphase : l.phase = .stable := by simp only [phase, hidle]
    have hcell := h.cell
    rw [hphase] at hcell
    refine ⟨hcell, ?_, ?_, h.records⟩
    · rintro w ⟨⟩
      change l.cell.seq &&& ~~~1 = _
      rw [hcell.seq_stable]
      exact SeqCount.number_and_not_one _
    · intro q point hq
      exact (h.refreshes q point hq).undisturbed cfg ⟨rfl, rfl, fun _ => ⟨hphase, rfl⟩, rfl⟩
  | @announce w hw hpoint =>
    have hphase : l.phase = .stable := by rw [phase_of_writer hw, if_pos hpoint]
    have hcell := h.cell
    rw [hphase] at hcell
    have hupdating := hcell.announce
    rw [show number l.cell.published.length = w.stable from (h.stable w hw).symm] at hupdating
    refine ⟨hupdating, ?_, ?_, h.records⟩
    · rintro w' ⟨⟩
      exact h.stable w hw
    · intro q point hq
      exact (h.refreshes q point hq).undisturbed cfg ⟨rfl, rfl, nofun, rfl⟩
  | @mapCall w ok hw hpoint =>
    have hopen : w.point ≠ .opened := by
      rcases hpoint with hpoint | hpoint <;> rw [hpoint] <;> decide
    have hphase : l.phase = .updating := by rw [phase_of_writer hw, if_neg hopen]
    have hcell := h.cell
    rw [hphase] at hcell
    have hafter : phase (l.write { w with point := (w.mapCall l.sched.kernel.rules ok).1 }
        l.sched.kernel.rulesSeq (w.mapCall l.sched.kernel.rules ok).2) = .updating :=
      if_neg (mapCall_point w _ ok hpoint)
    refine ⟨?_, ?_, ?_, h.records⟩
    · rw [hafter]
      exact hcell.change _
    · rintro w' ⟨⟩
      exact h.stable w hw
    · intro q point hq
      refine (h.refreshes q point hq).undisturbed cfg ⟨rfl, rfl, fun hstable => ?_, rfl⟩
      rw [hafter] at hstable
      cases hstable
  | @publish w hw hpoint =>
    have hphase : l.phase = .updating := by
      rw [phase_of_writer hw, if_neg (by rw [hpoint]; decide)]
    have hcell := h.cell
    rw [hphase] at hcell
    have hnumber : w.stable + 2 = number ((publications l.log).length + 1) := by
      rw [h.stable w hw, SeqCount.number_succ]
    rw [hnumber]
    refine ⟨hcell.publish, nofun, ?_, ?_⟩
    · intro q point hq
      exact (h.refreshes q point hq).publish cfg ⟨⟨_, rfl⟩, rfl⟩
    · exact records_cons cfg h.records nofun
  | refresh p checkComm htask hidle =>
    refine ⟨h.cell, h.stable, ?_, records_cons cfg h.records nofun⟩
    intro q point hq
    by_cases hqp : q = p
    · subst hqp
      simp only [sample, update_self] at hq
      cases hq
      intro heven
      rw [sample, sampledAt_self]
      exact (h.cell.seq_of_even heven).2
    · simp only [sample, update_of_ne hqp] at hq
      have hother : (RuleEvent.sampled p).isSampled q = false :=
        decide_eq_false (Ne.symm hqp)
      exact (h.refreshes q point hq).undisturbed cfg
        ⟨rfl, sampledAt_cons q l.log hother, fun hstable => ⟨hstable, rfl⟩, rfl⟩
  | advance hpoint htask => exact h.advance cfg hpoint htask
  | other sched hseq hrules hrecord =>
    have hcell : Live.cell { l with sched } = l.cell := by
      simp only [Live.cell, hseq, hrules]
    refine ⟨?_, h.stable, ?_, h.records⟩
    · rw [hcell]
      exact h.cell
    · intro q point hq
      have hbusy : (l.refreshes q).isSome := isSome_of_eq_some hq
      exact (h.refreshes q point hq).undisturbed cfg
        ⟨rfl, rfl, fun hstable => ⟨hstable, hrules⟩, hrecord q hbusy⟩

theorem Started.sound (h : l.Started) : l.Sound cfg := by
  have hphase : l.phase = .stable := by simp only [phase, h.writer]
  have hpublished : publications l.log = [(2, l.sched.kernel.rules)] := by
    rw [h.log]
    rfl
  refine ⟨?_, ?_, ?_, ?_⟩
  · rw [hphase, cell, hpublished, h.seq]
    exact ⟨rfl, rfl, trivial⟩
  · intro w hw
    rw [h.writer] at hw
    cases hw
  · intro p point hp
    rw [h.refreshes p] at hp
    cases hp
  · intro later p seq comm k before hlog
    have hmem : RuleEvent.recorded p seq comm k ∈ l.log := by
      rw [hlog]
      exact mem_append_right _ mem_cons_self
    rw [h.log, mem_singleton] at hmem
    cases hmem

theorem Sound.run (h : l.Sound cfg) (hrun : ReflTransGen (Next cfg) l l') : l'.Sound cfg := by
  induction hrun with
  | refl => exact h
  | tail _ hnext ih => exact ih.next cfg hnext

end Live

/-! ## A refresh and a publication that nothing interrupts -/

variable {seq : UInt64} {comm : RuleKey} {checkComm : Bool}
  {outcome : RefreshPoint ⊕ ClassRefreshResult}

section Alone

variable {p : T}

/-- Accesses of a refresh with none of anyone else in between. -/
inductive Alone (p : T) : RefreshPoint → Sched T → RefreshPoint ⊕ ClassRefreshResult → Sched T → Prop
  | refl {point : RefreshPoint} {s : Sched T} : Alone p point s (.inl point) s
  | done {point : RefreshPoint} {s s' : Sched T} {result : ClassRefreshResult} {tctx : TaskCtx}
      (htask : s.tasks p = some tctx)
      (hadvance : s.advanceRefresh cfg p tctx point = (.inr result, s')) :
      Alone p point s (.inr result) s'
  | step {point next : RefreshPoint} {s s' s'' : Sched T}
      {outcome : RefreshPoint ⊕ ClassRefreshResult} {tctx : TaskCtx} (htask : s.tasks p = some tctx)
      (hadvance : s.advanceRefresh cfg p tctx point = (.inl next, s'))
      (hrest : Alone p next s' outcome s'') : Alone p point s outcome s''

theorem updateTask_updateTask (s : Sched T) (p : T) (f g : TaskCtx → TaskCtx) :
    (s.updateTask p f).updateTask p g = s.updateTask p fun tctx => g (f tctx) := by
  simp only [updateTask, Function.update_self, Function.update_idem, Option.map_map]
  rfl

variable {s : Sched T} {tctx : TaskCtx} {s' : Sched T}

/-- The accesses after the confirmation make up `transition_task_class`. -/
theorem alone_transition (htask : s.tasks p = some tctx) (seq : UInt64) (comm : RuleKey)
    (k : WorkloadClass) :
    Alone cfg p (.confirmed seq comm k) s (.inr (s.transitionTaskClass cfg p k comm seq).1)
      (s.transitionTaskClass cfg p k comm seq).2 := by
  unfold transitionTaskClass
  rw [htask]
  dsimp only
  by_cases hrun : tctx.inRun
  · rw [if_pos hrun]
    exact .done htask (if_pos hrun)
  · rw [if_neg hrun]
    have hrecord := (switchClass_rules cfg htask k).2.2
    rw [ruleRecord, map_eq_some_iff] at hrecord
    obtain ⟨tctx₁, htask₁, -⟩ := hrecord
    have htask₂ : ((s.switchClass cfg p tctx k).updateTask p fun tctx =>
        { tctx with classifiedComm := comm }).tasks p =
          some { tctx₁ with classifiedComm := comm } := by
      simp only [updateTask, update_self, htask₁, map_some]
    refine .step htask (if_neg hrun) (.step htask₁ rfl (.done htask₂ ?_))
    simp only [advanceRefresh, updateTask_updateTask]
    rfl

theorem advanceRefresh_copied
    (hstale : ¬ (checkComm = true ∧ seq = tctx.seenRulesSeq ∧ comm = tctx.classifiedComm)) :
    s.advanceRefresh cfg p tctx (.copying checkComm seq comm []) = (.inl (.compared seq comm), s) :=
  if_neg hstale

theorem advanceRefresh_classified {k : WorkloadClass}
    (hfirm : ¬ (seq ≠ s.kernel.rulesSeq ∨ s.kernel.rulesSeq % 2 = 1)) :
    s.advanceRefresh cfg p tctx (.classified seq comm k) = (.inl (.confirmed seq comm k), s) :=
  if_neg hfirm

/-- A name that does not change is copied as it is. -/
theorem alone_copy (htask : s.tasks p = some tctx) (rest : List (Fin 16)) :
    ∀ comm : RuleKey,
      Alone cfg p (.copying checkComm seq
        (fun i => if i ∈ rest then (s.kernel.task p).comm i else comm i) []) s outcome s' →
      Alone cfg p (.copying checkComm seq comm rest) s outcome s' := by
  induction rest with
  | nil =>
    intro comm h
    simpa only [not_mem_nil, if_false] using h
  | cons i rest ih =>
    intro comm h
    refine .step htask rfl (ih _ ?_)
    convert h using 3
    rename_i j
    by_cases hrest : j ∈ rest
    · rw [if_pos hrest, if_pos (mem_cons_of_mem i hrest)]
    · by_cases hj : j = i
      · rw [hj, if_pos mem_cons_self, update_self, ite_self]
      · rw [if_neg hrest, if_neg (by simp [hj, hrest]), update_of_ne hj]

/-- The accesses of an uninterrupted refresh make up `refresh_task_class`. -/
theorem alone_refresh (htask : s.tasks p = some tctx) (checkComm : Bool)
    (hconfirm : s.kernel.confirmedRulesSeq = s.kernel.rulesSeq) :
    Alone cfg p (.sampled checkComm s.kernel.rulesSeq) s
      (.inr (s.refreshTaskClass cfg p checkComm).1) (s.refreshTaskClass cfg p checkComm).2 := by
  unfold refreshTaskClass
  rw [htask]
  dsimp only
  by_cases hseen : checkComm = false ∧ s.kernel.rulesSeq = tctx.seenRulesSeq
  · rw [if_pos hseen]
    exact .done htask (if_pos hseen)
  rw [if_neg hseen]
  refine .step htask (if_neg hseen) (alone_copy cfg htask _ _ ?_)
  simp only [mem_finRange, if_true]
  by_cases hsame : checkComm = true ∧ s.kernel.rulesSeq = tctx.seenRulesSeq ∧
      (s.kernel.task p).comm = tctx.classifiedComm
  · rw [if_pos hsame]
    exact .done htask (if_pos hsame)
  rw [if_neg hsame]
  refine .step htask (advanceRefresh_copied cfg hsame) ?_
  by_cases hodd : s.kernel.rulesSeq % 2 = 1
  · rw [if_pos hodd]
    exact .done htask (if_pos hodd)
  rw [if_neg hodd]
  by_cases hrun : tctx.inRun
  · rw [if_pos hrun]
    exact .done htask (by simp only [advanceRefresh, if_neg hodd, if_pos hrun])
  rw [if_neg hrun, hconfirm]
  have hlook : s.advanceRefresh cfg p tctx (.compared s.kernel.rulesSeq (s.kernel.task p).comm) =
      (.inl (.looking s.kernel.rulesSeq (s.kernel.task p).comm), s) := by
    simp only [advanceRefresh, if_neg hodd, if_neg hrun]
  refine .step htask hlook (.step htask rfl ?_)
  have hfirm : ¬ (s.kernel.rulesSeq ≠ s.kernel.rulesSeq ∨ s.kernel.rulesSeq % 2 = 1) := by
    rintro (hne | hone)
    · exact hne rfl
    · exact hodd hone
  rw [if_neg hfirm]
  exact .step htask (advanceRefresh_classified cfg hfirm) (alone_transition cfg htask _ _ _)

theorem resume_resume (l : Live T) (point : RefreshPoint)
    (outcome : RefreshPoint ⊕ ClassRefreshResult) (s s' : Sched T) :
    (l.resume p (.inl point) s).resume p outcome s' = l.resume p outcome s' := by
  simp only [Live.resume, Live.recordOf, nil_append, update_idem]

/-- What a refresh does alone, it can do among the others. -/
theorem Alone.run {point : RefreshPoint} (h : Alone cfg p point s outcome s') :
    ∀ l : Live T, l.sched = s → l.refreshes p = some point →
      ReflTransGen (Live.Next cfg) l (l.resume p outcome s') := by
  induction h with
  | @refl point s =>
    rintro l rfl hpoint
    have hsame : l.resume p (.inl point) l.sched = l := by
      simp only [Live.resume, Live.recordOf, nil_append, Sum.getLeft?_inl, ← hpoint,
        update_eq_self]
    rw [hsame]
  | @done point s s' result tctx htask hadvance =>
    rintro l rfl hpoint
    have hnext : Live.Next cfg l _ := .advance hpoint htask
    rw [hadvance] at hnext
    exact .single hnext
  | @step point next s s' s'' outcome tctx htask hadvance hrest ih =>
    rintro l rfl hpoint
    have hnext : Live.Next cfg l _ := .advance hpoint htask
    rw [hadvance] at hnext
    have hrun := ih (l.resume p (.inl next) s') rfl (update_self ..)
    rw [resume_resume] at hrun
    exact .head hnext hrun

/-- A refresh that nothing interrupts does what `refresh_task_class` does in one go. -/
theorem refresh_alone (l : Live T) (checkComm : Bool) (htask : l.sched.tasks p = some tctx)
    (hidle : l.refreshes p = none)
    (hconfirm : l.sched.kernel.confirmedRulesSeq = l.sched.kernel.rulesSeq) :
    ReflTransGen (Live.Next cfg) l ((l.sample p checkComm).resume p
      (.inr (l.sched.refreshTaskClass cfg p checkComm).1)
        (l.sched.refreshTaskClass cfg p checkComm).2) :=
  .head (.refresh p checkComm (isSome_of_eq_some htask) hidle)
    ((alone_refresh cfg htask checkComm hconfirm).run cfg (l.sample p checkComm) rfl
      (update_self ..))

/-- The rules map once a rule has been set or withdrawn. -/
def ruleAfter (rules : RuleTable) (comm : Comm) (state : RuleState) : RuleTable :=
  Function.update rules comm.asBpfKey (state.toClass.map RuleClass.asBpfId)

theorem ruleAfter_absent_of_none {rules : RuleTable} {comm : Comm}
    (h : rules comm.asBpfKey = none) : ruleAfter rules comm .absent = rules := by
  rw [ruleAfter, RuleState.toClass, map_none, ← h, update_eq_self]

/-- The map calls of a publication when all of them succeed. -/
theorem mapCalls_run (l : Live T) (comm : Comm) (state : RuleState) (stable seq : UInt64)
    (rules : RuleTable) :
    ReflTransGen (Live.Next cfg) (l.write ⟨comm, state, stable, .announced⟩ seq rules)
      (l.write ⟨comm, state, stable, .applied⟩ seq (ruleAfter rules comm state)) := by
  have hcall (w : Publishing) (hpoint : w.point = .announced ∨ w.point = .found) :
      Live.Next cfg (l.write w seq rules)
        (l.write { w with point := (w.mapCall rules true).1 } seq (w.mapCall rules true).2) :=
    .mapCall true rfl hpoint
  have hfirst := hcall ⟨comm, state, stable, .announced⟩ (.inl rfl)
  cases state with
  | present k => exact .single hfirst
  | absent =>
    cases hrule : rules comm.asBpfKey with
    | none =>
      rw [Publishing.mapCall, hrule] at hfirst
      rw [ruleAfter_absent_of_none hrule]
      exact .single hfirst
    | some id =>
      rw [Publishing.mapCall, hrule] at hfirst
      exact .head hfirst (.single (hcall ⟨comm, .absent, stable, .found⟩ (.inr rfl)))

/-- A publication that nothing interrupts and whose map calls succeed. -/
theorem publish_alone (l : Live T) (comm : Comm) (state : RuleState) (hidle : l.writer = none) :
    ReflTransGen (Live.Next cfg) l { l with
      sched := l.sched.setRules ((l.sched.kernel.rulesSeq &&& ~~~1) + 2)
        (ruleAfter l.sched.kernel.rules comm state)
      writer := none
      log := .published ((l.sched.kernel.rulesSeq &&& ~~~1) + 2)
        (ruleAfter l.sched.kernel.rules comm state) :: l.log } := by
  set stable := l.sched.kernel.rulesSeq &&& ~~~1
  have hstart : Live.Next cfg l (l.write ⟨comm, state, stable, .opened⟩
      l.sched.kernel.rulesSeq l.sched.kernel.rules) := .start comm state hidle
  have hannounce : Live.Next cfg (l.write ⟨comm, state, stable, .opened⟩
      l.sched.kernel.rulesSeq l.sched.kernel.rules)
      (l.write ⟨comm, state, stable, .announced⟩ (stable + 1) l.sched.kernel.rules) :=
    .announce (w := ⟨comm, state, stable, .opened⟩) rfl rfl
  exact .head hstart (.head hannounce ((mapCalls_run cfg l comm state stable _ _).tail
    (.publish (w := ⟨comm, state, stable, .applied⟩) rfl rfl)))

end Alone

/-! ## The generation that a refresh records -/

/-- If fewer than `2 ^ 63` publications fall into a refresh, the generation it records is even, and
the class it records is the one that the table published under that generation, for the last time
before the record, assigns to the recorded name. -/
theorem refresh_records_published_class {l l' : Live T} (hstart : l.Started)
    (hrun : ReflTransGen (Live.Next cfg) l l') {later before : List (RuleEvent T)} {p : T}
    {seq : UInt64} {comm : RuleKey} {k : WorkloadClass}
    (hlog : l'.log = later ++ .recorded p seq comm k :: before)
    (hshort : (sinceSample p before).length < 2 ^ 63) :
    seq % 2 = 0 ∧ ∃ rules, (publications before).lookup seq = some rules ∧
      k = cfg.classify rules comm := by
  have hsound := (hstart.sound cfg).run cfg hrun
  obtain ⟨heven, rules, hlookup, hclass⟩ := hsound.records later p seq comm k before hlog hshort
  exact ⟨heven, rules, hlookup, hclass.symm⟩

section OneTask

def oneComm : Comm := ⟨"ffmpeg", Rules.ffmpeg_valid⟩

/-- The scheduler is attached with no rule and with task 7, whose class was not refreshed yet. -/
def oneTask : Live ℕ where
  sched := { quietHost.sched with
    kernel := { quietKernel with
      task := fun p => { quietKernel.task p with comm := oneComm.asBpfKey }
      rulesSeq := 2
      confirmedRulesSeq := 2 }
    tasks := fun p => if p = 7 then some (resetTaskState .initial) else none }
  writer := none
  refreshes _ := none
  log := [.published 2 fun _ => none]

theorem oneTask_started : oneTask.Started := ⟨rfl, rfl, fun _ => rfl, rfl⟩

theorem refresh_records_default_class :
    ∃ rules, (publications [.sampled 7, .published 2 fun _ => none]).lookup 2 = some rules ∧
      .batch = Config.initial.classify rules oneComm.asBpfKey := by
  have hrun := refresh_alone .initial oneTask (p := 7) true rfl rfl rfl
  have hlog : Live.log (Live.resume (oneTask.sample 7 true) 7
      (.inr (oneTask.sched.refreshTaskClass .initial 7 true).1)
        (oneTask.sched.refreshTaskClass .initial 7 true).2) =
      [] ++ .recorded 7 2 oneComm.asBpfKey .batch :: [.sampled 7, .published 2 fun _ => none] := by
    have hresult : (oneTask.sched.refreshTaskClass .initial 7 true).1 = .updated := by
      decide +kernel
    have hrecord : (oneTask.sched.refreshTaskClass .initial 7 true).2.ruleRecord 7 =
        some (.batch, oneComm.asBpfKey, 2) := by decide +kernel
    rw [Live.resume, hresult, Live.recordOf_updated hrecord]
    rfl
  exact (refresh_records_published_class .initial oneTask_started hrun hlog (by decide)).2

/-- The refresh of task 7 waits at `point` while others publish. -/
structure Waits (l : Live ℕ) (point : RefreshPoint) (n : ℕ) (rules : RuleTable)
    (published : List (UInt64 × RuleTable)) : Prop where
  sched : l.sched = oneTask.sched.setRules (number n) rules
  writer : l.writer = none
  point : l.refreshes 7 = some point
  published : publications l.log = published

variable {l : Live ℕ} {point : RefreshPoint} {n : ℕ} {rules : RuleTable}
  {published : List (UInt64 × RuleTable)}

theorem Waits.publish (h : Waits l point n rules published) (comm : Comm) (state : RuleState) :
    ∃ l', ReflTransGen (Live.Next .initial) l l' ∧
      Waits l' point (n + 1) (ruleAfter rules comm state)
        ((number (n + 1), ruleAfter rules comm state) :: published) := by
  have hseq : (l.sched.kernel.rulesSeq &&& ~~~1) + 2 = number (n + 1) := by
    rw [h.sched]
    change (number n &&& ~~~1) + 2 = _
    rw [SeqCount.number_and_not_one, SeqCount.number_succ]
  have hrules : l.sched.kernel.rules = rules := by
    rw [h.sched]
    rfl
  refine ⟨_, publish_alone .initial l comm state h.writer, ?_, rfl, h.point, ?_⟩
  · rw [hseq, hrules, h.sched]
    rfl
  · rw [hseq, hrules, publications_published, h.published]

/-- Publishing `m` times that there is no rule, where there is none. -/
theorem Waits.withdraw (h : Waits l point n rules published) (comm : Comm)
    (hrule : rules comm.asBpfKey = none) (m : ℕ) :
    ∃ l' later, ReflTransGen (Live.Next .initial) l l' ∧
      Waits l' point (n + m) rules (later ++ published) ∧ ∀ publication ∈ later,
        publication.2 = rules := by
  induction m with
  | zero => exact ⟨l, [], .refl, h, nofun⟩
  | succ m ih =>
    obtain ⟨l₁, later, hrun, hwaits, hlater⟩ := ih
    obtain ⟨l₂, hpublish, hwaits'⟩ := hwaits.publish comm .absent
    rw [ruleAfter_absent_of_none hrule] at hwaits'
    refine ⟨l₂, (number (n + m + 1), rules) :: later, hrun.trans hpublish, hwaits', ?_⟩
    rintro publication (_ | ⟨_, hmem⟩)
    · rfl
    · exact hlater publication hmem

theorem oneTask_task (seq : UInt64) (rules : RuleTable) :
    (oneTask.sched.setRules seq rules).tasks 7 = some (resetTaskState .initial) := rfl

/-- The refresh has read the generation and the name. -/
theorem oneTask_waits :
    ∃ l, ReflTransGen (Live.Next .initial) oneTask l ∧
      Waits l (.looking 2 oneComm.asBpfKey) 1 (fun _ => none) [(2, fun _ => none)] := by
  have halone : Alone .initial 7 (.sampled true 2) oneTask.sched
      (.inl (.looking 2 oneComm.asBpfKey)) oneTask.sched := by
    refine .step rfl rfl (alone_copy .initial rfl _ _ ?_)
    simp only [mem_finRange, if_true]
    have hstale : ¬ (true = true ∧ (2 : UInt64) = (resetTaskState .initial).seenRulesSeq ∧
        oneComm.asBpfKey = (resetTaskState .initial).classifiedComm) := by decide +kernel
    exact .step rfl (advanceRefresh_copied .initial hstale) (.step rfl rfl .refl)
  refine ⟨_, .head (.refresh 7 true rfl rfl)
    (halone.run .initial (oneTask.sample 7 true) rfl rfl), rfl, rfl, rfl, rfl⟩

theorem Waits.lookup (h : Waits l (.looking seq comm) n rules published) :
    ∃ l', ReflTransGen (Live.Next .initial) l l' ∧
      Waits l' (.classified seq comm (Config.initial.classify rules comm)) n rules published := by
  have halone : Alone .initial 7 (.looking seq comm) (oneTask.sched.setRules (number n) rules)
      (.inl (.classified seq comm (Config.initial.classify rules comm)))
      (oneTask.sched.setRules (number n) rules) := .step (oneTask_task _ _) rfl .refl
  refine ⟨_, halone.run .initial l h.sched h.point, rfl, h.writer, by simp [Live.resume], ?_⟩
  rw [(Live.resume_published l 7 7 _ _).1, h.published]

/-- The generation is read again, and the class is recorded. -/
theorem Waits.record (h : Waits l (.classified 2 oneComm.asBpfKey .latency) n (fun _ => none) published)
    (hnumber : number n = 2) :
    ∃ l', ReflTransGen (Live.Next .initial) l l' ∧
      l'.log = .recorded 7 2 oneComm.asBpfKey .latency :: l.log := by
  have hsched : l.sched = oneTask.sched := by
    rw [h.sched, hnumber]
    rfl
  have hfirm : ¬ ((2 : UInt64) ≠ oneTask.sched.kernel.rulesSeq ∨
      oneTask.sched.kernel.rulesSeq % 2 = 1) := by decide
  have halone : Alone .initial 7 (.classified 2 oneComm.asBpfKey .latency) oneTask.sched _ _ :=
    .step rfl (advanceRefresh_classified .initial hfirm)
      (alone_transition .initial rfl 2 oneComm.asBpfKey .latency)
  refine ⟨_, halone.run .initial l hsched h.point, ?_⟩
  have hresult : (oneTask.sched.transitionTaskClass .initial 7 .latency oneComm.asBpfKey 2).1 =
      .updated := by decide +kernel
  have hrecord : (oneTask.sched.transitionTaskClass .initial 7 .latency
      oneComm.asBpfKey 2).2.ruleRecord 7 = some (.latency, oneComm.asBpfKey, 2) := by decide +kernel
  rw [Live.resume, hresult, Live.recordOf_updated hrecord]
  rfl

/-- The lookup of a refresh falls between a rule and its withdrawal, and by the time the generation
is read again it has come round to the same number. -/
theorem refresh_records_withdrawn_class :
    oneTask.Started ∧ ∃ l before, ReflTransGen (Live.Next .initial) oneTask l ∧
      l.log = .recorded 7 2 oneComm.asBpfKey .latency :: before ∧
      ∀ rules, (2, rules) ∈ publications before →
        Config.initial.classify rules oneComm.asBpfKey = .batch := by
  obtain ⟨l₁, hrun₁, hwaits⟩ := oneTask_waits
  obtain ⟨l₂, hrun₂, hwaits⟩ := hwaits.publish oneComm (.present .latency)
  obtain ⟨l₃, hrun₃, hwaits⟩ := hwaits.lookup
  obtain ⟨l₄, hrun₄, hwaits⟩ := hwaits.publish oneComm .absent
  have hunset : ruleAfter (ruleAfter (fun _ => none) oneComm (.present .latency)) oneComm .absent =
      fun _ => none := by
    simp only [ruleAfter, update_idem]
    exact update_eq_self _ _
  rw [hunset] at hwaits
  obtain ⟨l₅, later, hrun₅, hwaits, hlater⟩ := hwaits.withdraw oneComm rfl (2 ^ 63 - 2)
  obtain ⟨l₆, hrun₆, hlog⟩ := hwaits.record (SeqCount.number_wraps 1)
  refine ⟨oneTask_started, l₆, l₅.log, ((((hrun₁.trans hrun₂).trans hrun₃).trans hrun₄).trans hrun₅).trans hrun₆,
    hlog, fun rules hmem => ?_⟩
  rw [hwaits.published, mem_append] at hmem
  rcases hmem with hmem | hmem
  · rw [show rules = fun _ => none from hlater _ hmem]
    rfl
  · simp only [mem_cons, Prod.mk.injEq, not_mem_nil, or_false] at hmem
    rcases hmem with ⟨hseq, -⟩ | ⟨hseq, -⟩ | ⟨-, rfl⟩
    · cases hseq
    · cases hseq
    · rfl

end OneTask

end ScxAgent.Scheduler
