import ScxAgent.Tally
import ScxAgent.Scheduler.Callbacks

/-!
# The books of the scheduler

What the accounting is for, apart from virtual times, slices and topology: every task has an entry
that says in which queue it is and on which CPU it runs, and counters per CPU and per class count
the entries. The functions of the scheduler either leave the books alone or act on them as one of
the operations below.
-/

set_option linter.unusedSectionVars false

namespace ScxAgent.Scheduler

open Option Function

/-- What the accounting knows of a task; `timed` says that a run of it is being clocked. -/
structure Entry where
  queuedCpu : Option Cpu
  runningCpu : Option Cpu
  classId : WorkloadClass
  state : TaskState
  timed : Bool

def TaskCtx.entry (tctx : TaskCtx) : Entry where
  queuedCpu := tctx.queuedCpu
  runningCpu := tctx.runningCpu
  classId := tctx.classId
  state := tctx.state
  timed := tctx.lastRunAt != 0

@[ext] structure Books (T : Type) where
  entry : T → Option Entry
  queued : Cpu × WorkloadClass → ℕ
  running : Cpu × WorkloadClass → ℕ
  classQueued : WorkloadClass → ℕ
  classRunning : WorkloadClass → ℕ
  nrCpuIds : ℕ
  underflows : ℕ
  /-- The time of the callback that keeps the books. -/
  clock : UInt64

variable {T : Type} [DecidableEq T]

def Sched.books (s : Sched T) : Books T where
  entry p := (s.tasks p).map TaskCtx.entry
  queued key := ((s.cpus key.1).entity key.2).nrQueued
  running key := ((s.cpus key.1).entity key.2).nrRunning
  classQueued k := (s.classes k).nrQueued
  classRunning k := (s.classes k).nrRunning
  nrCpuIds := s.nrCpuIds
  underflows := s.underflows
  clock := s.kernel.ktimeGetNs

namespace Books

def queuedAt (b : Books T) (p : T) : Option (Cpu × WorkloadClass) :=
  (b.entry p).bind fun e => e.queuedCpu.map fun cpu => (cpu, e.classId)

def runningAt (b : Books T) (p : T) : Option (Cpu × WorkloadClass) :=
  (b.entry p).bind fun e => e.runningCpu.map fun cpu => (cpu, e.classId)

/-- The counters of one class over all CPUs. -/
def keysOf (b : Books T) (k : WorkloadClass) : Finset (Cpu × WorkloadClass) :=
  Finset.range b.nrCpuIds ×ˢ {k}

/-- The counters count the entries, and no counter was ever decremented at zero. -/
structure Balanced (b : Books T) : Prop where
  queued : Tallies b.queuedAt b.queued
  running : Tallies b.runningAt b.running
  queuedTotal : ∀ k, b.classQueued k = ∑ key ∈ b.keysOf k, b.queued key
  runningTotal : ∀ k, b.classRunning k = ∑ key ∈ b.keysOf k, b.running key
  queuedOnline : ∀ p e cpu, b.entry p = some e → e.queuedCpu = some cpu → cpu < b.nrCpuIds
  runningOnline : ∀ p e cpu, b.entry p = some e → e.runningCpu = some cpu → cpu < b.nrCpuIds
  underflows : b.underflows = 0

def revise (b : Books T) (p : T) (f : Entry → Entry) : Books T :=
  { b with entry := Function.update b.entry p ((b.entry p).map f) }

/-- `old` was found by a decrement. -/
def noteUnderflow (b : Books T) (old : ℕ) : Books T :=
  { b with underflows := if old = 0 then b.underflows + 1 else b.underflows }

def leaveQueue (b : Books T) (p : T) : Books T :=
  match b.queuedAt p with
  | none => b
  | some key =>
    (({ b.revise p fun e => { e with queuedCpu := none } with
      classQueued := Function.update b.classQueued key.2 (b.classQueued key.2 - 1)
      queued := if key.1 < b.nrCpuIds then Function.update b.queued key (b.queued key - 1)
        else b.queued }).noteUnderflow (b.classQueued key.2)).noteUnderflow
      (if key.1 < b.nrCpuIds then b.queued key else 1)

def joinQueue (b : Books T) (p : T) (cpu : Cpu) (k : WorkloadClass) : Books T :=
  { b.revise p fun e => { e with state := .enqueued, queuedCpu := some cpu } with
    classQueued := Function.update b.classQueued k (b.classQueued k + 1)
    queued := Function.update b.queued (cpu, k) (b.queued (cpu, k) + 1) }

/-- A task takes another class, and leaves the queue of the old one. -/
def reclassify (b : Books T) (p : T) (k : WorkloadClass) : Books T :=
  (b.leaveQueue p).revise p fun e => { e with state := .none, queuedCpu := none, classId := k }

def startRun (b : Books T) (p : T) (cpu : Cpu) (k : WorkloadClass) : Books T :=
  { b.revise p fun e =>
      { e with runningCpu := some cpu, queuedCpu := none, state := .none, timed := b.clock != 0 } with
    classRunning := Function.update b.classRunning k (b.classRunning k + 1)
    running := Function.update b.running (cpu, k) (b.running (cpu, k) + 1) }

def stopRun (b : Books T) (p : T) (cpu : Cpu) (k : WorkloadClass) : Books T :=
  (({ b.revise p fun e => { e with runningCpu := none, timed := false } with
    classRunning := Function.update b.classRunning k (b.classRunning k - 1)
    running := Function.update b.running (cpu, k) (b.running (cpu, k) - 1) }).noteUnderflow
    (b.running (cpu, k))).noteUnderflow (b.classRunning k)

/-- The counter that a place of an entry is counted in. -/
def filed (place : Entry → Option Cpu) (e : Entry) : Option (Cpu × WorkloadClass) :=
  (place e).map fun cpu => (cpu, e.classId)

def filedAt (b : Books T) (place : Entry → Option Cpu) (p : T) : Option (Cpu × WorkloadClass) :=
  (b.entry p).bind (filed place)

/-- The counters of a place count the entries by it, and a class counter is their total. -/
structure Counted (b : Books T) (place : Entry → Option Cpu) (count : Cpu × WorkloadClass → ℕ)
    (total : WorkloadClass → ℕ) : Prop where
  tallies : Tallies (b.filedAt place) count
  totals : ∀ k, total k = ∑ key ∈ b.keysOf k, count key
  online : ∀ p key, b.filedAt place p = some key → key.1 < b.nrCpuIds

/-- The entry of one task is set anew. -/
structure Sets (b : Books T) (p : T) (o : Option Entry) (b' : Books T) : Prop where
  entry : b'.entry = Function.update b.entry p o
  nrCpuIds : b'.nrCpuIds = b.nrCpuIds

variable {b b' : Books T} {p : T} {cpu : Cpu} {k : WorkloadClass}

/-- Queues and CPUs are counted alike. -/
theorem balanced_iff : b.Balanced ↔ b.Counted Entry.queuedCpu b.queued b.classQueued ∧
    b.Counted Entry.runningCpu b.running b.classRunning ∧ b.underflows = 0 := by
  have honline (place : Entry → Option Cpu) :
      (∀ p key, b.filedAt place p = some key → key.1 < b.nrCpuIds) ↔
        ∀ p e cpu, b.entry p = some e → place e = some cpu → cpu < b.nrCpuIds := by
    simp only [filedAt, filed, bind_eq_some_iff, map_eq_some_iff]
    constructor
    · intro h p e cpu he hcpu
      exact h p (cpu, e.classId) ⟨e, he, cpu, hcpu, rfl⟩
    · rintro h p _ ⟨e, he, cpu, hcpu, rfl⟩
      exact h p e cpu he hcpu
  constructor
  · intro h
    exact ⟨⟨h.queued, h.queuedTotal, (honline _).mpr h.queuedOnline⟩,
      ⟨h.running, h.runningTotal, (honline _).mpr h.runningOnline⟩, h.underflows⟩
  · rintro ⟨hqueued, hrunning, hunderflows⟩
    exact ⟨hqueued.tallies, hrunning.tallies, hqueued.totals, hrunning.totals,
      (honline _).mp hqueued.online, (honline _).mp hrunning.online, hunderflows⟩

theorem mem_keysOf : (cpu, k) ∈ b.keysOf k ↔ cpu < b.nrCpuIds := by simp [keysOf]

theorem not_mem_keysOf {k' : WorkloadClass} (hne : k' ≠ k) : (cpu, k) ∉ b.keysOf k' := by
  simp [keysOf, hne]

namespace Counted

variable {place : Entry → Option Cpu} {count count' : Cpu × WorkloadClass → ℕ}
  {total total' : WorkloadClass → ℕ} {o : Option Entry}

section Set

variable (h : b.Counted place count total) (hset : Sets b p o b')
include h hset

theorem set (htallies : Tallies (update (b.filedAt place) p (o.bind (filed place))) count')
    (htotals : ∀ k, total' k = ∑ key ∈ b.keysOf k, count' key)
    (honline : ∀ key, o.bind (filed place) = some key → key.1 < b.nrCpuIds) :
    b'.Counted place count' total' := by
  have hfiled : b'.filedAt place =
      update (b.filedAt place) p (o.bind (filed place)) := by
    funext t
    by_cases ht : t = p
    · subst ht
      simp [filedAt, hset.entry]
    · simp [filedAt, hset.entry, ht]
  refine ⟨hfiled ▸ htallies, ?_, ?_⟩
  · simp only [keysOf, hset.nrCpuIds]
    exact htotals
  · intro t key hkey
    rw [hfiled, update_apply] at hkey
    rw [hset.nrCpuIds]
    split_ifs at hkey
    · exact honline key hkey
    · exact h.online t key hkey

/-- The new entry is counted where the old one was. -/
theorem same (hsame : o.bind (filed place) = b.filedAt place p) : b'.Counted place count total := by
  refine h.set hset ?_ h.totals ?_
  · rw [hsame, update_eq_self]
    exact h.tallies
  · rw [hsame]
    exact h.online p

/-- A class counter that is the total of its CPU counters goes up with one of them. -/
theorem insert (hfree : b.filedAt place p = none) (hnew : o.bind (filed place) = some (cpu, k))
    (hcpu : cpu < b.nrCpuIds) :
    b'.Counted place (update count (cpu, k) (count (cpu, k) + 1))
      (update total k (total k + 1)) := by
  refine h.set hset (hnew ▸ h.tallies.insert hfree) ?_ ?_
  · intro k'
    by_cases hk : k' = k
    · subst hk
      rw [update_self, Tallies.sum_update_succ (mem_keysOf.mpr hcpu), h.totals]
    · rw [update_of_ne hk, Finset.sum_update_of_notMem (not_mem_keysOf hk), h.totals]
  · intro key hkey
    cases hnew.symm.trans hkey
    exact hcpu

theorem remove (hfiled : b.filedAt place p = some (cpu, k)) (hnew : o.bind (filed place) = none) :
    b'.Counted place (update count (cpu, k) (count (cpu, k) - 1))
      (update total k (total k - 1)) := by
  refine h.set hset (hnew ▸ h.tallies.remove hfiled) ?_ ?_
  · intro k'
    by_cases hk : k' = k
    · subst hk
      rw [update_self, Tallies.sum_update_pred (mem_keysOf.mpr (h.online p _ hfiled))
        (h.tallies.pos hfiled), h.totals]
    · rw [update_of_ne hk, Finset.sum_update_of_notMem (not_mem_keysOf hk), h.totals]
  · rw [hnew]
    exact nofun

end Set

theorem pos (h : b.Counted place count total) (hfiled : b.filedAt place p = some (cpu, k)) :
    0 < count (cpu, k) ∧ 0 < total k := by
  have hpos := h.tallies.pos hfiled
  refine ⟨hpos, ?_⟩
  rw [h.totals]
  exact lt_of_lt_of_le hpos
    (Finset.single_le_sum (fun _ _ => Nat.zero_le _) (mem_keysOf.mpr (h.online p _ hfiled)))

end Counted

section Revise

variable (f : Entry → Entry)

theorem revise_entry_self : (b.revise p f).entry p = (b.entry p).map f := by simp [revise]

theorem revise_entry_of_ne {t : T} (hne : t ≠ p) : (b.revise p f).entry t = b.entry t := by
  simp [revise, hne]

theorem revise_eq_self (hf : ∀ e, b.entry p = some e → f e = e) : b.revise p f = b := by
  have hentry : (b.entry p).map f = b.entry p := by
    cases he : b.entry p with
    | none => rfl
    | some e => rw [map_some, hf e he]
  rw [revise, hentry, update_eq_self]

/-- An entry may be revised as long as its place in the queues and on the CPUs stays. -/
theorem Balanced.revise (h : b.Balanced)
    (hqueued : ∀ e, b.entry p = some e → filed Entry.queuedCpu (f e) = filed Entry.queuedCpu e)
    (hrunning : ∀ e, b.entry p = some e →
      filed Entry.runningCpu (f e) = filed Entry.runningCpu e) : (b.revise p f).Balanced := by
  have hsame {place : Entry → Option Cpu}
      (hplace : ∀ e, b.entry p = some e → filed place (f e) = filed place e) :
      ((b.entry p).map f).bind (filed place) = b.filedAt place p := by
    cases he : b.entry p with
    | none => simp [filedAt, he]
    | some e => simp [filedAt, he, hplace e he]
  obtain ⟨hq, hr, hunderflows⟩ := balanced_iff.mp h
  exact balanced_iff.mpr ⟨hq.same ⟨rfl, rfl⟩ (hsame hqueued), hr.same ⟨rfl, rfl⟩ (hsame hrunning),
    hunderflows⟩

end Revise

theorem leaveQueue_entry (b : Books T) (p : T) :
    (b.leaveQueue p).entry = (b.revise p fun e => { e with queuedCpu := none }).entry := by
  unfold leaveQueue
  cases hkey : b.queuedAt p with
  | some key => rfl
  | none =>
    refine congrArg entry (revise_eq_self _ ?_).symm
    intro e he
    have hfree : e.queuedCpu = none := by simpa [queuedAt, he] using hkey
    cases e
    simp_all

theorem Balanced.leaveQueue (h : b.Balanced) : (b.leaveQueue p).Balanced := by
  obtain ⟨hqueued, hrunning, hunderflows⟩ := balanced_iff.mp h
  unfold Books.leaveQueue
  cases hkey : b.queuedAt p with
  | none => exact h
  | some key =>
    obtain ⟨hpos, htotal⟩ := hqueued.pos hkey
    have honline := hqueued.online p key hkey
    dsimp only
    rw [if_pos honline, if_pos honline]
    refine balanced_iff.mpr ⟨hqueued.remove ⟨rfl, rfl⟩ hkey ?_, hrunning.same ⟨rfl, rfl⟩ ?_, ?_⟩
    · cases b.entry p <;> rfl
    · unfold filedAt
      cases b.entry p <;> rfl
    · simp [noteUnderflow, hunderflows, hpos.ne', htotal.ne', Books.revise]

section Known

variable {e : Entry} (h : b.Balanced) (he : b.entry p = some e) (hclass : e.classId = k)
include h he hclass

theorem Balanced.joinQueue (hfree : e.queuedCpu = none) (hcpu : cpu < b.nrCpuIds) :
    (b.joinQueue p cpu k).Balanced := by
  obtain ⟨hqueued, hrunning, hunderflows⟩ := balanced_iff.mp h
  refine balanced_iff.mpr ⟨hqueued.insert ⟨rfl, rfl⟩ ?_ ?_ hcpu, hrunning.same ⟨rfl, rfl⟩ ?_,
    hunderflows⟩
  · simp [filedAt, filed, he, hfree]
  · simp [filed, he, hclass]
  · simp [filedAt, filed, he]

theorem Balanced.startRun (hqueue : e.queuedCpu = none) (hfree : e.runningCpu = none)
    (hcpu : cpu < b.nrCpuIds) : (b.startRun p cpu k).Balanced := by
  obtain ⟨hqueued, hrunning, hunderflows⟩ := balanced_iff.mp h
  refine balanced_iff.mpr ⟨hqueued.same ⟨rfl, rfl⟩ ?_, hrunning.insert ⟨rfl, rfl⟩ ?_ ?_ hcpu,
    hunderflows⟩
  · simp [filedAt, filed, he, hqueue]
  · simp [filedAt, filed, he, hfree]
  · simp [filed, he, hclass]

theorem Balanced.stopRun (hruns : e.runningCpu = some cpu) : (b.stopRun p cpu k).Balanced := by
  obtain ⟨hqueued, hrunning, hunderflows⟩ := balanced_iff.mp h
  have hkey : b.filedAt Entry.runningCpu p = some (cpu, k) := by
    simp [filedAt, filed, he, hruns, hclass]
  obtain ⟨hpos, htotal⟩ := hrunning.pos hkey
  refine balanced_iff.mpr ⟨hqueued.same ⟨rfl, rfl⟩ ?_, hrunning.remove ⟨rfl, rfl⟩ hkey ?_, ?_⟩
  · simp [filedAt, filed, he]
  · simp [filed, he]
  · simp [Books.stopRun, noteUnderflow, hunderflows, hpos.ne', htotal.ne', Books.revise]

end Known

end Books

/-- A task is enqueued exactly when a queue CPU is recorded, and clocked exactly when it runs. -/
structure Entry.Settled (e : Entry) : Prop where
  enqueued : e.state = .enqueued ↔ e.queuedCpu ≠ none
  timed : e.timed = true ↔ e.runningCpu ≠ none

namespace Books

variable {b b' : Books T} {p : T} {cpu : Cpu} {k : WorkloadClass}

structure Sound (b : Books T) : Prop where
  balanced : b.Balanced
  settled : ∀ p e, b.entry p = some e → e.Settled

/-- Books that stay sound while nobody starts or stops: a task that runs keeps its class. -/
structure Keeps (b b' : Books T) : Prop where
  sound : b'.Sound
  nrCpuIds : b'.nrCpuIds = b.nrCpuIds
  clock : b'.clock = b.clock
  unknown : ∀ p, b.entry p = none → b'.entry p = none
  known : ∀ p e, b.entry p = some e → ∃ e', b'.entry p = some e' ∧
    e'.runningCpu = e.runningCpu ∧ (e.runningCpu ≠ none → e'.classId = e.classId)

theorem Sound.keeps_self (h : b.Sound) : Keeps b b :=
  ⟨h, rfl, rfl, fun _ hp => hp, fun _ e he => ⟨e, he, rfl, fun _ => rfl⟩⟩

theorem Keeps.trans {b'' : Books T} (h : Keeps b b') (h' : Keeps b' b'') : Keeps b b'' where
  sound := h'.sound
  nrCpuIds := h'.nrCpuIds.trans h.nrCpuIds
  clock := h'.clock.trans h.clock
  unknown p hp := h'.unknown p (h.unknown p hp)
  known p e he := by
    obtain ⟨e', he', hrun, hclass⟩ := h.known p e he
    obtain ⟨e'', he'', hrun', hclass'⟩ := h'.known p e' he'
    refine ⟨e'', he'', hrun'.trans hrun, fun hne => ?_⟩
    exact (hclass' (hrun ▸ hne)).trans (hclass hne)

/-- Sound books with one entry revised. -/
theorem Sound.revised (h : b.Sound) (hbalanced : b'.Balanced) (f : Entry → Entry)
    (hentry : b'.entry = (b.revise p f).entry)
    (hsettled : ∀ e, b.entry p = some e → (f e).Settled) : b'.Sound where
  balanced := hbalanced
  settled t e he := by
    rw [hentry] at he
    by_cases ht : t = p
    · subst ht
      rw [revise_entry_self, map_eq_some_iff] at he
      obtain ⟨e', he', rfl⟩ := he
      exact hsettled e' he'
    · exact h.settled t e (revise_entry_of_ne f ht ▸ he)

theorem Sound.keeps_revised (h : b.Sound) (hbalanced : b'.Balanced) (f : Entry → Entry)
    (hentry : b'.entry = (b.revise p f).entry) (hnr : b'.nrCpuIds = b.nrCpuIds)
    (hclock : b'.clock = b.clock) (hsettled : ∀ e, b.entry p = some e → (f e).Settled)
    (hrun : ∀ e, b.entry p = some e → (f e).runningCpu = e.runningCpu ∧
      (e.runningCpu ≠ none → (f e).classId = e.classId)) : Keeps b b' where
  sound := h.revised hbalanced f hentry hsettled
  nrCpuIds := hnr
  clock := hclock
  unknown t ht := by
    rw [hentry]
    by_cases heq : t = p
    · subst heq
      rw [revise_entry_self, ht]
      rfl
    · rw [revise_entry_of_ne f heq, ht]
  known t e he := by
    rw [hentry]
    by_cases heq : t = p
    · subst heq
      exact ⟨f e, by rw [revise_entry_self, he]; rfl, hrun e he⟩
    · exact ⟨e, by rw [revise_entry_of_ne f heq, he], rfl, fun _ => rfl⟩

theorem leaveQueue_clock : (b.leaveQueue p).clock = b.clock := by
  unfold leaveQueue
  split <;> rfl

theorem leaveQueue_nrCpuIds : (b.leaveQueue p).nrCpuIds = b.nrCpuIds := by
  unfold leaveQueue
  split <;> rfl

/-- The entry of a task after it has left its queue and been revised. -/
theorem leaveQueue_revise_entry (f : Entry → Entry) :
    ((b.leaveQueue p).revise p f).entry =
      (b.revise p fun e => f { e with queuedCpu := none }).entry := by
  funext t
  by_cases ht : t = p
  · subst ht
    rw [revise_entry_self, revise_entry_self, leaveQueue_entry, revise_entry_self, map_map]
    rfl
  · rw [revise_entry_of_ne f ht, revise_entry_of_ne _ ht, leaveQueue_entry,
      revise_entry_of_ne _ ht]

/-- A task leaves its queue and is given a state other than enqueued; it may change class unless it
runs. -/
theorem Sound.keeps_leave (h : b.Sound) (f : Entry → Entry)
    (hqueued : ∀ e : Entry, (f { e with queuedCpu := none }).queuedCpu = none)
    (hstate : ∀ e, b.entry p = some e → (f { e with queuedCpu := none }).state ≠ .enqueued)
    (htimed : ∀ e, b.entry p = some e → (f { e with queuedCpu := none }).timed = e.timed)
    (hrunning : ∀ e, b.entry p = some e →
      (f { e with queuedCpu := none }).runningCpu = e.runningCpu)
    (hclass : ∀ e, b.entry p = some e → e.runningCpu ≠ none →
      (f { e with queuedCpu := none }).classId = e.classId) :
    Keeps b ((b.leaveQueue p).revise p f) := by
  have hfree (e' : Entry) (he' : (b.leaveQueue p).entry p = some e') :
      ∃ e, b.entry p = some e ∧ e' = { e with queuedCpu := none } := by
    rw [leaveQueue_entry, revise_entry_self, map_eq_some_iff] at he'
    obtain ⟨e, he, rfl⟩ := he'
    exact ⟨e, he, rfl⟩
  have hbalanced : ((b.leaveQueue p).revise p f).Balanced := by
    refine h.balanced.leaveQueue.revise f ?_ ?_
    · intro e' he'
      obtain ⟨e, -, rfl⟩ := hfree e' he'
      simp [filed, hqueued e]
    · intro e' he'
      obtain ⟨e, he, rfl⟩ := hfree e' he'
      by_cases hrun : e.runningCpu = none
      · rw [filed, filed, hrunning e he, hrun]
        rfl
      · simp [filed, hrunning e he, hclass e he hrun]
  refine h.keeps_revised hbalanced _ (leaveQueue_revise_entry f) leaveQueue_nrCpuIds
    leaveQueue_clock ?_ ?_
  · intro e he
    refine ⟨⟨fun hs => absurd hs (hstate e he), fun hq => absurd (hqueued e) hq⟩, ?_⟩
    rw [htimed e he, hrunning e he]
    exact (h.settled p e he).timed
  · intro e he
    exact ⟨hrunning e he, hclass e he⟩

/-- An entry is given another state while it is in no queue. -/
theorem Sound.keeps_state (h : b.Sound) {state : TaskState} (hstate : state ≠ .enqueued)
    (hfree : ∀ e, b.entry p = some e → e.queuedCpu = none) :
    Keeps b (b.revise p fun e => { e with state := state }) := by
  have hbalanced : (b.revise p fun e => { e with state := state }).Balanced :=
    h.balanced.revise _ (fun e he => by simp [filed, hfree e he]) fun e _ => rfl
  refine h.keeps_revised hbalanced _ rfl rfl rfl ?_ fun e _ => ⟨rfl, fun _ => rfl⟩
  intro e he
  exact ⟨⟨fun hs => absurd hs hstate, fun hq => absurd (hfree e he) hq⟩, (h.settled p e he).timed⟩

variable {e : Entry}

theorem Sound.keeps_join (h : b.Sound) (he : b.entry p = some e) (hfree : e.queuedCpu = none)
    (hclass : e.classId = k) (hcpu : cpu < b.nrCpuIds) : Keeps b (b.joinQueue p cpu k) := by
  refine h.keeps_revised (h.balanced.joinQueue he hclass hfree hcpu) _ rfl rfl rfl ?_
    fun e _ => ⟨rfl, fun _ => rfl⟩
  intro e he
  exact ⟨⟨fun _ => some_ne_none _, fun _ => rfl⟩, (h.settled p e he).timed⟩

/-- A task gets an entry, or a new one in place of one that is neither queued nor running. -/
theorem Sound.admit (h : b.Sound)
    (hold : ∀ e, b.entry p = some e → e.queuedCpu = none ∧ e.runningCpu = none)
    (hqueued : e.queuedCpu = none) (hrunning : e.runningCpu = none) (hsettled : e.Settled) :
    ({ b with entry := update b.entry p (some e) } : Books T).Sound := by
  obtain ⟨hq, hr, hunderflows⟩ := balanced_iff.mp h.balanced
  have hsame {place : Entry → Option Cpu} (hplace : place e = none)
      (hnone : ∀ e', b.entry p = some e' → place e' = none) :
      (some e).bind (filed place) = b.filedAt place p := by
    cases he : b.entry p with
    | none => simp [filedAt, filed, he, hplace]
    | some e' => simp [filedAt, filed, he, hplace, hnone e' he]
  refine ⟨balanced_iff.mpr ⟨hq.same ⟨rfl, rfl⟩ (hsame hqueued fun e' he' => (hold e' he').1),
    hr.same ⟨rfl, rfl⟩ (hsame hrunning fun e' he' => (hold e' he').2), hunderflows⟩, ?_⟩
  intro t e' he'
  change update b.entry p (some e) t = some e' at he'
  by_cases ht : t = p
  · subst ht
    rw [update_self, some.injEq] at he'
    exact he' ▸ hsettled
  · rw [update_of_ne ht] at he'
    exact h.settled t e' he'

theorem Sound.start (h : b.Sound) (hclock : b.clock ≠ 0) (he : b.entry p = some e)
    (hfree : e.runningCpu = none) (hclass : e.classId = k) (hcpu : cpu < b.nrCpuIds) :
    ((b.leaveQueue p).startRun p cpu k).Sound := by
  have hleft : (b.leaveQueue p).entry p = some { e with queuedCpu := none } := by
    rw [leaveQueue_entry, revise_entry_self, he]
    rfl
  have hcpu' : cpu < (b.leaveQueue p).nrCpuIds := by rwa [leaveQueue_nrCpuIds]
  refine h.revised (h.balanced.leaveQueue.startRun hleft hclass rfl hfree hcpu') _
    (leaveQueue_revise_entry _) ?_
  intro e _
  refine ⟨⟨nofun, fun hq => absurd rfl hq⟩, ⟨fun _ => some_ne_none _, fun _ => ?_⟩⟩
  simpa [leaveQueue_clock] using hclock

theorem Sound.stop (h : b.Sound) (he : b.entry p = some e) (hrunning : e.runningCpu = some cpu)
    (hclass : e.classId = k) : (b.stopRun p cpu k).Sound := by
  refine h.revised (h.balanced.stopRun he hclass hrunning) _ rfl ?_
  intro e he
  exact ⟨(h.settled p e he).enqueued, ⟨nofun, fun hr => absurd rfl hr⟩⟩

end Books

end ScxAgent.Scheduler
