import ScxAgent.Rules.Comm

/-!
# Activation of the tuning agent for rule misses

The scheduler loop collects the names of tasks that matched no rule, batches them, and hands one
batch at a time to a worker thread that talks to the tuning agent. The two threads share a channel
for commands and one for completions, each with room for one message. The log of a run is kept to
say what became of an observed name.
-/

namespace ScxAgent.Activation

open Std Rules List Option

/-- A reading of the monotonic clock. -/
abbrev Instant := ℕ

structure ActivationBatcher where
  pending : ExtTreeSet Comm
  pendingSince : Option Instant
  inFlight : Option (List Comm)
  coalesce : ℕ
  maxBatch : ℕ
  maxBatch_pos : 0 < maxBatch

namespace ActivationBatcher

def new (coalesce maxBatch : ℕ) (h : 0 < maxBatch) : ActivationBatcher where
  pending := ∅
  pendingSince := none
  inFlight := none
  coalesce := coalesce
  maxBatch := maxBatch
  maxBatch_pos := h

def flying (b : ActivationBatcher) (comm : Comm) : Bool := b.inFlight.any (·.contains comm)

def observe (b : ActivationBatcher) (comm : Comm) (now : Instant) : ActivationBatcher :=
  if b.flying comm then b
  else
    { b with
      pending := b.pending.insert comm
      pendingSince := if !b.pending.contains comm && b.pendingSince.isNone then some now
        else b.pendingSince }

/-- The timer is dropped with the last pending name. -/
def settle (b : ActivationBatcher) : ActivationBatcher :=
  if b.pending.isEmpty then { b with pendingSince := none } else b

def removePending (b : ActivationBatcher) (comm : Comm) : ActivationBatcher :=
  settle { b with pending := b.pending.erase comm }

def isReady (b : ActivationBatcher) (now : Instant) : Bool :=
  b.pending.size ≥ b.maxBatch || b.pendingSince.any fun started => now - started ≥ b.coalesce

def takeReady (b : ActivationBatcher) (now : Instant) : Option (List Comm) × ActivationBatcher :=
  if b.inFlight.isSome || b.pending.isEmpty then (none, b)
  else if !b.isReady now then (none, b)
  else
    let batch := b.pending.toList.take b.maxBatch
    let b := settle { b with pending := batch.foldl (·.erase ·) b.pending }
    (some batch, { b with inFlight := some batch })

def finish (b : ActivationBatcher) : Option (List Comm) × ActivationBatcher :=
  (b.inFlight, { b with inFlight := none })

/-- Names wait at most in one place, and the timer runs exactly while some are pending. -/
structure WellFormed (b : ActivationBatcher) : Prop where
  disjoint : ∀ batch, b.inFlight = some batch → ∀ comm ∈ batch, comm ∉ b.pending
  timer : b.pendingSince.isSome = true ↔ b.pending ≠ ∅

variable {comm : Comm} {b : ActivationBatcher}

theorem flying_iff : b.flying comm = true ↔ ∃ batch, b.inFlight = some batch ∧ comm ∈ batch := by
  simp [flying, Option.any_eq_true]

theorem WellFormed.new (coalesce maxBatch : ℕ) (h : 0 < maxBatch) :
    (ActivationBatcher.new coalesce maxBatch h).WellFormed :=
  ⟨by simp [ActivationBatcher.new], by simp [ActivationBatcher.new]⟩

theorem WellFormed.observe (h : b.WellFormed) (comm : Comm) (now : Instant) :
    (b.observe comm now).WellFormed := by
  unfold ActivationBatcher.observe
  by_cases hflying : b.flying comm = true
  · rw [if_pos hflying]
    exact h
  · rw [if_neg hflying]
    constructor
    · intro batch hbatch c hc hpending
      rcases ExtTreeSet.mem_insert.mp hpending with heq | hold
      · exact hflying (flying_iff.mpr ⟨batch, hbatch, LawfulEqCmp.compare_eq_iff_eq.mp heq ▸ hc⟩)
      · exact h.disjoint batch hbatch c hc hold
    · have hne : b.pending.insert comm ≠ ∅ := ExtTreeSet.insert_ne_empty
      simp only [hne, ne_eq, not_false_eq_true, iff_true]
      cases hsince : b.pendingSince with
      | some since => simp
      | none =>
        -- without a timer nothing was pending, so the name is new
        have hempty : b.pending = ∅ := by
          by_contra hpending
          have htimer := h.timer.mpr hpending
          rw [hsince] at htimer
          cases htimer
        simp [hempty]

theorem settle_pending (b : ActivationBatcher) : b.settle.pending = b.pending := by
  unfold settle
  split <;> rfl

theorem settle_inFlight (b : ActivationBatcher) : b.settle.inFlight = b.inFlight := by
  unfold settle
  split <;> rfl

theorem settle_maxBatch (b : ActivationBatcher) : b.settle.maxBatch = b.maxBatch := by
  unfold settle
  split <;> rfl

/-- Taking names away keeps the timer right if it was running while some were there. -/
theorem settle_timer (h : b.pending ≠ ∅ → b.pendingSince.isSome = true) :
    b.settle.pendingSince.isSome = true ↔ b.settle.pending ≠ ∅ := by
  rw [settle_pending]
  unfold settle
  by_cases hempty : b.pending.isEmpty = true
  · rw [if_pos hempty]
    simp [ExtTreeSet.isEmpty_iff.mp hempty]
  · rw [if_neg hempty]
    have hne : b.pending ≠ ∅ := fun hnil => hempty (ExtTreeSet.isEmpty_iff.mpr hnil)
    simp [hne, h hne]

variable {pending : ExtTreeSet Comm} {batch : List Comm}

theorem ne_empty_of_mem (h : comm ∈ pending) : pending ≠ ∅ := by
  rintro rfl
  exact ExtTreeSet.not_mem_empty h

theorem exists_mem_of_ne_empty (h : pending ≠ ∅) : ∃ comm, comm ∈ pending := by
  by_contra hnone
  exact h (ExtTreeSet.ext_mem fun c => by simpa using fun hc => hnone ⟨c, hc⟩)

theorem WellFormed.removePending (h : b.WellFormed) (comm : Comm) :
    (b.removePending comm).WellFormed := by
  constructor
  · intro batch hbatch c hc hpending
    unfold ActivationBatcher.removePending at hbatch hpending
    rw [settle_inFlight] at hbatch
    rw [settle_pending] at hpending
    exact h.disjoint batch hbatch c hc (ExtTreeSet.mem_of_mem_erase hpending)
  · refine settle_timer fun hne => ?_
    obtain ⟨c, hc⟩ := exists_mem_of_ne_empty hne
    exact h.timer.mpr (ne_empty_of_mem (ExtTreeSet.mem_of_mem_erase hc))

theorem mem_foldl_erase :
    comm ∈ batch.foldl (·.erase ·) pending ↔ comm ∈ pending ∧ comm ∉ batch := by
  induction batch generalizing pending with
  | nil => simp
  | cons c batch ih =>
    rw [foldl_cons, ih, ExtTreeSet.mem_erase, mem_cons]
    have hcompare : compare c comm ≠ .eq ↔ comm ≠ c := by
      rw [Ne, LawfulEqCmp.compare_eq_iff_eq, ne_comm]
    tauto

/-- What `take_ready` has done when it returns a batch. -/
structure Taken (b b' : ActivationBatcher) (batch : List Comm) : Prop where
  idle : b.inFlight = none
  inFlight : b'.inFlight = some batch
  leading : batch = b.pending.toList.take b.maxBatch
  pending : ∀ comm, comm ∈ b'.pending ↔ comm ∈ b.pending ∧ comm ∉ batch
  limit : b'.maxBatch = b.maxBatch
  timer : b'.pendingSince.isSome = true ↔ b'.pending ≠ ∅

theorem takeReady_cases (h : b.WellFormed) (now : Instant) :
    b.takeReady now = (none, b) ∨
      ∃ batch b', b.takeReady now = (some batch, b') ∧ Taken b b' batch := by
  unfold takeReady
  by_cases hidle : (b.inFlight.isSome || b.pending.isEmpty) = true
  · rw [if_pos hidle]
    exact .inl rfl
  · rw [if_neg hidle]
    by_cases hready : (!b.isReady now) = true
    · rw [if_pos hready]
      exact .inl rfl
    · rw [if_neg hready]
      rw [Bool.or_eq_true, not_or, Bool.not_eq_true, isSome_eq_false_iff,
        isNone_iff_eq_none] at hidle
      refine .inr ⟨_, _, rfl, hidle.1, rfl, rfl, ?_, ?_, ?_⟩
      · intro comm
        simp only [settle_pending]
        exact mem_foldl_erase
      · simp only [settle_maxBatch]
      · refine settle_timer fun hne => ?_
        obtain ⟨c, hc⟩ := exists_mem_of_ne_empty hne
        exact h.timer.mpr (ne_empty_of_mem (mem_foldl_erase.mp hc).1)

theorem Taken.wellFormed {b' : ActivationBatcher} (h : Taken b b' batch) :
    b'.WellFormed where
  disjoint := by
    intro batch' hbatch comm hc hpending
    rw [h.inFlight, some.injEq] at hbatch
    exact ((h.pending comm).mp hpending).2 (hbatch ▸ hc)
  timer := h.timer

theorem WellFormed.finish (h : b.WellFormed) : b.finish.2.WellFormed :=
  ⟨by simp [ActivationBatcher.finish], h.timer⟩

end ActivationBatcher

structure RuleMissActivation where
  comms : List String
  revision : UInt64
  deriving DecidableEq

structure ActivationResponse where
  accepted : Bool
  status : String
  error : Option String
  deriving DecidableEq

inductive ActivationCompletion where
  | response (response : ActivationResponse)
  | failed (error : String)
  deriving DecidableEq

inductive NotifierError where
  | busy
  deriving DecidableEq

/-- The two channels and the command the worker is busy with. The stop channel is written only when
the notifier is dropped, which ends the loop. -/
structure ActivationNotifier where
  commands : Option RuleMissActivation
  serving : Option RuleMissActivation
  completions : Option ActivationCompletion

namespace ActivationNotifier

def start : ActivationNotifier := ⟨none, none, none⟩

def startActivation (n : ActivationNotifier) (activation : RuleMissActivation) :
    Except NotifierError ActivationNotifier :=
  match n.commands with
  | some _ => .error .busy
  | none => .ok { n with commands := some activation }

/-- The worker takes a command when it is not serving one. -/
def receive (n : ActivationNotifier) : Option ActivationNotifier :=
  match n.serving, n.commands with
  | none, some activation => some { n with commands := none, serving := some activation }
  | _, _ => none

/-- The worker posts what its exchange with the agent ended in, once the channel has room. -/
def post (n : ActivationNotifier) (completion : ActivationCompletion) : Option ActivationNotifier :=
  match n.serving, n.completions with
  | some _, none => some { n with serving := none, completions := some completion }
  | _, _ => none

/-- The messages on their way between the two threads. -/
def outstanding (n : ActivationNotifier) : ℕ :=
  n.commands.toList.length + n.serving.toList.length + n.completions.toList.length

end ActivationNotifier

inductive Event where
  /-- `flying` says that the name was part of the outstanding batch. -/
  | observed (comm : Comm) (flying : Bool)
  | removed (comm : Comm)
  | taken (batch : List Comm)
  | finished (batch : List Comm)
  deriving DecidableEq

/-- What the two threads do next. -/
inductive Action where
  | observe (comm : Comm) (now : Instant)
  | removePending (comm : Comm)
  | takeReady (now : Instant)
  | startActivation (revision : UInt64)
  | receive
  | post (completion : ActivationCompletion)
  | pollCompletion

/-- The scheduler loop and the worker. A batch is `ready` between `take_ready` and the attempt to
start it; `refused` is the error with which the loop then stops. -/
structure Loop where
  batcher : ActivationBatcher
  notifier : ActivationNotifier
  ready : Option (List Comm)
  refused : Option NotifierError
  log : List Event

namespace Loop

def init (coalesce maxBatch : ℕ) (h : 0 < maxBatch) : Loop where
  batcher := .new coalesce maxBatch h
  notifier := .start
  ready := none
  refused := none
  log := []

/-- `none` if the action is not possible: the loop does not take a second batch before it has tried
to start the first one. -/
def act (s : Loop) : Action → Option Loop
  | .observe comm now =>
    some { s with
      batcher := s.batcher.observe comm now
      log := s.log ++ [.observed comm (s.batcher.flying comm)] }
  | .removePending comm =>
    some { s with batcher := s.batcher.removePending comm, log := s.log ++ [.removed comm] }
  | .takeReady now =>
    if s.ready.isSome then none
    else
      match s.batcher.takeReady now with
      | (none, b) => some { s with batcher := b }
      | (some batch, b) =>
        some { s with batcher := b, ready := some batch, log := s.log ++ [.taken batch] }
  | .startActivation revision =>
    s.ready.map fun batch =>
      match s.notifier.startActivation ⟨batch.map Comm.value, revision⟩ with
      | .ok n => { s with notifier := n, ready := none }
      | .error e => { s with refused := some e, ready := none }
  | .receive => s.notifier.receive.map fun n => { s with notifier := n }
  | .post completion => (s.notifier.post completion).map fun n => { s with notifier := n }
  | .pollCompletion =>
    s.notifier.completions.map fun _ =>
      { s with
        notifier := { s.notifier with completions := none }
        batcher := s.batcher.finish.2
        log := s.log ++ s.batcher.finish.1.toList.map .finished }

def run (s : Loop) (actions : List Action) : Option Loop := actions.foldlM act s

/-- The batches that were taken, and those whose completion was polled, in order. -/
def takenBatches (s : Loop) : List (List Comm) :=
  s.log.filterMap fun
    | .taken batch => some batch
    | _ => none

def finishedBatches (s : Loop) : List (List Comm) :=
  s.log.filterMap fun
    | .finished batch => some batch
    | _ => none

end Loop

/-- The event ends the wait of a name that was observed before it. -/
def Event.settles (comm : Comm) : Event → Prop
  | .removed comm' => comm' = comm
  | .finished batch => comm ∈ batch
  | _ => False

/-- A name that was observed is still known to the batcher, or something settled it since. -/
def Covered (b : ActivationBatcher) (log : List Event) : Prop :=
  ∀ before after comm, log = before ++ .observed comm false :: after →
    comm ∈ b.pending ∨ b.flying comm = true ∨ ∃ event ∈ after, event.settles comm

/-- Strictly ascending, hence without duplicates. -/
def Ascending (batch : List Comm) : Prop := batch.Pairwise (compare · · = .lt)

structure Batched (s : Loop) (maxBatch : ℕ) : Prop where
  wellFormed : s.batcher.WellFormed
  limit : s.batcher.maxBatch = maxBatch
  batches : ∀ batch ∈ s.takenBatches, Ascending batch ∧ batch.Nodup ∧ batch.length ≤ maxBatch
  /-- All batches but the one in flight are finished. -/
  outstanding : s.takenBatches = s.finishedBatches ++ s.batcher.inFlight.toList
  /-- The batch in flight is in one place. -/
  placed : s.ready.toList.length + s.notifier.outstanding = s.batcher.inFlight.toList.length
  covered : Covered s.batcher s.log
  accepted : s.refused = none

/-! ## What one action keeps -/

section Steps

variable {s s' : Loop} {maxBatch : ℕ} {b b' : ActivationBatcher} {log : List Event}
  {batch : List Comm}

/-- The log grows by one event: what was covered stays so, and a new observation is covered. -/
theorem Covered.concat {event : Event} (h : Covered b log)
    (hkept : ∀ comm, comm ∈ b.pending ∨ b.flying comm = true →
      comm ∈ b'.pending ∨ b'.flying comm = true ∨ event.settles comm)
    (hnew : ∀ comm, event = .observed comm false → comm ∈ b'.pending) :
    Covered b' (log ++ [event]) := by
  intro before after comm hsplit
  rcases eq_nil_or_concat' after with rfl | ⟨earlier, last, rfl⟩
  · obtain ⟨rfl, hevent⟩ := append_inj' hsplit rfl
    exact .inl (hnew comm (singleton_inj.mp hevent))
  · have hassoc : log ++ [event] = (before ++ .observed comm false :: earlier) ++ [last] := by
      simpa using hsplit
    obtain ⟨hlog, hlast⟩ := append_inj' hassoc rfl
    obtain rfl := singleton_inj.mp hlast
    have hsettled : event.settles comm → ∃ e ∈ earlier ++ [event], e.settles comm := fun he =>
      ⟨event, mem_append_right _ mem_cons_self, he⟩
    rcases h before earlier comm hlog with hpending | hflying | ⟨e, he, hsettles⟩
    · rcases hkept comm (.inl hpending) with h | h | h
      · exact .inl h
      · exact .inr (.inl h)
      · exact .inr (.inr (hsettled h))
    · rcases hkept comm (.inr hflying) with h | h | h
      · exact .inl h
      · exact .inr (.inl h)
      · exact .inr (.inr (hsettled h))
    · exact .inr (.inr ⟨e, mem_append_left _ he, hsettles⟩)

theorem Ascending.nodup (h : Ascending batch) : batch.Nodup := by
  refine Pairwise.imp ?_ h
  rintro a b hlt rfl
  rw [ReflOrd.compare_self] at hlt
  cases hlt

theorem ascending_take (pending : ExtTreeSet Comm) (n : ℕ) : Ascending (pending.toList.take n) :=
  ExtTreeSet.ordered_toList.sublist (take_sublist n _)

section Act

variable (h : Batched s maxBatch) {comm : Comm} {now : Instant}
include h

theorem Batched.observe (hact : s.act (.observe comm now) = some s') : Batched s' maxBatch := by
  cases hact
  have hsame : (s.batcher.observe comm now).inFlight = s.batcher.inFlight := by
    unfold ActivationBatcher.observe
    split <;> rfl
  have hlimit : (s.batcher.observe comm now).maxBatch = s.batcher.maxBatch := by
    unfold ActivationBatcher.observe
    split <;> rfl
  refine ⟨h.wellFormed.observe comm now, hlimit.trans h.limit, ?_, ?_, ?_, ?_, h.accepted⟩
  · simpa [Loop.takenBatches] using h.batches
  · simpa [Loop.takenBatches, Loop.finishedBatches, hsame] using h.outstanding
  · simpa [hsame] using h.placed
  · refine h.covered.concat ?_ ?_
    · rintro c (hpending | hflying)
      · left
        unfold ActivationBatcher.observe
        split
        · exact hpending
        · exact ExtTreeSet.mem_insert.mpr (.inr hpending)
      · right
        left
        simpa [ActivationBatcher.flying, hsame] using hflying
    · intro c hevent
      obtain ⟨rfl, hflying⟩ := Event.observed.inj hevent
      unfold ActivationBatcher.observe
      rw [if_neg (by simp [hflying])]
      exact ExtTreeSet.mem_insert_self

theorem Batched.removePending (hact : s.act (.removePending comm) = some s') :
    Batched s' maxBatch := by
  cases hact
  have hsame : (s.batcher.removePending comm).inFlight = s.batcher.inFlight :=
    ActivationBatcher.settle_inFlight _
  refine ⟨h.wellFormed.removePending comm, ?_, ?_, ?_, ?_, ?_, h.accepted⟩
  · exact (ActivationBatcher.settle_maxBatch _).trans h.limit
  · simpa [Loop.takenBatches] using h.batches
  · simpa [Loop.takenBatches, Loop.finishedBatches, hsame] using h.outstanding
  · simpa [hsame] using h.placed
  · refine h.covered.concat ?_ ?_
    · rintro c (hpending | hflying)
      · by_cases hc : comm = c
        · exact .inr (.inr hc)
        · left
          unfold ActivationBatcher.removePending
          rw [ActivationBatcher.settle_pending]
          refine ExtTreeSet.mem_erase.mpr ⟨?_, hpending⟩
          exact fun heq => hc (LawfulEqCmp.compare_eq_iff_eq.mp heq)
      · right
        left
        simpa [ActivationBatcher.flying, hsame] using hflying
    · intro c hevent
      cases hevent

theorem Batched.takeReady (hact : s.act (.takeReady now) = some s') : Batched s' maxBatch := by
  simp only [Loop.act] at hact
  by_cases hready : s.ready.isSome = true
  · simp [hready] at hact
  rw [if_neg hready] at hact
  rcases ActivationBatcher.takeReady_cases h.wellFormed now with htake | ⟨batch, b, htake, htaken⟩
  · rw [htake] at hact
    cases hact
    exact h
  · rw [htake] at hact
    cases hact
    have hplaced := h.placed
    rw [htaken.idle] at hplaced
    have houtstanding := h.outstanding
    rw [htaken.idle, toList_none, append_nil] at houtstanding
    have hascending : Ascending batch := htaken.leading ▸ ascending_take _ _
    refine ⟨htaken.wellFormed, htaken.limit.trans h.limit, ?_, ?_, ?_, ?_, h.accepted⟩
    · intro batch' hbatch
      simp only [Loop.takenBatches, filterMap_append, mem_append] at hbatch
      rcases hbatch with hold | hnew
      · exact h.batches batch' hold
      · obtain rfl : batch' = batch := by simpa using hnew
        refine ⟨hascending, hascending.nodup, ?_⟩
        rw [htaken.leading, ← h.limit]
        exact length_take_le _ _
    · simp only [Loop.takenBatches, Loop.finishedBatches] at houtstanding
      simp [Loop.takenBatches, Loop.finishedBatches, htaken.inFlight, houtstanding]
    · simp only [toList_none, length_nil] at hplaced
      simp only [htaken.inFlight, toList_some, length_singleton]
      omega
    · refine h.covered.concat ?_ ?_
      · rintro c (hpending | hflying)
        · by_cases hc : c ∈ batch
          · exact .inr (.inl (ActivationBatcher.flying_iff.mpr ⟨batch, htaken.inFlight, hc⟩))
          · exact .inl ((htaken.pending c).mpr ⟨hpending, hc⟩)
        · obtain ⟨old, hold, -⟩ := ActivationBatcher.flying_iff.mp hflying
          rw [htaken.idle] at hold
          cases hold
      · intro c hevent
        cases hevent

/-- A batch that is ready is the only one in flight, so the command channel is empty. -/
theorem Batched.commands_empty (hready : s.ready = some batch) : s.notifier.commands = none := by
  have hplaced := h.placed
  rw [hready] at hplaced
  cases hcommands : s.notifier.commands with
  | none => rfl
  | some activation =>
    cases hflight : s.batcher.inFlight <;>
      simp [ActivationNotifier.outstanding, hcommands, hflight] at hplaced

theorem Batched.startActivation {revision : UInt64}
    (hact : s.act (.startActivation revision) = some s') : Batched s' maxBatch := by
  obtain ⟨batch, hready, rfl⟩ := map_eq_some_iff.mp hact
  have hempty := h.commands_empty hready
  have hplaced := h.placed
  rw [hready] at hplaced
  simp only [ActivationNotifier.outstanding, hempty, toList_some, toList_none,
    length_singleton, length_nil] at hplaced
  simp only [ActivationNotifier.startActivation, hempty]
  refine ⟨h.wellFormed, h.limit, h.batches, h.outstanding, ?_, h.covered, h.accepted⟩
  simp only [ActivationNotifier.outstanding, toList_some, toList_none,
    length_singleton, length_nil]
  omega

theorem Batched.receive (hact : s.act .receive = some s') : Batched s' maxBatch := by
  obtain ⟨n, hreceive, rfl⟩ := map_eq_some_iff.mp hact
  unfold ActivationNotifier.receive at hreceive
  split at hreceive
  · rename_i activation hserving hcommands
    cases hreceive
    refine ⟨h.wellFormed, h.limit, h.batches, h.outstanding, ?_, h.covered, h.accepted⟩
    have hplaced := h.placed
    simpa [ActivationNotifier.outstanding, hserving, hcommands] using hplaced
  · cases hreceive

theorem Batched.post {completion : ActivationCompletion} (hact : s.act (.post completion) = some s') :
    Batched s' maxBatch := by
  obtain ⟨n, hpost, rfl⟩ := map_eq_some_iff.mp hact
  unfold ActivationNotifier.post at hpost
  split at hpost
  · rename_i activation hserving hcompletions
    cases hpost
    refine ⟨h.wellFormed, h.limit, h.batches, h.outstanding, ?_, h.covered, h.accepted⟩
    have hplaced := h.placed
    simpa [ActivationNotifier.outstanding, hserving, hcompletions] using hplaced
  · cases hpost

theorem Batched.pollCompletion (hact : s.act .pollCompletion = some s') : Batched s' maxBatch := by
  obtain ⟨completion, hcompletion, rfl⟩ := map_eq_some_iff.mp hact
  have hplaced := h.placed
  simp only [ActivationNotifier.outstanding, hcompletion, toList_some,
    length_singleton] at hplaced
  -- a completion stands for the batch in flight
  obtain ⟨batch, hflight⟩ : ∃ batch, s.batcher.inFlight = some batch := by
    cases hflight : s.batcher.inFlight with
    | none => simp [hflight] at hplaced
    | some batch => exact ⟨batch, rfl⟩
  simp only [hflight, toList_some, length_singleton] at hplaced
  have hlog : s.batcher.finish.1.toList.map Event.finished = [.finished batch] := by
    simp [ActivationBatcher.finish, hflight]
  have houtstanding := h.outstanding
  simp only [hflight, Loop.takenBatches, Loop.finishedBatches] at houtstanding
  rw [hlog]
  refine ⟨h.wellFormed.finish, h.limit, ?_, ?_, ?_, ?_, h.accepted⟩
  · simpa [Loop.takenBatches] using h.batches
  · simp [Loop.takenBatches, Loop.finishedBatches, ActivationBatcher.finish, houtstanding]
  · simp only [ActivationNotifier.outstanding, ActivationBatcher.finish, toList_none,
      length_nil]
    omega
  · refine h.covered.concat ?_ ?_
    · rintro c (hpending | hflying)
      · exact .inl hpending
      · obtain ⟨batch', hbatch, hc⟩ := ActivationBatcher.flying_iff.mp hflying
        rw [hflight, some.injEq] at hbatch
        exact .inr (.inr (hbatch ▸ hc))
    · intro c hevent
      cases hevent

theorem Batched.act (action : Action) (hact : s.act action = some s') : Batched s' maxBatch := by
  cases action with
  | observe comm now => exact h.observe hact
  | removePending comm => exact h.removePending hact
  | takeReady now => exact h.takeReady hact
  | startActivation revision => exact h.startActivation hact
  | receive => exact h.receive hact
  | post completion => exact h.post hact
  | pollCompletion => exact h.pollCompletion hact

end Act

theorem Batched.init (coalesce maxBatch : ℕ) (hmax : 0 < maxBatch) :
    Batched (Loop.init coalesce maxBatch hmax) maxBatch where
  wellFormed := .new coalesce maxBatch hmax
  limit := rfl
  batches := by simp [Loop.init, Loop.takenBatches]
  outstanding := rfl
  placed := rfl
  covered := by
    intro before after comm hsplit
    simp [Loop.init] at hsplit
  accepted := rfl

theorem Batched.run {actions : List Action} (h : Batched s maxBatch)
    (hrun : s.run actions = some s') : Batched s' maxBatch := by
  induction actions generalizing s with
  | nil =>
    cases hrun
    exact h
  | cons action actions ih =>
    obtain ⟨t, hact, hrest⟩ := bind_eq_some_iff.mp hrun
    exact ih (h.act action hact) hrest

end Steps

/-- Over every run of the loop and its worker: pending and flying names are disjoint, the timer runs
exactly while names are pending, every batch is sorted, free of duplicates and small enough, all but
the last batch are finished and that one is in one place, no observed name is lost, and no batch that
was ready has been or can be refused. -/
theorem activation_batching (coalesce maxBatch : ℕ) (hmax : 0 < maxBatch) (actions : List Action)
    (s : Loop) (hrun : (Loop.init coalesce maxBatch hmax).run actions = some s) :
    (∀ batch, s.batcher.inFlight = some batch → ∀ comm ∈ batch, comm ∉ s.batcher.pending) ∧
    (s.batcher.pendingSince.isSome = true ↔ s.batcher.pending ≠ ∅) ∧
    (∀ batch ∈ s.takenBatches, Ascending batch ∧ batch.Nodup ∧ batch.length ≤ maxBatch) ∧
    s.takenBatches = s.finishedBatches ++ s.batcher.inFlight.toList ∧
    s.ready.toList.length + s.notifier.outstanding = s.batcher.inFlight.toList.length ∧
    (∀ before after comm flying, s.log = before ++ .observed comm flying :: after →
      flying = true ∨ comm ∈ s.batcher.pending ∨ s.batcher.flying comm = true ∨
        ∃ event ∈ after, event.settles comm) ∧
    s.refused = none ∧
    (∀ batch revision, s.ready = some batch →
      ∃ n, s.notifier.startActivation ⟨batch.map Comm.value, revision⟩ = .ok n) := by
  have h := (Batched.init coalesce maxBatch hmax).run hrun
  refine ⟨h.wellFormed.disjoint, h.wellFormed.timer, h.batches, h.outstanding, h.placed, ?_,
    h.accepted, ?_⟩
  · intro before after comm flying hsplit
    cases flying with
    | true => exact .inl rfl
    | false => exact .inr (h.covered before after comm hsplit)
  · intro batch revision hready
    simp [ActivationNotifier.startActivation, h.commands_empty hready]

/-- Two names are batched and delivered while one of them is seen again and a third one comes in. -/
def oneRound : List Action :=
  let make := Comm.mk "make" (by decide)
  let node := Comm.mk "node" (by decide)
  let rustc := Comm.mk "rustc" (by decide)
  [.observe rustc 0, .observe make 40, .takeReady 250, .startActivation 3, .receive,
    .observe make 260, .observe node 270, .removePending rustc,
    .post (.response ⟨true, "completed", none⟩), .pollCompletion, .takeReady 600]

theorem oneRound_runs : ((Loop.init 250 128 (by decide)).run oneRound).isSome = true := by
  decide +kernel

theorem activation_batching_one_round :
    ∃ s, (Loop.init 250 128 (by decide)).run oneRound = some s ∧ s.refused = none :=
  ⟨_, (some_get oneRound_runs).symm,
    (activation_batching 250 128 (by decide) oneRound _
      (some_get oneRound_runs).symm).2.2.2.2.2.2.1⟩

end ScxAgent.Activation
