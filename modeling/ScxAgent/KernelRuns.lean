import ScxAgent.SoundMachines

/-!
# Runs of a kernel

A run begins a transaction on an empty log and goes on with public calls, with crashes that are
followed by a recovery, and with writes of other parties between the calls. The drivers and
the log answer as they like. Every machine on a run is sound, and no public call panics.
-/

set_option linter.unusedSectionVars false

namespace ScxAgent

open Std StepLogic List TransactionWal

variable {V W ω : Type} [DecidableEq V] [Serialize V] [Sha256] [TransactionWal V ω] [Inhabited V]

/-! ## Outcomes of a public call -/

section Calls

variable {m m' : Machine V W ω} {call : PublicCall V} {result : List (ChangeRecord V)}

theorem PublicCall.invoke_ok (hsound : Sound m) (hrun : call.invoke m = (.ok result, m')) :
    (∃ st, Live m st) ∧ (kernelSystem (call.permit m)).Steps m m' ∧ call.Done m m' := by
  rcases hsound.status with ⟨st, hlive⟩ | ⟨front, st, event, hclosed⟩
  · have hexits := call.invoke_follows hlive
    unfold Follows at hexits
    rw [hrun] at hexits
    exact ⟨⟨st, hlive⟩, hexits.1, hexits.2⟩
  · obtain ⟨e, hrefused⟩ := call.invoke_sealed hclosed.sealed
    rw [hrun] at hrefused
    cases hrefused

theorem PublicCall.invoke_error {e : TransactionError} (hsound : Sound m)
    (hrun : call.invoke m = (.error (.error e), m')) :
    m' = m ∧ m.kernel.sealed ≠ none ∨
      (∃ st, Live m st) ∧ (kernelSystem (call.permit m)).Steps m m' ∧ call.Failed m m' := by
  rcases hsound.status with ⟨st, hlive⟩ | ⟨front, st, event, hclosed⟩
  · have hexits := call.invoke_follows hlive
    unfold Follows at hexits
    rw [hrun] at hexits
    exact .inr ⟨⟨st, hlive⟩, hexits.1, hexits.2⟩
  · obtain ⟨e, hrefused⟩ := call.invoke_sealed hclosed.sealed
    rw [hrun] at hrefused
    cases hrefused
    exact .inl ⟨rfl, hclosed.sealed⟩

theorem PublicCall.invoke_crashed (hsound : Sound m)
    (hrun : call.invoke m = (.error .crashed, m')) :
    ∃ u, (kernelSystem (call.permit m)).Steps m u ∧ Down (call.permit m) u m' := by
  rcases hsound.status with ⟨st, hlive⟩ | ⟨front, st, event, hclosed⟩
  · have hexits := call.invoke_follows hlive
    unfold Follows at hexits
    rw [hrun] at hexits
    exact hexits
  · obtain ⟨e, hrefused⟩ := call.invoke_sealed hclosed.sealed
    rw [hrun] at hrefused
    cases hrefused

theorem PublicCall.invoke_never_panics (call : PublicCall V) (hsound : Sound m) (m' : Machine V W ω) :
    call.invoke m ≠ (.error .panicked, m') := by
  intro hrun
  rcases hsound.status with ⟨st, hlive⟩ | ⟨front, st, event, hclosed⟩
  · have hexits := call.invoke_follows hlive
    unfold Follows at hexits
    rw [hrun] at hexits
    exact hexits
  · obtain ⟨e, hrefused⟩ := call.invoke_sealed hclosed.sealed
    rw [hrun] at hrefused
    cases hrefused

end Calls

/-! ## Runs -/

/-- A crash between two public calls or during one. -/
def Crashes (m m' : Machine V W ω) : Prop :=
  m' = m ∨ ∃ call : PublicCall V, call.invoke m = (.error .crashed, m')

def Machine.recovered (m : Machine V W ω) (k : TransactionKernel V W ω)
    (entries : List (WalEntry V)) : Machine V W ω :=
  ⟨k, m.world, m.trace ++ [⟨k.wal, m.world, .recovered entries⟩]⟩

/-- A new process rebuilds the kernel from the log that the old one left. -/
def Restarts (m m' : Machine V W ω) : Prop :=
  ∃ entries k, TransactionWal.load m.kernel.wal = .ok entries ∧
    recover m.kernel.transactionId m.kernel.intentPin m.kernel.capabilities m.kernel.wal = .ok k ∧
    m' = m.recovered k entries

/-- A point of a run: the machine, and the candidate of the last replay that succeeded or, if
there was a recovery since, the candidate that the recovery found applied. -/
structure Stage (V W ω : Type) [Sha256] where
  machine : Machine V W ω
  candidate : Option Candidate

def PublicCall.replayed (call : PublicCall V) (candidate : Option Candidate) : Option Candidate :=
  match call with
  | .replayCandidate replayed => some replayed
  | _ => candidate

/-- One move of a run. The relation `env` says what other parties may do to the world while no
public call is running. -/
inductive Next (env : W → W → Prop) : Stage V W ω → Stage V W ω → Prop
  | returned {s : Stage V W ω} {m : Machine V W ω} {result : List (ChangeRecord V)}
      (call : PublicCall V) (hrun : call.invoke s.machine = (.ok result, m)) :
      Next env s ⟨m, call.replayed s.candidate⟩
  | failed {s : Stage V W ω} {m : Machine V W ω} {e : TransactionError} (call : PublicCall V)
      (hrun : call.invoke s.machine = (.error (.error e), m)) : Next env s ⟨m, s.candidate⟩
  | restarted {s : Stage V W ω} {down m : Machine V W ω} (hcrash : Crashes s.machine down)
      (hrestart : Restarts down m) : Next env s ⟨m, m.kernel.activeCandidate⟩
  | written {s : Stage V W ω} {w : W} (henv : env s.machine.world w) :
      Next env s ⟨{ s.machine with world := w }, s.candidate⟩

inductive Reachable (env : W → W → Prop) (w₀ : W) : Stage V W ω → Prop
  | begun {transactionId : TransactionId} {intentPin : EvaluationIntentPin}
      {capabilities : CapabilitySnapshot V W} {wal : ω} {m : Machine V W ω}
      (hempty : TransactionWal.load wal = .ok [])
      (hbegin : TransactionKernel.begin transactionId intentPin capabilities wal w₀ = (.ok (), m)) :
      Reachable env w₀ ⟨m, none⟩
  | reborn {transactionId : TransactionId} {intentPin : EvaluationIntentPin}
      {capabilities : CapabilitySnapshot V W} {wal : ω} {down m : Machine V W ω}
      {halt : Halt TransactionError} (hempty : TransactionWal.load wal = .ok [])
      (hbegin : TransactionKernel.begin transactionId intentPin capabilities wal w₀ =
        (.error halt, down))
      (hrestart : Restarts down m) : Reachable env w₀ ⟨m, m.kernel.activeCandidate⟩
  | next {s s' : Stage V W ω} (hreach : Reachable env w₀ s) (hnext : Next env s s') :
      Reachable env w₀ s'

/-! ## Recovery of a sound machine -/

section Restart

variable {m m' : Machine V W ω} {st : Replay V} {k : TransactionKernel V W ω}
  {entries : List (WalEntry V)}

theorem Machine.recovered_log (m : Machine V W ω) (k : TransactionKernel V W ω)
    (entries : List (WalEntry V)) : (m.recovered k entries).log = entries :=
  logOf_concat m.trace _

theorem live_recovered {candidate : Option Candidate}
    (hledger : Ledger m.kernel.transactionId m.kernel.intentPin m.kernel.capabilities entries st) :
    Live (m.recovered (st.kernel m.kernel.transactionId m.kernel.intentPin m.kernel.capabilities
      m.kernel.wal candidate) entries) st := by
  refine ⟨?_, ⟨rfl, rfl, rfl, TreeMap.size_map, ?_⟩, hledger.inv.unsealed⟩
  · rw [Machine.recovered_log]
    exact hledger
  · intro changeId
    change Option.Rel _ st.recoveredChanges[changeId]? _
    rw [recoveredChanges_getElem?]
    cases hget : st.changes[changeId]? with
    | none => exact .none
    | some change =>
      refine .some ⟨recovered_identity _ change, recovered_verified _ change, ?_⟩
      rcases recovered_state hget with ⟨_, hstate⟩ | ⟨huncertain, hstate⟩
      · exact .inl hstate
      · exact .inr ⟨hstate, huncertain⟩

section Recovered

variable (hload : load m.kernel.wal = .ok entries)
  (hrecover : recover m.kernel.transactionId m.kernel.intentPin m.kernel.capabilities
    m.kernel.wal = .ok k)
include hload hrecover

/-- The kernel that a recovery rebuilds from a chronicle. -/
theorem Chronicle.status
    (h : Chronicle m.kernel.transactionId m.kernel.intentPin m.kernel.capabilities entries) :
    (∃ st, Live (m.recovered k entries) st) ∨
      ∃ front st event, Closed (m.recovered k entries) front st event := by
  cases h with
  | @ledger log st hledger =>
    obtain ⟨candidate, _, heq⟩ := hledger.recover_eq hload
    rw [hrecover] at heq
    cases heq
    exact .inl ⟨st, live_recovered hledger⟩
  | @closed log st event hledger hdue hterminal =>
    have hreopened := hledger.reopened hdue hterminal hload hrecover
    refine .inr ⟨log, st, event, ?_, ?_, hterminal, ?_, hreopened.sealed, hreopened.order,
      hreopened.heads, hreopened.table, hreopened.records⟩
    · change Ledger k.transactionId k.intentPin k.capabilities log st
      rw [hreopened.transactionId, hreopened.intentPin, hreopened.capabilities]
      exact hledger
    · change Due k.transactionId k.capabilities st event
      rw [hreopened.transactionId, hreopened.capabilities]
      exact hdue
    · rw [Machine.recovered_log]
      change _ = log ++ [⟨st.expectedSequence, k.transactionId, event⟩]
      rw [hreopened.transactionId]

theorem recover_setting :
    k.transactionId = m.kernel.transactionId ∧ k.intentPin = m.kernel.intentPin ∧
      k.capabilities = m.kernel.capabilities ∧ k.wal = m.kernel.wal := by
  obtain ⟨st, candidate, _, _, rfl⟩ := (recover_ok_iff hload).mp hrecover
  exact ⟨rfl, rfl, rfl, rfl⟩

/-- A recovery from a chronicle whose records are evident. -/
theorem sound_recovered
    (hchronicle : Chronicle m.kernel.transactionId m.kernel.intentPin m.kernel.capabilities entries)
    (hevident : ∀ entry ∈ entries, Evident m.trace entry.event) :
    Sound (m.recovered k entries) := by
  refine ⟨hchronicle.status hload hrecover, ?_, ?_⟩
  · intro entries' hload'
    change load k.wal = .ok entries' at hload'
    rw [(recover_setting hload hrecover).2.2.2, hload] at hload'
    cases hload'
    have hself : Stored (m.recovered k entries) (m.recovered k entries).log := .acknowledged
    rw [Machine.recovered_log] at hself
    exact hself
  · rw [Machine.recovered_log]
    exact fun entry hmem => (hevident entry hmem).append _

end Recovered

theorem Sound.restarts (hsound : Sound m) (h : Restarts m m') : Sound m' := by
  obtain ⟨entries, k, hload, hrecover, rfl⟩ := h
  cases hsound.stored entries hload with
  | acknowledged => exact sound_recovered hload hrecover hsound.chronicle hsound.evident
  | unanswered st event hlive hdue hevident =>
    refine sound_recovered hload hrecover ?_ ?_
    · have hchronicle := hlive.ledger.append_due hdue
      rw [← hlive.tracks.sequence] at hchronicle
      exact hchronicle
    · intro entry hmem
      rcases mem_append.mp hmem with hmem | hmem
      · exact hsound.evident entry hmem
      · rw [mem_singleton.mp hmem]
        exact hevident
  | broken _ hbroken hsubset =>
    obtain ⟨st, candidate, hreplay, _⟩ := (recover_ok_iff hload).mp hrecover
    obtain ⟨e, herror⟩ := hbroken.replayLog_error entries.length
    rw [hreplay] at herror
    cases herror

/-- A crash leaves the setting of the transaction as it was. -/
theorem Crashes.extends (h : Crashes m m') (hsound : Sound m) : Extends m m' := by
  rcases h with rfl | ⟨call, hrun⟩
  · exact .refl _
  · obtain ⟨u, hsteps, hdown⟩ := PublicCall.invoke_crashed hsound hrun
    have hextends := Steps.extends hsteps
    rcases hdown with ⟨call, w', _, hstep, rfl⟩ | ⟨event, wal, _, _, rfl⟩
    · exact hextends.trans hstep.extends
    · exact hextends.trans ⟨rfl, rfl, rfl, prefix_append _ _⟩

theorem Crashes.sound (hwal : AppendOnly ω) (h : Crashes m m') (hsound : Sound m) : Sound m' := by
  rcases h with rfl | ⟨call, hrun⟩
  · exact hsound
  · obtain ⟨u, hsteps, hdown⟩ := PublicCall.invoke_crashed hsound hrun
    exact hdown.sound hwal (Steps.sound hwal hsteps hsound)

end Restart

/-! ## The start of a run -/

variable {halt : Halt TransactionError}

section Begin

variable {transactionId : TransactionId} {intentPin : EvaluationIntentPin}
  {capabilities : CapabilitySnapshot V W} {wal : ω} {m down : Machine V W ω} {w₀ : W}

/-- The machine that `begin` appends the start record on. -/
def Machine.fresh (transactionId : TransactionId) (intentPin : EvaluationIntentPin)
    (capabilities : CapabilitySnapshot V W) (wal : ω) (world : W) : Machine V W ω where
  kernel :=
    { transactionId, intentPin, capabilities, wal
      changes := ∅
      resourceHeads := ∅
      changeOrder := []
      nextSequence := 0
      operationCounter := 0
      activeCandidate := none
      commitAuthorization := none
      sealed := none }
  world := world
  trace := []

/-- The machine after an acknowledged start record. -/
def Machine.begun (m : Machine V W ω) (wal : ω) : Machine V W ω :=
  (m.appended (.started m.kernel.intentPin m.kernel.capabilities.generation)
    (.answered (.ok ())) wal).update fun k => { k with nextSequence := k.nextSequence + 1 }

theorem begin_run (transactionId : TransactionId) (intentPin : EvaluationIntentPin)
    (capabilities : CapabilitySnapshot V W) (wal : ω) (world : W) :
    TransactionKernel.begin transactionId intentPin capabilities wal world =
      (Machine.fresh transactionId intentPin capabilities wal world).append
        (.started intentPin capabilities.generation) walError
        (fun k => { k with nextSequence := k.nextSequence + 1 })
        (putEntry wal ⟨0, transactionId, .started intentPin capabilities.generation⟩) :=
  append_run _ _ _ _ _

theorem begin_ok
    (h : TransactionKernel.begin transactionId intentPin capabilities wal w₀ = (.ok (), m)) :
    ∃ wal', putEntry wal ⟨0, transactionId, .started intentPin capabilities.generation⟩ =
        (.answered (.ok ()), wal') ∧
      m = (Machine.fresh transactionId intentPin capabilities wal w₀).begun wal' := by
  rw [begin_run] at h
  rcases hput : putEntry wal (⟨0, transactionId, .started intentPin capabilities.generation⟩ :
    WalEntry V) with ⟨_ | (error | ⟨⟩), wal'⟩ <;> rw [hput] at h <;> cases h
  exact ⟨wal', rfl, rfl⟩

theorem begin_error
    (h : TransactionKernel.begin transactionId intentPin capabilities wal w₀ = (.error halt, down)) :
    ∃ reply wal', putEntry wal ⟨0, transactionId, .started intentPin capabilities.generation⟩ =
        (reply, wal') ∧ reply ≠ .answered (.ok ()) ∧
      down = (Machine.fresh transactionId intentPin capabilities wal w₀).appended
        (.started intentPin capabilities.generation) reply wal' := by
  rw [begin_run] at h
  rcases hput : putEntry wal (⟨0, transactionId, .started intentPin capabilities.generation⟩ :
    WalEntry V) with ⟨_ | (error | ⟨⟩), wal'⟩ <;> rw [hput] at h <;> cases h
  · exact ⟨_, wal', rfl, (fun h => by cases h), rfl⟩
  · exact ⟨_, wal', rfl, (fun h => by cases h), rfl⟩

theorem begun_log (wal' : ω) :
    ((Machine.fresh transactionId intentPin capabilities wal w₀).begun wal').log =
      [⟨0, transactionId, .started intentPin capabilities.generation⟩] := rfl

theorem live_begun (wal' : ω) :
    Live ((Machine.fresh transactionId intentPin capabilities wal w₀).begun wal') .started := by
  refine ⟨.start, ⟨rfl, rfl, rfl, rfl, ?_⟩, rfl⟩
  intro changeId
  have hnone : (∅ : TreeMap ChangeId (ChangeRecord V))[changeId]? = none :=
    TreeMap.getElem?_emptyc
  change Option.Rel _ (∅ : TreeMap ChangeId (ChangeRecord V))[changeId]?
    (∅ : TreeMap ChangeId (ChangeRecord V))[changeId]?
  rw [hnone]
  exact .none

theorem sound_begun (hwal : AppendOnly ω) (hempty : load wal = .ok [])
    (h : TransactionKernel.begin transactionId intentPin capabilities wal w₀ = (.ok (), m)) :
    Sound m := by
  obtain ⟨wal', hput, rfl⟩ := begin_ok h
  refine ⟨.inl ⟨_, live_begun wal'⟩, ?_, ?_⟩
  · intro entries' hload
    obtain ⟨entries, hbefore, hafter⟩ := hwal.loaded _ _ _ _ _ hput hload
    rw [hempty] at hbefore
    cases hbefore
    rcases hafter with rfl | ⟨hreply, _⟩
    · exact .acknowledged
    · exact absurd rfl hreply
  · rw [begun_log]
    intro entry hmem
    rw [mem_singleton.mp hmem]
    exact fun _ hrecord => nomatch hrecord

/-- A start record that was not acknowledged may still be found by a recovery. -/
theorem sound_reborn (hwal : AppendOnly ω) (hempty : load wal = .ok [])
    (h : TransactionKernel.begin transactionId intentPin capabilities wal w₀ = (.error halt, down))
    (hrestart : Restarts down m) : Sound m := by
  obtain ⟨reply, wal', hput, _, rfl⟩ := begin_error h
  obtain ⟨entries', k, hload, hrecover, rfl⟩ := hrestart
  obtain ⟨entries, hbefore, hafter⟩ := hwal.loaded _ _ _ _ _ hput hload
  rw [hempty] at hbefore
  cases hbefore
  rcases hafter with rfl | ⟨_, rfl⟩
  · refine sound_recovered hload hrecover (.ledger .start) ?_
    intro entry hmem
    rw [mem_singleton.mp hmem]
    exact fun _ hrecord => nomatch hrecord
  · -- an empty log holds no start record
    obtain ⟨st, candidate, hreplay, hfinish, _⟩ := (recover_ok_iff hload).mp hrecover
    cases hreplay
    cases hfinish

end Begin

/-! ## Every machine on a run is sound -/

section Reachable

variable {env : W → W → Prop} {w₀ : W} {s s' : Stage V W ω}

theorem Sound.interfered {m : Machine V W ω} (hsound : Sound m) (w : W) :
    Sound { m with world := w } := by
  have hextends : Extends m { m with world := w } := ⟨rfl, rfl, rfl, prefix_refl _⟩
  refine hsound.of_quiet hextends rfl rfl rfl ?_ ?_
  · exact fun st hlive => hlive.update_of_eq rfl rfl rfl rfl rfl rfl rfl rfl rfl
  · exact fun _ _ _ hclosed => hclosed.of_quiet hextends rfl rfl rfl rfl rfl

theorem Next.sound (hwal : AppendOnly ω) (h : Next env s s') (hsound : Sound s.machine) :
    Sound s'.machine := by
  cases h with
  | returned call hrun => exact Steps.sound hwal (PublicCall.invoke_ok hsound hrun).2.1 hsound
  | failed call hrun =>
    rcases PublicCall.invoke_error hsound hrun with ⟨rfl, _⟩ | ⟨_, hsteps, _⟩
    · exact hsound
    · exact Steps.sound hwal hsteps hsound
  | restarted hcrash hrestart => exact (hcrash.sound hwal hsound).restarts hrestart
  | written henv => exact hsound.interfered _

theorem Crashes.log_subset {m m' : Machine V W ω} (h : Crashes m m') (hsound : Sound m) :
    m.log ⊆ m'.log := by
  rcases h with rfl | ⟨call, hrun⟩
  · exact Subset.refl _
  · obtain ⟨u, hsteps, hdown⟩ := PublicCall.invoke_crashed hsound hrun
    exact Subset.trans (Steps.log_subset hsteps) hdown.log_subset

theorem Next.log_subset (hwal : AppendOnly ω) (h : Next env s s') (hsound : Sound s.machine) :
    s.machine.log ⊆ s'.machine.log := by
  cases h with
  | returned call hrun => exact Steps.log_subset (PublicCall.invoke_ok hsound hrun).2.1
  | failed call hrun =>
    rcases PublicCall.invoke_error hsound hrun with ⟨rfl, _⟩ | ⟨_, hsteps, _⟩
    · exact Subset.refl _
    · exact Steps.log_subset hsteps
  | restarted hcrash hrestart =>
    obtain ⟨entries, k, hload, _, rfl⟩ := hrestart
    rw [Machine.recovered_log]
    exact Subset.trans (hcrash.log_subset hsound)
      ((hcrash.sound hwal hsound).log_subset hload)
  | written henv => exact Subset.refl _

/-- A run keeps the setting of its transaction. -/
theorem Next.setting (h : Next env s s') (hsound : Sound s.machine) :
    s'.machine.kernel.transactionId = s.machine.kernel.transactionId ∧
      s'.machine.kernel.intentPin = s.machine.kernel.intentPin ∧
      s'.machine.kernel.capabilities = s.machine.kernel.capabilities := by
  have hextends : ∀ {m m' : Machine V W ω}, Extends m m' →
      m'.kernel.transactionId = m.kernel.transactionId ∧
        m'.kernel.intentPin = m.kernel.intentPin ∧
        m'.kernel.capabilities = m.kernel.capabilities :=
    fun h => ⟨h.transactionId, h.intentPin, h.capabilities⟩
  cases h with
  | returned call hrun => exact hextends (Steps.extends (PublicCall.invoke_ok hsound hrun).2.1)
  | failed call hrun =>
    rcases PublicCall.invoke_error hsound hrun with ⟨rfl, _⟩ | ⟨_, hsteps, _⟩
    · exact ⟨rfl, rfl, rfl⟩
    · exact hextends (Steps.extends hsteps)
  | restarted hcrash hrestart =>
    obtain ⟨entries, k, hload, hrecover, rfl⟩ := hrestart
    obtain ⟨htransaction, hpin, hcapabilities, _⟩ := recover_setting hload hrecover
    obtain ⟨htransaction', hpin', hcapabilities'⟩ := hextends (hcrash.extends hsound)
    exact ⟨htransaction.trans htransaction', hpin.trans hpin',
      hcapabilities.trans hcapabilities'⟩
  | written henv => exact ⟨rfl, rfl, rfl⟩

theorem Reachable.sound (hwal : AppendOnly ω) (h : Reachable env w₀ s) : Sound s.machine := by
  induction h with
  | begun hempty hbegin => exact sound_begun hwal hempty hbegin
  | reborn hempty hbegin hrestart => exact sound_reborn hwal hempty hbegin hrestart
  | next _ hnext ih => exact hnext.sound hwal ih

end Reachable

/-! ## Executing a run -/

variable {s : Stage V W ω} {capabilities : CapabilitySnapshot V W} {intentPin : EvaluationIntentPin}
  {transactionId : TransactionId}

section Execution

variable {env : W → W → Prop} {w₀ : W} {s' : Stage V W ω} {wal : ω}

def Machine.restart (m : Machine V W ω) : Option (Machine V W ω) :=
  match TransactionWal.load m.kernel.wal,
    recover m.kernel.transactionId m.kernel.intentPin m.kernel.capabilities m.kernel.wal with
  | .ok entries, .ok k => some (m.recovered k entries)
  | _, _ => none

/-- The stage after a public call. A crash during the call is followed by a restart. -/
def Stage.act (s : Stage V W ω) (call : PublicCall V) : Option (Stage V W ω) :=
  match call.invoke s.machine with
  | (.ok _, m) => some ⟨m, call.replayed s.candidate⟩
  | (.error (.error _), m) => some ⟨m, s.candidate⟩
  | (.error .crashed, m) => m.restart.map fun m => ⟨m, m.kernel.activeCandidate⟩
  | (.error .panicked, _) => none

def Stage.start (transactionId : TransactionId) (intentPin : EvaluationIntentPin)
    (capabilities : CapabilitySnapshot V W) (wal : ω) (world : W) : Option (Stage V W ω) :=
  match TransactionWal.load wal, TransactionKernel.begin transactionId intentPin capabilities wal
    world with
  | .ok [], (.ok (), m) => some ⟨m, none⟩
  | _, _ => none

theorem Machine.restarts_of_restart {m m' : Machine V W ω} (h : m.restart = some m') :
    Restarts m m' := by
  unfold Machine.restart at h
  split at h
  · rename_i entries k hload hrecover
    cases h
    exact ⟨entries, k, hload, hrecover, rfl⟩
  · cases h

theorem Stage.next_of_act {call : PublicCall V} (h : s.act call = some s') : Next env s s' := by
  unfold Stage.act at h
  split at h
  · rename_i result m hrun
    cases h
    exact .returned call hrun
  · rename_i e m hrun
    cases h
    exact .failed call hrun
  · rename_i m hrun
    obtain ⟨m', hrestart, rfl⟩ := Option.map_eq_some_iff.mp h
    exact .restarted (.inr ⟨call, hrun⟩) (Machine.restarts_of_restart hrestart)
  · cases h

theorem Stage.reachable_of_start
    (h : Stage.start transactionId intentPin capabilities wal w₀ = some s) :
    Reachable env w₀ s := by
  unfold Stage.start at h
  split at h
  · rename_i m hload hbegin
    cases h
    exact .begun hload hbegin
  · cases h

theorem Stage.setting_of_start
    (h : Stage.start transactionId intentPin capabilities wal w₀ = some s) :
    s.machine.kernel.transactionId = transactionId ∧ s.machine.kernel.intentPin = intentPin ∧
      s.machine.kernel.capabilities = capabilities := by
  unfold Stage.start at h
  split at h
  · rename_i m hload hbegin
    cases h
    obtain ⟨wal', _, rfl⟩ := begin_ok hbegin
    exact ⟨rfl, rfl, rfl⟩
  · cases h

/-- The run of a list of calls. -/
theorem Stage.reachable_of_acts (hwal : AppendOnly ω) (calls : List (PublicCall V))
    (hreach : Reachable env w₀ s) (h : calls.foldlM Stage.act s = some s') :
    Reachable env w₀ s' ∧ s'.machine.kernel.transactionId = s.machine.kernel.transactionId ∧
      s'.machine.kernel.intentPin = s.machine.kernel.intentPin ∧
      s'.machine.kernel.capabilities = s.machine.kernel.capabilities := by
  induction calls generalizing s with
  | nil =>
    cases h
    exact ⟨hreach, rfl, rfl, rfl⟩
  | cons call rest ih =>
    obtain ⟨s₁, hact, hrest⟩ := Option.bind_eq_some_iff.mp h
    have hnext : Next env s s₁ := Stage.next_of_act hact
    obtain ⟨htransaction, hpin, hcapabilities⟩ := hnext.setting (hreach.sound hwal)
    rw [← htransaction, ← hpin, ← hcapabilities]
    exact ih (hreach.next hnext) hrest

end Execution

end ScxAgent
