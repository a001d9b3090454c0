import ScxAgent.KernelRuns

/-!
# Invariants of runs

The invariant rule for runs, and the logs for which an append is all or nothing. On such a
log a run finds exactly the entries that were acknowledged or read back.
-/

set_option linter.unusedSectionVars false

namespace ScxAgent

open Std StepLogic

variable {V W ω : Type} [DecidableEq V] [Serialize V] [Sha256] [TransactionWal V ω] [Inhabited V]

/-- What a property `I` of machines has to satisfy to hold along every run. A crash may leave
less than `I` behind: it leaves `C`, and a restart builds `I` again from that. -/
structure RunInvariant (env : W → W → Prop) (w₀ : W) (I C : Machine V W ω → Prop) : Prop where
  begun : ∀ {transactionId : TransactionId} {intentPin : EvaluationIntentPin}
    {capabilities : CapabilitySnapshot V W} {wal wal' : ω},
    TransactionWal.load wal = .ok [] →
    putEntry wal ⟨0, transactionId, .started intentPin capabilities.generation⟩ =
      (.answered (.ok ()), wal') →
    I ((Machine.fresh transactionId intentPin capabilities wal w₀).begun wal')
  reborn : ∀ {transactionId : TransactionId} {intentPin : EvaluationIntentPin}
    {capabilities : CapabilitySnapshot V W} {wal wal' : ω} {reply : Reply WalError Unit}
    {m : Machine V W ω}, TransactionWal.load wal = .ok [] →
    putEntry wal ⟨0, transactionId, .started intentPin capabilities.generation⟩ = (reply, wal') →
    reply ≠ .answered (.ok ()) →
    Restarts ((Machine.fresh transactionId intentPin capabilities wal w₀).appended
      (.started intentPin capabilities.generation) reply wal') m → Sound m → I m
  step : ∀ {P : Permit V W ω} {m t : Machine V W ω}, Sound m → Step P m t → I m → I t
  stop : ∀ {m : Machine V W ω}, I m → C m
  crash : ∀ {P : Permit V W ω} {m : Machine V W ω} {event : WalEvent V} {wal : ω}, Sound m →
    Attempt P m event → putEntry m.kernel.wal (m.entry event) = (.crashed, wal) → I m →
    C (m.appended event .crashed wal)
  restart : ∀ {m m' : Machine V W ω}, Sound m → Restarts m m' → C m → I m'
  world : ∀ {m : Machine V W ω} {w : W}, env m.world w → I m → I { m with world := w }

section Rule

variable {env : W → W → Prop} {w₀ : W} {I C : Machine V W ω → Prop} {s : Stage V W ω}
  {m t : Machine V W ω} {P : Permit V W ω}

section Rule

variable (hI : RunInvariant env w₀ I C)
include hI

theorem RunInvariant.steps (hwal : AppendOnly ω) (h : (kernelSystem P).Steps m t) (hsound : Sound m)
    (hm : I m) : Sound t ∧ I t :=
  System.Steps.invariant (I := fun m => Sound m ∧ I m)
    (fun _ _ hs hstep => ⟨Step.sound hwal hstep hs.1, hI.step hs.1 hstep hs.2⟩) h ⟨hsound, hm⟩

theorem RunInvariant.crashes (hwal : AppendOnly ω) (hsound : Sound m) (hm : I m) (h : Crashes m t) :
    C t := by
  rcases h with rfl | ⟨call, hrun⟩
  · exact hI.stop hm
  · obtain ⟨u, hsteps, hdown⟩ := PublicCall.invoke_crashed hsound hrun
    obtain ⟨hsoundU, hu⟩ := hI.steps hwal hsteps hsound hm
    rcases hdown with ⟨call, w', _, hstep, rfl⟩ | ⟨event, wal, hattempt, hput, rfl⟩
    · exact hI.stop (hI.step hsoundU hstep hu)
    · exact hI.crash hsoundU hattempt hput hu

/-- The invariant rule: the property holds at every stage. -/
theorem RunInvariant.holds (hwal : AppendOnly ω) (h : Reachable env w₀ s) : I s.machine := by
  induction h with
  | begun hempty hbegin =>
    obtain ⟨wal', hput, rfl⟩ := begin_ok hbegin
    exact hI.begun hempty hput
  | reborn hempty hbegin hrestart =>
    have hsound := sound_reborn hwal hempty hbegin hrestart
    obtain ⟨reply, wal', hput, hreply, rfl⟩ := begin_error hbegin
    exact hI.reborn hempty hput hreply hrestart hsound
  | next hreach hnext ih =>
    have hsound := hreach.sound hwal
    cases hnext with
    | returned call hrun =>
      exact (hI.steps hwal (PublicCall.invoke_ok hsound hrun).2.1 hsound ih).2
    | failed call hrun =>
      rcases PublicCall.invoke_error hsound hrun with ⟨rfl, _⟩ | ⟨_, hsteps, _⟩
      · exact ih
      · exact (hI.steps hwal hsteps hsound ih).2
    | restarted hcrash hrestart =>
      exact hI.restart (hcrash.sound hwal hsound) hrestart (hI.crashes hwal hsound ih hcrash)
    | written henv => exact hI.world henv ih

/-- The rule for what a crash leaves of a stage, or of the call that is running there. -/
theorem RunInvariant.crashed (hwal : AppendOnly ω) (h : Reachable env w₀ s)
    (hcrash : Crashes s.machine m) : C m :=
  hI.crashes hwal (h.sound hwal) (hI.holds hwal h) hcrash

end Rule

end Rule

/-! ## All-or-nothing logs -/

/-- A failed append has stored nothing, and a crash during an append leaves the whole entry or
nothing. No log comes near the range of its sequence numbers. -/
structure AllOrNothing (ω : Type) {V : Type} [TransactionWal V ω] : Prop
    extends AppendOnly ω where
  appended : ∀ (wal wal' : ω) (entry : WalEntry V) entries,
    TransactionWal.load wal = .ok entries → putEntry wal entry = (.answered (.ok ()), wal') →
    TransactionWal.load wal' = .ok (entries ++ [entry])
  refused : ∀ (wal wal' : ω) (entry : WalEntry V) entries error,
    TransactionWal.load wal = .ok entries → putEntry wal entry = (.answered (.error error), wal') →
    TransactionWal.load wal' = .ok entries
  crashed : ∀ (wal wal' : ω) (entry : WalEntry V) entries,
    TransactionWal.load wal = .ok entries → putEntry wal entry = (.crashed, wal') →
    TransactionWal.load wal' = .ok entries ∨ TransactionWal.load wal' = .ok (entries ++ [entry])
  bounded : ∀ (wal : ω) (entries : List (WalEntry V)), TransactionWal.load wal = .ok entries →
    entries.length < 2 ^ 64

/-- The log holds the acknowledged entries. -/
def Exact (m : Machine V W ω) : Prop := TransactionWal.load m.kernel.wal = .ok m.log

section Exact

variable {env : W → W → Prop} {w₀ : W} {s : Stage V W ω} {m t : Machine V W ω} {P : Permit V W ω}

theorem Restarts.exact (h : Restarts m t) : Exact t := by
  obtain ⟨entries, k, hload, hrecover, rfl⟩ := h
  unfold Exact
  rw [Machine.recovered_log]
  change TransactionWal.load k.wal = .ok entries
  rw [(recover_setting hload hrecover).2.2.2]
  exact hload

theorem Step.exact (hwal : AllOrNothing ω) (h : Step P m t) (hm : Exact m) : Exact t := by
  cases h with
  | call call w' hanswers hguarded =>
    unfold Exact
    rw [Machine.called_log (hguarded.logged m.log)]
    exact hm
  | write st w wal hlive hlawful happlied hwarranted hput =>
    unfold Exact
    rw [Machine.written_log]
    have hstored := hwal.appended _ _ _ _ hm hput
    cases w <;> exact hstored
  | roll _ _ hput | commit _ _ _ _ _ _ _ hput =>
    unfold Exact
    rw [Machine.update_log, Machine.appended_log]
    exact hwal.appended _ _ _ _ hm hput
  | refuse event error wal hattempt hput =>
    unfold Exact
    rw [Machine.appended_log]
    exact hwal.refused _ _ _ _ error hm hput
  | tick => exact hm
  | focus candidate hfocus => exact hm
  | lose st changeId operationId hlive huncertain => exact hm

theorem RunInvariant.exact (hwal : AllOrNothing ω) :
    RunInvariant env w₀ (Exact : Machine V W ω → Prop) fun _ => True where
  begun hempty hput := hwal.appended _ _ _ _ hempty hput
  reborn _ _ _ hrestart _ := hrestart.exact
  step _ hstep hm := Step.exact hwal hstep hm
  stop _ := trivial
  crash _ _ _ _ := trivial
  restart _ hrestart _ := hrestart.exact
  world _ hm := hm

theorem Reachable.exact (hwal : AllOrNothing ω) (h : Reachable env w₀ s) : Exact s.machine :=
  (RunInvariant.exact hwal).holds hwal.toAppendOnly h

end Exact

end ScxAgent
