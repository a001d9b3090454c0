import ScxAgent.TestFixture

/-!
# What the calls of a kernel leave behind

A call that returns has done to the resources what its name says, whatever the run did before it:
crashes and recoveries, refused appends, failed effects and writes of other parties.
-/

namespace ScxAgent

open Std StepLogic List Relation

namespace TestFixture

/-- A script of calls that runs without faults to a stage of a kind. -/
theorem exists_runTest (calls : List TestCall) (p : TestStage → Bool)
    (h : (runTest transactionId [] [] calls).any p = true) :
    ∃ s, Reachable (fun _ _ => False) (world []) s ∧
      Honest FakeWorld.current s.machine.kernel.capabilities ∧ p s = true := by
  obtain ⟨s, hrun, hp⟩ := (Option.any_eq_true _ _).mp h
  obtain ⟨hreach, -, -, hcapabilities⟩ := reachable_runTest hrun
  exact ⟨s, hreach, hcapabilities ▸ testSnapshot_honest, hp⟩

/-- A script that is followed by a call that returns. -/
theorem exists_call (calls : List TestCall) (call : TestCall) (p : TestStage → Bool)
    (h : (runTest transactionId [] [] calls).any
      (fun s => (call.invoke s.machine).1.toBool && p s) = true) :
    ∃ s result, Reachable (fun _ _ => False) (world []) s ∧
      Honest FakeWorld.current s.machine.kernel.capabilities ∧
      call.invoke s.machine = (.ok result, (call.invoke s.machine).2) ∧ p s = true := by
  obtain ⟨s, hreach, hhonest, hp⟩ := exists_runTest calls _ h
  obtain ⟨hok, hp⟩ := (Bool.and_eq_true _ _).mp hp
  rcases hrun : call.invoke s.machine with ⟨_ | result, t⟩ <;> rw [hrun] at hok
  · cases hok
  · exact ⟨s, result, hreach, hhonest, by rw [hrun], hp⟩

end TestFixture

variable {V W ω : Type} {env : W → W → Prop} {w₀ : W} {result : List (ChangeRecord V)}

/-! ## Rollback -/

section Rollback

variable [DecidableEq V] [Serialize V] [Sha256] [TransactionWal V ω] [Inhabited V]
  {s : Stage V W ω} {t : Machine V W ω}

theorem rollback_restores_baselines (hwal : AppendOnly ω) (hreach : Reachable env w₀ s)
    (hrun : PublicCall.rollbackAll.invoke s.machine = (.ok result, t)) :
    (∃ front entry, t.log = front ++ [entry] ∧ entry.event = .sealed .rolledBack) ∧
      (∀ (changeId : ChangeId) change, t.kernel.changes[changeId]? = some change →
        change.state = .rolledBack) ∧
      ∀ view, Truthful view s.machine.kernel.capabilities →
        (∀ (changeId : ChangeId) change, s.machine.kernel.changes[changeId]? = some change →
          view t.world change.resource = change.prepared.baseline.value) ∧
        ∀ resource, (∀ (changeId : ChangeId) change,
            s.machine.kernel.changes[changeId]? = some change → change.resource ≠ resource) →
          view t.world resource = view s.machine.world resource := by
  obtain ⟨⟨st, hlive⟩, -, u, hloop, wal, rfl⟩ := PublicCall.invoke_ok (hreach.sound hwal) hrun
  refine ⟨⟨u.log, _, Machine.appended_log _ _ _ wal, rfl⟩, ?_, fun view htruthful => ⟨?_, ?_⟩⟩
  · intro changeId change hget
    obtain ⟨st', hlive'⟩ := hloop.live
    obtain ⟨old, hold⟩ := hlive.table.exists_record (hloop.order ▸ hlive'.table.mem_order hget)
    obtain ⟨⟨record, hrecord, hstate⟩, -⟩ := hloop.restored changeId old hold not_mem_nil
    cases hrecord.symm.trans hget
    exact hstate
  · intro changeId change hget
    refine (hloop.restored changeId change hget not_mem_nil).2.1 view ?_
    rw [hloop.extend.capabilities]
    exact htruthful
  · intro resource hother
    exact hloop.elsewhere view htruthful resource fun changeId old hget _ => hother changeId old hget

end Rollback

open TestFixture in
/-- An experiment on a resource that held `old` is rolled back. -/
theorem rollback_restores_baselines_old :
    ∃ s : TestStage, s.machine.world.current resourceA = .text "new" ∧
      (PublicCall.rollbackAll.invoke s.machine).2.world.current resourceA = .text "old" := by
  obtain ⟨s, result, hreach, hhonest, hrun, hp⟩ := exists_call [tryA] .rollbackAll
    (fun s => s.machine.world.current resourceA = .text "new" &&
      (s.machine.kernel.changes[changeA]?).any fun change => change.resource = resourceA &&
        change.prepared.baseline.value = .text "old") (by decide +kernel)
  obtain ⟨hnew, hany⟩ := (Bool.and_eq_true _ _).mp hp
  obtain ⟨change, hget, hchange⟩ := (Option.any_eq_true _ _).mp hany
  obtain ⟨hresource, hvalue⟩ := (Bool.and_eq_true _ _).mp hchange
  refine ⟨s, of_decide_eq_true hnew, ?_⟩
  rw [← of_decide_eq_true hresource, ← of_decide_eq_true hvalue]
  exact ((rollback_restores_baselines MemoryWal.allOrNothing.toAppendOnly hreach hrun).2.2 _
    hhonest.toTruthful).1 changeA change hget

end ScxAgent
