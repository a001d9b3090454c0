import ScxAgent.RestoreRules

/-!
# Apply and finalize

Rules for `apply_and_verify` and for the two loops that use it on one change after another:
the replay of a candidate and the collection of finalize acknowledgements.
-/

set_option linter.unusedSectionVars false

namespace ScxAgent

open Std StepLogic Follows

variable {V W ω : Type} [DecidableEq V] [Serialize V] [Sha256] [TransactionWal V ω]
  {P : Permit V W ω} {m m' t : Machine V W ω} {changeId : ChangeId} {change : ChangeRecord V}
  {st : Replay V} {α : Type} {Q : α → Machine V W ω → Prop}
  {E : TransactionError → Machine V W ω → Prop} {operationId : OperationId} (hlive : Live m st)
  (hget : m.kernel.changes[changeId]? = some change) {successState : ChangeState}
include hlive hget

theorem markApplyUnknown_follows {receipt : Option (MutationReceipt V)} {message : String}
    (hE : OnSetback P changeId m E) :
    Follows (kernelSystem P) (markApplyUnknown changeId operationId receipt message) m Q E :=
  updateChange_then_raise hlive hget rfl hE

theorem applyOutcome_follows {Q : Option (MutationReceipt V) → Machine V W ω → Prop}
    {driver : MutationDriver V W}
    (hdriver : m.kernel.capabilities.mutations[change.capabilityId]? = some driver)
    (hguarded : ∀ reply, Guarded m (.apply changeId ⟨operationId, change.prepared⟩ reply))
    (hQ : ∀ receipt t, Touches changeId m t → t.kernel = m.kernel → t.log = m.log → Live t st →
      (kernelSystem P).Steps m t → (∃ applied between reply,
        t.trace = m.trace ++ applied :: between ∧
          applied.call = .apply changeId ⟨operationId, change.prepared⟩ reply) → Q receipt t)
    (hE : OnSetback P changeId m E) :
    Follows (kernelSystem P) (applyOutcome changeId operationId change driver) m Q E := by
  refine seq (callDriver_follows rfl
    (fun reply w' hmethod => ⟨change.capabilityId, driver, hdriver, hmethod⟩) hguarded ?_)
  intro result w₁ hanswers hsteps₁
  cases result with
  | ok receipt =>
    set m₁ := m.called (.apply changeId ⟨operationId, change.prepared⟩
      (.answered (.ok receipt))) w₁ with hm₁
    have htouches : Touches changeId m m₁ := touches_effect (.inl rfl) hget rfl hanswers
    have hlive₁ : Live m₁ st := hlive.called rfl w₁
    have hE₁ : OnSetback P changeId m₁ E := hE.after htouches rfl hsteps₁
    cases hstate : receipt.state <;> simp only [hstate]
    case applied =>
      refine pure (hQ _ m₁ htouches rfl (Machine.called_log rfl) hlive₁ hsteps₁ ?_)
      exact ⟨_, [], _, rfl, rfl⟩
    case notApplied => exact updateChange_then_raise hlive₁ hget rfl hE₁
    all_goals exact markApplyUnknown_follows hlive₁ hget hE₁
  | error error =>
    set m₁ := m.called (.apply changeId ⟨operationId, change.prepared⟩
      (.answered (.error error))) w₁ with hm₁
    refine seq (callDriver_follows rfl
      (fun reply w'' hmethod => ⟨change.capabilityId, driver, hdriver, hmethod⟩)
      (fun _ => True.intro) ?_)
    intro status w₂ hstatus hsteps₂
    set m₂ := m₁.called (.status ⟨operationId⟩ (.answered status)) w₂ with hm₂
    have htouches : Touches changeId m m₂ :=
      (touches_effect (.inl rfl) hget rfl hanswers).trans (touches_status hstatus)
    have hlive₁ : Live m₁ st := hlive.called rfl w₁
    have hlive₂ : Live m₂ st := hlive₁.called rfl w₂
    have hE₂ : OnSetback P changeId m₂ E := hE.after htouches rfl (hsteps₁.trans hsteps₂)
    have hunknown : ∀ message, Follows (kernelSystem P)
        (markApplyUnknown changeId operationId none message) m₂ Q E :=
      fun message => markApplyUnknown_follows hlive₂ hget hE₂
    have happlied : Q none m₂ := by
      refine hQ none m₂ htouches rfl ?_ hlive₂ (hsteps₁.trans hsteps₂)
        ⟨⟨m.kernel.wal, m.world, .apply changeId ⟨operationId, change.prepared⟩
          (.answered (.error error))⟩, [⟨m₁.kernel.wal, m₁.world, .status ⟨operationId⟩
          (.answered status)⟩], _, ?_, rfl⟩
      · rw [hm₂, Machine.called_log rfl, hm₁, Machine.called_log rfl]
      · exact List.append_assoc m.trace [_] [_]
    rcases status with _ | ⟨queried, state, observed, data⟩
    · exact hunknown _
    · cases state with
      | applied => exact pure happlied
      | notApplied => exact updateChange_then_raise hlive₂ hget rfl hE₂
      | restored => exact hunknown _
      | finalized => exact hunknown _
      | unknown => exact hunknown _

/-- The log has just acknowledged the first record of the change. -/
def FirstAnnounced (trace : List (Event V W ω)) (changeId : ChangeId) (operationId : OperationId)
    (prepared : PreparedMutation V) : Prop :=
  ∃ change, Appended trace (.changeUpsert change) ∧ change.changeId = changeId ∧
    change.state = .intentDurable ∧ change.lastOperationId = operationId ∧
    change.prepared = prepared

/-- What a successful apply may lead to: the first one verifies the experiment, a later one
applies the change as part of a candidate. -/
def ApplyGoal (P : Permit V W ω) (m : Machine V W ω) (changeId : ChangeId) (change : ChangeRecord V)
    (operationId : OperationId) (state : ChangeState) : Prop :=
  state = .appliedVerified ∧ FirstAnnounced m.trace changeId operationId change.prepared ∨
    state = .candidateApplied ∧ change.experimentVerified = true ∧ P.promote

/-- A change that an apply has brought to a verified state. -/
structure Reached (changeId : ChangeId) (state : ChangeState) (m t : Machine V W ω) : Prop where
  touches : Touches changeId m t
  live : ∃ st, Live t st
  state : ∃ record, t.kernel.changes[changeId]? = some record ∧ record.state = state ∧
    record.experimentVerified = true

theorem applyAnnounced_follows
    (hguarded : ∀ reply, Guarded m (.apply changeId ⟨operationId, change.prepared⟩ reply))
    (hhead : m.kernel.resourceHeads[change.resource]? = some changeId)
    (huncertain : Uncertain st changeId)
    (hgoal : ApplyGoal P m changeId change operationId successState) :
    Follows (kernelSystem P) (applyAnnounced changeId operationId successState) m
      (fun _ t => Reached changeId successState m t ∧
        (pendingIn t.log)[changeId]? =
          (resolveIntent (pendingIn m.log) changeId operationId)[changeId]?)
      (fun _ t => Setback changeId m t) := by
  have hkey := hlive.table.keyed changeId change hget
  obtain ⟨driver, hdriver, hrecord⟩ := hlive.driver_ok hget
  refine bind_read (changeAt_run hget) (bind_read (kernel_run m) ?_)
  rw [hrecord]
  refine bind_read rfl (seq (applyOutcome_follows hlive hget hdriver hguarded ?_
    (fun _ _ hsetback _ => hsetback)))
  intro receipt u htouches hkernel hlog hliveU hsteps ⟨applied, between, reply, htrace, happlied⟩
  have hgetU : u.kernel.changes[changeId]? = some change := by rw [hkernel]; exact hget
  have hdriverU : u.kernel.capabilities.mutations[change.capabilityId]? = some driver := by
    rw [hkernel]
    exact hdriver
  have hsameU : u.kernel.changes[changeId]? = m.kernel.changes[changeId]? := by rw [hkernel]
  refine seq (callDriver_follows rfl
    (fun reply w' hmethod => ⟨change.capabilityId, driver, hdriverU, hmethod⟩)
    (fun _ => True.intro) ?_)
  intro result w' hanswers hstepsV
  rcases result with error | verification
  · refine markApplyUnknown_follows (hliveU.called rfl w') hgetU ?_
    intro e t hsetback _
    exact hsetback.after (htouches.trans (touches_verified hanswers)) hsameU
  set v := u.called (.verify changeId ⟨operationId, change.prepared, change.prepared.desired⟩
    (.answered (.ok verification))) w' with hv
  have htouchesV : Touches changeId m v := htouches.trans (touches_verified hanswers)
  have hliveV : Live v st := hliveU.called rfl w'
  have hgetV : v.kernel.changes[changeId]? = some change := hgetU
  cases hmatched : verification.matched with
  | false =>
    simp only [hmatched, Bool.false_eq_true, if_false]
    refine markApplyUnknown_follows hliveV hgetV ?_
    intro e t hsetback _
    exact hsetback.after htouchesV hsameU
  | true =>
    simp only [hmatched, if_true]
    have hstate : (successState ≠ .finalized ∧ successState ≠ .intentDurable) ∧
        successState ≠ .rolledBack := by
      rcases hgoal with ⟨rfl, _⟩ | ⟨rfl, _⟩ <;> decide
    have hflag : ((successState == .appliedVerified) || change.experimentVerified) = true := by
      rcases hgoal with ⟨rfl, _⟩ | ⟨_, hverified, _⟩
      · rfl
      · rw [hverified, Bool.or_true]
    refine updateAfterEffect_follows hliveV hgetV huncertain ⟨hstate.1, fun h => by simpa using h,
      fun _ => ⟨?_, hflag⟩, fun h => absurd h hstate.2, ?_, ?_⟩ ?_ ?_
    · change u.kernel.resourceHeads[change.resource]? = some changeId
      rw [hkernel]
      exact hhead
    · -- the apply and this readback are the evidence of a first verification
      intro _ hmark
      rcases hgoal with ⟨_, first, happended, hid, hinitial, rfl, hprepared⟩ | ⟨rfl, _⟩
      · refine ⟨m.trace, between, [], applied, ⟨u.kernel.wal, u.world, .verify changeId
          ⟨first.lastOperationId, change.prepared, change.prepared.desired⟩
          (.answered (.ok verification))⟩, ?_, first, reply, verification, happended, hid, hinitial,
          by rw [hprepared]; exact happlied, by rw [hprepared], hmatched⟩
        change u.trace ++ [_] = _
        rw [htrace, List.append_assoc, List.cons_append]
      · cases hmark
    · intro hcandidate
      rcases hgoal with ⟨rfl, _⟩ | ⟨_, _, hpromote⟩
      · cases hcandidate
      · exact .inr hpromote
    · intro wal written hliveW hstepsW
      refine ⟨⟨htouchesV.trans (touches_recorded hgetV hkey _ _ _ _ _ wal), ⟨_, hliveW⟩,
        ⟨change.snapshot successState operationId receipt none
          (successState == .appliedVerified), ?_, rfl, hflag⟩⟩, ?_⟩
      · change (u.kernel.changes.insert change.changeId _)[changeId]? = _
        rw [getElem?_insert_eq, if_pos hkey]
      · have hpending : pendingIn written.log = _ := pendingIn_recorded _ _ _
        rw [hpending, hv, Machine.called_log rfl, hlog]
        change (resolveIntent (pendingIn m.log) change.changeId operationId)[changeId]? = _
        rw [hkey]
    · intro e t hsetback _ _
      exact hsetback.after htouchesV hsameU

omit hlive in
theorem applyAndVerify_follows {intentAlreadyAppended : Bool} {Q : Unit → Machine V W ω → Prop}
    (hannounced : intentAlreadyAppended = true ∨ change.state = .intentDurable)
    (happly : Follows (kernelSystem P) (applyAnnounced changeId operationId successState) m Q E) :
    Follows (kernelSystem P)
      (applyAndVerify changeId operationId successState intentAlreadyAppended) m Q E := by
  have hskip : (!intentAlreadyAppended && change.state != .intentDurable) = false := by
    rcases hannounced with rfl | hstate
    · rfl
    · rw [hstate, Bool.and_comm]
      rfl
  refine bind_read (changeAt_run hget) ?_
  simp only [hskip, Bool.false_eq_true, if_false]
  exact happly

/-- The replay of one change of a candidate. -/
theorem replayChange_follows (hrestored : change.state = .baselineRestored)
    (hverified : change.experimentVerified = true)
    (hhead : m.kernel.resourceHeads[change.resource]? = some changeId)
    (hholds : Holds m change.resource change.prepared.baseline.value) (hpromote : P.promote) :
    Follows (kernelSystem P) (replayChange changeId) m
      (fun _ t => Reached changeId .candidateApplied m t ∧ (pendingIn t.log)[changeId]? = none)
      (fun _ t => Setback changeId m t) := by
  refine announce_follows hlive hget .apply (fun h => by cases h) ?_ fun _ _ hsetback _ => hsetback
  intro operationId wal intended htouchesI hliveI _
  have hgetI : intended.kernel.changes[changeId]? = some change := hget
  have happly : Follows (kernelSystem P)
      (applyAnnounced changeId operationId .candidateApplied) intended _ _ :=
    applyAnnounced_follows hliveI hgetI (fun _ => ⟨change, hgetI, rfl, hhead, .inr ⟨hrestored,
      hverified, appended_written _ (.intend changeId operationId .apply) wal⟩, hholds⟩) hhead
      (uncertain_intended nofun) (.inr ⟨rfl, hverified, hpromote⟩)
  refine (applyAndVerify_follows hgetI (.inl rfl) happly).conseq ?_ ?_
  · intro _ t _ ⟨hreached, hpending⟩
    refine ⟨⟨htouchesI.trans hreached.touches, hreached.live, hreached.state⟩, ?_⟩
    have hpendingI : pendingIn intended.log = _ := pendingIn_intended _ _ _ _ _
    rw [hpending, hpendingI]
    simp [resolveIntent]
  · exact fun e t _ hsetback => hsetback.after htouchesI rfl

/-- The driver of a change has acknowledged a finalize call. -/
def Acknowledged (changeId : ChangeId) (events : List (Event V W ω)) : Prop :=
  ∃ event ∈ events, ∃ request receipt,
    event.call = .finalize changeId request (.answered (.ok receipt)) ∧ receipt.state = .finalized

theorem acknowledgeFinalize_follows (happlied : change.state = .candidateApplied)
    (hhead : m.kernel.resourceHeads[change.resource]? = some changeId)
    (hholds : Holds m change.resource change.prepared.desired.value) :
    Follows (kernelSystem P) (acknowledgeFinalize changeId) m
      (fun _ t => Reached changeId .candidateApplied m t ∧ (pendingIn t.log)[changeId]? = none ∧
        Acknowledged changeId (newEvents m t))
      (fun _ t => Setback changeId m t) := by
  have hkey := hlive.table.keyed changeId change hget
  have hverified : change.experimentVerified = true :=
    (hlive.wellFormed hget).evidence (by rw [happlied]; rfl)
  refine announce_follows hlive hget .finalize (fun _ => happlied) ?_ fun _ _ hsetback _ => hsetback
  intro operationId wal intended htouchesI hliveI hstepsI
  have hgetI : intended.kernel.changes[changeId]? = some change := hget
  obtain ⟨driver, hdriver, hrecord⟩ := hliveI.driver_ok hgetI
  refine bind_read (changeAt_run hgetI) (bind_read (kernel_run intended) ?_)
  rw [hrecord]
  refine bind_read rfl (seq (callDriver_follows rfl
    (fun reply w' hmethod => ⟨change.capabilityId, driver, hdriver, hmethod⟩)
    (fun _ => ⟨change, hgetI, rfl, appended_written _ (.intend changeId operationId .finalize) wal,
      hholds⟩)
    ?_))
  intro result w' hanswers hstepsF
  have htouchesF := htouchesI.trans (touches_effect (.inr (.inr rfl)) hgetI rfl hanswers)
  set v := intended.called (.finalize changeId ⟨operationId, change.prepared⟩ (.answered result)) w'
    with hv
  have hliveF : Live v (st.next.intend changeId operationId .finalize) := hliveI.called rfl w'
  have hgetF : v.kernel.changes[changeId]? = some change := hgetI
  have hrecordable : Recordable P v changeId change .candidateApplied false :=
    ⟨by decide, nofun, fun _ => ⟨hhead, hverified⟩, nofun, fun _ => nofun, fun _ => .inl happlied⟩
  have hrefused (event : WalEvent V) : OnRefusal P v event fun _ t => Setback changeId m t :=
    fun _ error wal' _ => .of_same (htouchesF.trans (touches_refused changeId v event error wal'))
      (hliveF.refused event error wal') rfl
  have hfailure : ∀ receipt message error, Follows (kernelSystem P) (do
      updateChange changeId .candidateApplied operationId receipt message
      raise error : KernelM V W ω Unit) v (fun _ _ => False)
      (fun _ t => Setback changeId m t) := by
    intro receipt message error
    refine seq (persistChange_follows hliveF hgetF hrecordable ?_ (hrefused _))
    intro wal' written hliveW _
    refine raise (Setback.after htouchesF rfl ?_)
    exact setback_recorded hliveF hgetF (fun _ => happlied) ⟨_, hliveW⟩
  rcases result with error | receipt
  · exact (hfailure _ _ _).conseq (fun _ _ _ h => h.elim) (fun _ _ _ h => h)
  by_cases hfinalized : receipt.state = .finalized
  swap
  · simp only [hfinalized, if_false]
    exact (hfailure _ _ _).conseq (fun _ _ _ h => h.elim) (fun _ _ _ h => h)
  simp only [hfinalized, if_true]
  refine seq (persistChange_follows hliveF hgetF hrecordable ?_ (hrefused _))
  intro wal' written hliveW hstepsW
  have htouchesW : Touches changeId m written :=
    htouchesF.trans (touches_recorded hgetF hkey _ _ _ _ _ wal')
  have hgetW : written.kernel.changes[changeId]? =
      some (change.snapshot .candidateApplied operationId (some receipt) none false) := by
    change (intended.kernel.changes.insert change.changeId _)[changeId]? = _
    rw [getElem?_insert_eq, if_pos hkey]
  refine ensureExpected_follows hliveW hgetW ?_ ?_
  · intro verifyId verification w'' call hanswersV hstepsV hliveV _
    have htouchesV := touches_verified hanswersV
    refine ⟨⟨htouchesW.trans htouchesV, ⟨_, hliveV⟩, ⟨_, hgetW, rfl, hverified⟩⟩, ?_, ?_⟩
    · have hpendingW : pendingIn written.log = _ := pendingIn_recorded _ _ _
      have hpendingI : pendingIn intended.log = _ := pendingIn_intended _ _ _ _ _
      rw [Machine.called_log rfl, hpendingW, hv, Machine.called_log rfl, hpendingI]
      change (resolveIntent ((pendingIn m.log).insert changeId (operationId, .finalize))
        change.changeId operationId)[changeId]? = none
      rw [hkey]
      simp [resolveIntent]
    · have hsplit := newEvents_trans htouchesI.extend (extends_called intended
        (.finalize changeId ⟨operationId, change.prepared⟩ (.answered (.ok receipt))) w')
      have hlater := newEvents_trans htouchesF.extend
        ((Steps.extends hstepsW).trans (Steps.extends hstepsV))
      refine ⟨⟨intended.kernel.wal, intended.world, .finalize changeId ⟨operationId,
        change.prepared⟩ (.answered (.ok receipt))⟩, ?_, _, receipt, rfl, hfinalized⟩
      rw [hlater, hsplit, newEvents_called]
      simp
  · intro e t hsetback _ _
    refine ⟨htouchesW.trans hsetback.touches, hsetback.live, fun _ _ _ => ⟨change, hget, happlied⟩⟩

end ScxAgent
