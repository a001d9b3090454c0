import ScxAgent.ChangeEffects

/-!
# Readback, drift and restore

Rules for `ensure_expected`, `mark_drift` and `restore_one`. A restore that succeeds leaves the
resource at the baseline of the change. One that fails under honest drivers was troubled from
outside, or found a value that is neither the baseline nor the desired one.
-/

set_option linter.unusedSectionVars false

namespace ScxAgent

open Std StepLogic Follows

variable {V W ω : Type} [DecidableEq V] [Serialize V] [Sha256] [TransactionWal V ω]
  {P : Permit V W ω} {m m' t : Machine V W ω} {changeId : ChangeId} {change : ChangeRecord V}
  {st : Replay V} {α : Type} {Q : α → Machine V W ω → Prop}
  {E : TransactionError → Machine V W ω → Prop} {operationId : OperationId}
  {receipt : Option (MutationReceipt V)} {message : Option String} {expected : ExpectedState}
  {wal : ω} {state : ChangeState}

/-- How an operation on one change may fail: the kernel stays live, and the change has not
become applied as a candidate. -/
structure Setback (changeId : ChangeId) (m t : Machine V W ω) : Prop where
  touches : Touches changeId m t
  live : ∃ st, Live t st
  unpromoted : ∀ new, t.kernel.changes[changeId]? = some new → new.state = .candidateApplied →
    ∃ old, m.kernel.changes[changeId]? = some old ∧ old.state = .candidateApplied

theorem Setback.after (htouches : Touches changeId m m')
    (hsame : m'.kernel.changes[changeId]? = m.kernel.changes[changeId]?)
    (h : Setback changeId m' t) : Setback changeId m t := by
  refine ⟨htouches.trans h.touches, h.live, ?_⟩
  rw [← hsame]
  exact h.unpromoted

/-- What holds once an operation on the change has failed. -/
def OnSetback (P : Permit V W ω) (changeId : ChangeId) (m : Machine V W ω)
    (E : TransactionError → Machine V W ω → Prop) : Prop :=
  ∀ e t, Setback changeId m t → (kernelSystem P).Steps m t → E e t

theorem OnSetback.after (h : OnSetback P changeId m E) (htouches : Touches changeId m m')
    (hsame : m'.kernel.changes[changeId]? = m.kernel.changes[changeId]?)
    (hsteps : (kernelSystem P).Steps m m') : OnSetback P changeId m' E :=
  fun e t hsetback hlater => h e t (hsetback.after htouches hsame) (hsteps.trans hlater)

theorem Setback.of_same (htouches : Touches changeId m t) (hlive : Live t st)
    (hsame : t.kernel.changes[changeId]? = m.kernel.changes[changeId]?) :
    Setback changeId m t :=
  ⟨htouches, ⟨st, hlive⟩, fun new hget hstate => ⟨new, hsame ▸ hget, hstate⟩⟩

theorem uncertain_intended {operation : OperationIntentKind} (h : operation ≠ .finalize) :
    Uncertain (st.next.intend changeId operationId operation) changeId := by
  refine .inr ⟨operationId, operation, ?_, h⟩
  change (st.pendingIntents.insert changeId (operationId, operation))[changeId]? = _
  rw [getElem?_insert_eq, if_pos rfl]

theorem holds_of_matched {verification : MutationVerification V} {w' : W}
    (hresource : change.resource = change.prepared.resource)
    (hanswers : Answers m.kernel.capabilities m.world (.verify changeId ⟨operationId,
      change.prepared, expected.select change.prepared⟩ (.answered (.ok verification))) w')
    (hmatched : verification.matched = true) :
    Holds (m.called (.verify changeId ⟨operationId, change.prepared,
      expected.select change.prepared⟩ (.answered (.ok verification))) w')
      change.resource (expected.select change.prepared).value := by
  intro view htruthful
  have htruth := htruthful.verify_matched hanswers
  rw [hmatched] at htruth
  have hvalue := of_decide_eq_true htruth.symm
  rw [hresource]
  exact (congrFun (htruthful.verify_view hanswers) _).trans hvalue

/-- A change whose resource is back at its baseline. -/
structure Returned (changeId : ChangeId) (change : ChangeRecord V) (state : ChangeState)
    (m t : Machine V W ω) : Prop where
  touches : Touches changeId m t
  live : ∃ st, Live t st
  state : ∃ record, t.kernel.changes[changeId]? = some record ∧ record.state = state
  holds : Holds t change.resource change.prepared.baseline.value

/-- The states that a restore leads to. -/
def ChangeState.restoring (state : ChangeState) : Prop :=
  state = .baselineRestored ∨ state = .rolledBack

theorem ChangeState.restoring.not_verified (h : state.restoring) :
    state.verified = false ∧ (state ≠ .finalized ∧ state ≠ .intentDurable) ∧
      state ≠ .candidateApplied := by
  rcases h with rfl | rfl <;> decide

theorem Returned.after (htouches : Touches changeId m m') (h : Returned changeId change state m' t) :
    Returned changeId change state m t :=
  ⟨htouches.trans h.touches, h.live, h.state, h.holds⟩

theorem firstReadback_verified (m : Machine V W ω) (changeId : ChangeId)
    (request : MutationVerifyRequest V) (verification : MutationVerification V) (w' : W) :
    firstReadback changeId (newEvents m
      (m.called (.verify changeId request (.answered (.ok verification))) w')) =
      some verification.matched := by
  rw [newEvents_called]
  simp [firstReadback, Event.readback]

theorem firstReadback_later {matched : Bool} (hextends : Extends m m') (hextends' : Extends m' t)
    (h : firstReadback changeId (newEvents m m') = some matched) :
    firstReadback changeId (newEvents m t) = some matched := by
  rw [newEvents_trans hextends hextends', firstReadback_append, h]
  rfl

/-- An observed baseline leaves the intents of the change pending. -/
theorem Live.resolve_observed (hlive : Live m st) {n : ℕ} (hvalue : operationId.value =
      operationText m.kernel.transactionId "baseline-observed" n) :
    (resolveIntent (pendingIn m.log) changeId operationId)[changeId]? =
      (pendingIn m.log)[changeId]? := by
  unfold resolveIntent
  split
  · rename_i intended operation hpending
    rw [if_neg]
    rintro rfl
    rw [← hlive.ledger.pendingIntents_eq] at hpending
    obtain ⟨_, n', hintent⟩ := hlive.inv.pendingKnown _ _ _ hpending
    exact operationText_ne_intent (.inl rfl) operation n n' (hvalue.symm.trans hintent)
  · rfl

section Change

variable (hlive : Live m st) (hget : m.kernel.changes[changeId]? = some change)
include hlive hget

theorem setback_recorded (hstate : state = .candidateApplied → change.state = .candidateApplied)
    (hlive' : ∃ st, Live
      (m.written (.record (change.snapshot state operationId receipt message false)) wal) st) :
    Setback changeId m
      (m.written (.record (change.snapshot state operationId receipt message false)) wal) := by
  have hkey := hlive.table.keyed changeId change hget
  refine ⟨touches_recorded hget hkey state operationId receipt message false wal, hlive', ?_⟩
  intro new hnew hpromoted
  change (m.kernel.changes.insert change.changeId _)[changeId]? = _ at hnew
  rw [getElem?_insert_eq, if_pos hkey] at hnew
  cases hnew
  exact ⟨change, hget, hstate hpromoted⟩

/-- How every operation on a change begins: it is announced in the log. -/
theorem announce_follows (operation : OperationIntentKind) {body : OperationId → KernelM V W ω α}
    (happlied : operation = .finalize → change.state = .candidateApplied)
    (hbody : ∀ operationId wal,
      let t := (m.update TransactionKernel.tick).written (.intend changeId operationId operation) wal
      Touches changeId m t → Live t (st.next.intend changeId operationId operation) →
      (kernelSystem P).Steps m t → Follows (kernelSystem P) (body operationId) t Q E)
    (hE : ∀ e t, Setback changeId m t → Troubled m t → E e t) :
    Follows (kernelSystem P) (do
      let operationId ← nextOperationId (intentLabel operation)
      appendOperationIntent changeId operationId operation
      body operationId) m Q E := by
  have htouches := touches_ticked changeId m
  have hticked : (kernelSystem P).Steps m (m.update TransactionKernel.tick) := .single .tick
  refine seq (nextOperationId_follows (by cases operation <;> decide) ?_ ?_)
  · intro operationId hvalue
    refine seq (appendOperationIntent_follows hlive.ticked hget happlied ⟨_, hvalue⟩ ?_ ?_)
    · intro wal intended hliveI hstepsI
      exact hbody operationId wal (htouches.trans (touches_intended changeId _ operationId _ wal))
        hliveI (hticked.trans hstepsI)
    · intro e error wal refused hsteps
      exact hE e _ (.of_same (htouches.trans (touches_refused changeId _ _ error wal))
        (hlive.ticked.refused _ error wal) rfl) ((troubled_refused _ error wal).before hticked hsteps)
  · intro e hroom
    exact hE e _ (.of_same htouches hlive.ticked rfl) (.inr hroom)

/-- The readback of a change, whose outcome a truthful driver bases on the resource. -/
theorem matchesExpected_follows {Q : Bool → Machine V W ω → Prop}
    (hQ : ∀ (operationId : OperationId) (verification : MutationVerification V) (w' : W),
      let call : Call V := .verify changeId ⟨operationId, change.prepared,
        expected.select change.prepared⟩ (.answered (.ok verification))
      Answers m.kernel.capabilities m.world call w' →
      (kernelSystem P).Steps m (m.called call w') → Live (m.called call w') st →
      Q verification.matched (m.called call w'))
    (hE : OnSetback P changeId m fun e t => Troubled m t → E e t) :
    Follows (kernelSystem P) (matchesExpected changeId expected) m Q E := by
  obtain ⟨driver, hdriver, hrecord⟩ := hlive.driver_ok hget
  refine bind_read (changeAt_run hget) (bind_read (kernel_run m) ?_)
  rw [hrecord]
  refine bind_read rfl ?_
  cases hnew : (TextId.new (operationText m.kernel.transactionId "verify"
      m.kernel.operationCounter) : Except String OperationId) with
  | error error =>
    refine raise (hE _ m (.of_same (.refl changeId m) hlive rfl) (.refl m)
      (.inr fun hroom => ?_))
    obtain ⟨operationId, hok⟩ := @operationText_ok "verify" _ m.kernel.transactionId hroom.1
      (isLabel_of_mem (by decide)) hroom.2
    rw [hnew] at hok
    cases hok
  | ok operationId =>
    refine seq (callDriver_follows rfl ?_ (fun _ => True.intro) ?_)
    · intro reply w' hmethod
      exact ⟨change.capabilityId, driver, hdriver, hmethod⟩
    · intro result w' hanswers hsteps
      have hlive' : Live (m.called (.verify changeId ⟨operationId, change.prepared,
          expected.select change.prepared⟩ (.answered result)) w') st := hlive.called rfl w'
      cases result with
      | ok verification =>
        exact pure (hQ operationId verification w' hanswers hsteps hlive')
      | error error =>
        refine raise (hE _ _ (.of_same (touches_verified hanswers) hlive' rfl) hsteps
          (troubled_called ?_ w'))
        rintro ⟨verification, hok⟩
        cases hok

/-- The states in which the kernel records that an operation did not go as planned. -/
def ChangeState.setback : ChangeState → Bool
  | .appliedUnknown | .failedNotApplied | .driftDetected => true
  | _ => false

/-- Recording a setback; the append may be refused. -/
theorem updateChange_setback {Q : Unit → Machine V W ω → Prop} (hstate : state.setback = true)
    (hQ : ∀ t, Setback changeId m t → (kernelSystem P).Steps m t → Q () t)
    (hE : OnSetback P changeId m E) :
    Follows (kernelSystem P) (updateChange changeId state operationId receipt message) m Q E := by
  have hne : (state.verified = false ∧ (state ≠ .finalized ∧ state ≠ .intentDurable) ∧
      state ≠ .candidateApplied) ∧ state ≠ .rolledBack := by
    cases state <;> simp_all [ChangeState.setback, ChangeState.verified]
  refine persistChange_follows hlive hget (.unverified hne.1 fun h => absurd h hne.2) ?_ ?_
  · intro wal _ hlive' hsteps
    exact hQ _ (setback_recorded hlive hget (fun h => absurd h hne.1.2.2) ⟨_, hlive'⟩) hsteps
  · intro e error wal _ hsteps
    exact hE e _ (.of_same (touches_refused changeId m _ error wal) (hlive.refused _ error wal) rfl)
      hsteps

theorem updateChange_then_raise {error : TransactionError} (hstate : state.setback = true)
    (hE : OnSetback P changeId m E) :
    Follows (kernelSystem P) (do
      updateChange changeId state operationId receipt message
      raise error) m Q E := by
  refine seq (updateChange_setback hlive hget hstate ?_ hE)
  intro t hsetback hsteps
  exact raise (hE error t hsetback hsteps)

theorem markDrift_follows {message : String} (hE : OnSetback P changeId m E) :
    Follows (kernelSystem P) (markDrift changeId message) m Q E := by
  have hstep : (kernelSystem P).Steps m (m.update TransactionKernel.tick) := .single .tick
  refine seq (nextOperationId_follows (by decide) ?_ ?_)
  · intro operationId _
    exact updateChange_then_raise hlive.ticked hget rfl
      (hE.after (touches_ticked changeId m) rfl hstep)
  · intro e _
    exact hE e _ (.of_same (touches_ticked changeId m) hlive.ticked rfl) hstep

theorem ensureExpected_follows {Q : Unit → Machine V W ω → Prop}
    (hQ : ∀ (operationId : OperationId) (verification : MutationVerification V) (w' : W),
      let call : Call V := .verify changeId ⟨operationId, change.prepared,
        expected.select change.prepared⟩ (.answered (.ok verification))
      Answers m.kernel.capabilities m.world call w' →
      (kernelSystem P).Steps m (m.called call w') → Live (m.called call w') st →
      verification.matched = true → Q () (m.called call w'))
    (hE : OnSetback P changeId m fun e t =>
      (Troubled m t ∨ ∀ view, Truthful view m.kernel.capabilities →
        view m.world change.prepared.resource ≠ (expected.select change.prepared).value) → E e t) :
    Follows (kernelSystem P) (ensureExpected changeId expected) m Q E := by
  refine seq (matchesExpected_follows hlive hget ?_ ?_)
  · intro operationId verification w' call hanswers hsteps hlive'
    cases hmatched : verification.matched with
    | true => exact pure (hQ operationId verification w' hanswers hsteps hlive' hmatched)
    | false =>
      refine markDrift_follows hlive' hget ?_
      intro e t hsetback hsteps'
      refine hE e t (hsetback.after (touches_verified hanswers) rfl) (hsteps.trans hsteps') ?_
      refine .inr fun view htruthful hvalue => ?_
      have htruth := htruthful.verify_matched hanswers
      rw [hmatched, hvalue] at htruth
      simp at htruth
  · intro e t hsetback hsteps htrouble
    exact hE e t hsetback hsteps (.inl htrouble)

theorem setUnknown_setback {Q : Unit → Machine V W ω → Prop} {message : String}
    (hQ : ∀ t, Setback changeId m t → (kernelSystem P).Steps m t → Q () t)
    (hE : OnSetback P changeId m E) :
    Follows (kernelSystem P) (setUnknown changeId operationId receipt message) m Q E :=
  updateChange_setback hlive hget rfl hQ hE

theorem unknownAfterProviderError_follows {error : ProviderError} (hE : OnSetback P changeId m E) :
    Follows (kernelSystem P) (unknownAfterProviderError changeId operationId error) m Q E := by
  refine seq (attempt (setUnknown_setback hlive hget ?_ ?_))
  · intro t hsetback hsteps
    exact raise (hE _ t hsetback hsteps)
  · intro e t hsetback hsteps
    exact raise (hE e t hsetback hsteps)

/-- Recording the result of an effect. If the append is refused, memory remembers that the
log leaves the change open. -/
theorem updateAfterEffect_follows {Q : Unit → Machine V W ω → Prop} {mark : Bool}
    (huncertain : Uncertain st changeId) (hrecord : Recordable P m changeId change state mark)
    (hQ : ∀ wal,
      let m' := m.written (.record (change.snapshot state operationId receipt message mark)) wal
      Live m' (st.next.recordChange (change.snapshot state operationId receipt message mark)) →
      (kernelSystem P).Steps m m' → Q () m')
    (hE : OnSetback P changeId m fun e t => Troubled m t → E e t) :
    Follows (kernelSystem P) (updateAfterEffect changeId state operationId receipt message mark)
      m Q E := by
  refine seq (attempt (persistChange_follows hlive hget hrecord ?_ ?_))
  · intro wal _ hlive' hsteps
    exact pure (hQ wal hlive' hsteps)
  · intro e error wal refused hsteps
    have hlive' : Live refused st := hlive.refused _ error wal
    have hlost := hlive'.lost huncertain operationId
    have hstep : (kernelSystem P).step refused
        (refused.update fun k => k.lose changeId operationId) :=
      Step.lose st changeId operationId hlive' huncertain
    refine seq (assign hstep (raise (hE e _ ⟨?_, ⟨st, hlost⟩, ?_⟩
      (hsteps.trans (.single hstep)) ?_)))
    · exact (touches_refused changeId m _ error wal).trans (touches_lost changeId refused operationId)
    · intro new hnew hpromoted
      have hmemory : refused.kernel.changes[changeId]? = some change := hget
      simp only [hmemory] at hnew
      rw [getElem?_insert_eq, if_pos rfl] at hnew
      cases hnew
      cases hpromoted
    · exact (troubled_refused _ error wal).after hsteps (.single hstep)

variable [Inhabited V] {restoredState : ChangeState}

theorem restoreReceipt_follows {Q : MutationReceipt V → Machine V W ω → Prop}
    {driver : MutationDriver V W}
    (hdriver : m.kernel.capabilities.mutations[change.capabilityId]? = some driver)
    (hannounced : Appended m.trace (.operationIntent changeId operationId .restore))
    (hholds : Holds m change.resource change.prepared.desired.value)
    (hQ : ∀ receipt t, Touches changeId m t → t.kernel = m.kernel → t.log = m.log → Live t st →
      (kernelSystem P).Steps m t → (∀ view, Honest view m.kernel.capabilities → Troubled m t ∨
        view t.world change.prepared.resource = change.prepared.baseline.value) → Q receipt t)
    (hE : OnSetback P changeId m fun e t => Troubled m t → E e t) :
    Follows (kernelSystem P) (restoreReceipt changeId operationId change driver) m Q E := by
  refine seq (callDriver_follows rfl
    (fun reply w' hmethod => ⟨change.capabilityId, driver, hdriver, hmethod⟩)
    (fun _ => ⟨change, hget, rfl, hannounced, hholds⟩) ?_)
  intro result w' hanswers hsteps
  set m₁ := m.called (.restore changeId ⟨operationId, change.prepared⟩ (.answered result)) w'
  have htouches : Touches changeId m m₁ := touches_effect (.inr (.inl rfl)) hget rfl hanswers
  have hlive' : Live m₁ st := hlive.called rfl w'
  cases result with
  | ok receipt =>
    by_cases hrestored : receipt.state = .restored
    · simp only [hrestored, if_true]
      refine pure (hQ receipt m₁ htouches rfl (Machine.called_log rfl) hlive' hsteps ?_)
      intro view hhonest
      exact .inr (hhonest.restored_view hanswers hrestored)
    · simp only [hrestored, if_false]
      have htrouble : Troubled m m₁ := by
        refine troubled_called ?_ w'
        rintro ⟨receipt', heq, hstate⟩
        cases heq
        exact hrestored hstate
      refine updateChange_then_raise hlive' hget rfl ?_
      intro e t hsetback hsteps'
      exact hE.after htouches rfl hsteps e t hsetback hsteps' (htrouble.after hsteps hsteps')
  | error error =>
    have htrouble : Troubled m m₁ := by
      refine troubled_called ?_ w'
      rintro ⟨receipt', heq, _⟩
      cases heq
    refine seq (callDriver_follows rfl
      (fun reply w'' hmethod => ⟨change.capabilityId, driver, hdriver, hmethod⟩)
      (fun _ => True.intro) ?_)
    intro status w'' hstatus hsteps'
    set m₂ := m₁.called (.status ⟨operationId⟩ (.answered status)) w''
    have htouches' : Touches changeId m m₂ := htouches.trans (touches_status hstatus)
    have hlive'' : Live m₂ st := hlive'.called rfl w''
    have hunknown : Follows (kernelSystem P)
        (unknownAfterProviderError changeId operationId error) m₂ Q E := by
      refine unknownAfterProviderError_follows hlive'' hget ?_
      intro e t hsetback hsteps''
      exact hE.after htouches' rfl (hsteps.trans hsteps') e t hsetback hsteps''
        (htrouble.after hsteps (hsteps'.trans hsteps''))
    rcases status with _ | ⟨queried, state, observed, data⟩
    · exact hunknown
    · cases state with
      | restored =>
        refine pure (hQ _ m₂ htouches' rfl ?_ hlive'' (hsteps.trans hsteps') ?_)
        · exact (Machine.called_log rfl).trans (Machine.called_log rfl)
        · exact fun _ _ => .inl (htrouble.after hsteps hsteps')
      | notApplied => exact hunknown
      | applied => exact hunknown
      | finalized => exact hunknown
      | unknown => exact hunknown

theorem returned_recorded (hholds : Holds m change.resource change.prepared.baseline.value)
    (hlive' : ∃ st, Live
      (m.written (.record (change.snapshot state operationId receipt none false)) wal) st) :
    Returned changeId change state m
      (m.written (.record (change.snapshot state operationId receipt none false)) wal) := by
  have hkey := hlive.table.keyed changeId change hget
  refine ⟨touches_recorded hget hkey _ _ _ _ _ wal, hlive',
    ⟨change.snapshot state operationId receipt none false, ?_, rfl⟩, hholds⟩
  change (m.kernel.changes.insert change.changeId _)[changeId]? = _
  rw [getElem?_insert_eq, if_pos hkey]

/-- The restore of a change whose resource holds the desired value. -/
theorem restoreDesired_follows (hrestoring : restoredState.restoring)
    (hholds : Holds m change.resource change.prepared.desired.value) :
    Follows (kernelSystem P) (restoreDesired changeId restoredState) m
      (fun _ t => Returned changeId change restoredState m t ∧
        (pendingIn t.log)[changeId]? = none)
      (fun _ t => Setback changeId m t ∧
        ∀ view, Honest view m.kernel.capabilities → Troubled m t) := by
  have hform := hlive.wellFormed hget
  have hkey := hlive.table.keyed changeId change hget
  refine announce_follows hlive hget .restore (fun h => by cases h) ?_
    fun e t hsetback htrouble => ⟨hsetback, fun _ _ => htrouble⟩
  intro operationId wal intended htouchesI hliveI hstepsI
  have hgetI : intended.kernel.changes[changeId]? = some change := hget
  have hannounced : Appended intended.trace (.operationIntent changeId operationId .restore) :=
    appended_written _ (.intend changeId operationId .restore) wal
  refine bind_read (changeAt_run hgetI) (bind_read (kernel_run intended) ?_)
  obtain ⟨driver, hdriver, hrecord⟩ := hliveI.driver_ok hgetI
  rw [hrecord]
  refine bind_read rfl (seq
    (restoreReceipt_follows hliveI hgetI hdriver hannounced hholds ?_ ?_))
  swap
  · intro e t hsetback hsteps htrouble
    exact ⟨hsetback.after htouchesI rfl, fun _ _ => htrouble.before hstepsI hsteps⟩
  intro receipt u htouchesU hkernelU hlogU hliveU hstepsU houtcome
  have hgetU : u.kernel.changes[changeId]? = some change := by rw [hkernelU]; exact hgetI
  have hstepsU' := hstepsI.trans hstepsU
  have htouchesU' := htouchesI.trans htouchesU
  have hcapsU := htouchesU'.extend.capabilities
  refine seq (matchesExpected_follows hliveU hgetU ?_ ?_)
  swap
  · intro e t hsetback hsteps htrouble
    refine ⟨hsetback.after htouchesU' (by rw [hkernelU]; rfl), fun _ _ => ?_⟩
    exact htrouble.before hstepsU' hsteps
  intro verifyId verification w' call hanswers hstepsV hliveV
  have htouchesV := htouchesU'.trans (touches_verified hanswers)
  have hsameV : (u.called call w').kernel.changes[changeId]? = m.kernel.changes[changeId]? := by
    change u.kernel.changes[changeId]? = _
    rw [hkernelU]
    rfl
  cases hmatched : verification.matched with
  | true =>
    have hbaseline := holds_of_matched hform.resource hanswers hmatched
    refine updateAfterEffect_follows hliveV hgetU (uncertain_intended nofun)
      (.unverified hrestoring.not_verified fun _ => hbaseline) ?_ ?_
    · intro wal' written hliveW hstepsW
      refine ⟨(returned_recorded hliveV hgetU hbaseline ⟨_, hliveW⟩).after htouchesV, ?_⟩
      have hpendingW : pendingIn written.log = _ := pendingIn_recorded _ _ _
      have hpendingI : pendingIn intended.log = _ := pendingIn_intended _ _ _ _ _
      rw [hpendingW, Machine.called_log rfl, hlogU, hpendingI]
      change (resolveIntent ((pendingIn m.log).insert changeId (operationId, .restore))
        change.changeId operationId)[changeId]? = none
      rw [hkey]
      simp [resolveIntent]
    · intro e t hsetback hsteps htrouble
      refine ⟨hsetback.after htouchesV hsameV, fun _ _ => ?_⟩
      exact htrouble.before (hstepsU'.trans hstepsV) hsteps
  | false =>
    refine updateChange_then_raise hliveV hgetU rfl ?_
    intro e t hsetback hsteps
    refine ⟨hsetback.after htouchesV hsameV, fun view hhonest => ?_⟩
    have hlater := hstepsV.trans hsteps
    rcases houtcome view (by rw [htouchesI.extend.capabilities]; exact hhonest) with
      htrouble | hview
    · exact (htrouble.before hstepsI hstepsU).after hstepsU' hlater
    · have htruthful : Truthful view u.kernel.capabilities := by
        rw [hcapsU]
        exact hhonest.toTruthful
      have htruth := htruthful.verify_matched hanswers
      rw [hmatched, hview] at htruth
      simp [ExpectedState.select] at htruth

theorem restoreOne_follows (hrestoring : restoredState.restoring) :
    Follows (kernelSystem P) (restoreOne changeId restoredState) m
      (fun _ t => Returned changeId change restoredState m t ∧
        ∃ matched, firstReadback changeId (newEvents m t) = some matched ∧
          (pendingIn t.log)[changeId]? =
            if matched then (pendingIn m.log)[changeId]? else none)
      (fun _ t => Setback changeId m t ∧
        ∀ view, Honest view m.kernel.capabilities → Troubled m t ∨
          view m.world change.resource ≠ change.prepared.baseline.value ∧
            (change.state = .rolledBack ∧ restoredState = .rolledBack ∨
              view m.world change.resource ≠ change.prepared.desired.value)) := by
  have hresource := (hlive.wellFormed hget).resource
  have hkey := hlive.table.keyed changeId change hget
  refine bind_read (changeAt_run hget) ?_
  simp only [hlive.unfinished hget, if_false]
  by_cases hrolled : change.state = .rolledBack ∧ restoredState = .rolledBack
  · -- a change that is rolled back already is only read back
    rw [if_pos hrolled]
    refine ensureExpected_follows hlive hget ?_ ?_
    · intro operationId verification w' call hanswers hsteps hlive' hmatched
      have htouches := touches_verified hanswers
      refine ⟨⟨htouches, ⟨st, hlive'⟩, ⟨change, hget, by rw [hrolled.1, hrolled.2]⟩, ?_⟩, true,
        ?_, ?_⟩
      · exact holds_of_matched hresource hanswers hmatched
      · rw [firstReadback_verified, hmatched]
      · rw [Machine.called_log rfl]
        rfl
    · intro e t hsetback hsteps hreason
      refine ⟨hsetback, fun view hhonest => hreason.imp_right fun hvalue => ?_⟩
      rw [hresource]
      exact ⟨hvalue view hhonest.toTruthful, .inl hrolled⟩
  rw [if_neg hrolled]
  refine seq (matchesExpected_follows hlive hget ?_ ?_)
  swap
  · exact fun e t hsetback hsteps htrouble => ⟨hsetback, fun _ _ => .inl htrouble⟩
  intro operationId verification w₁ call₁ hanswers₁ hsteps₁ hlive₁
  have htouches₁ : Touches changeId m (m.called call₁ w₁) := touches_verified hanswers₁
  have hread : firstReadback changeId (newEvents m (m.called call₁ w₁)) =
      some verification.matched := firstReadback_verified m changeId _ verification w₁
  have hlog₁ : (m.called call₁ w₁).log = m.log := Machine.called_log rfl
  cases hmatched : verification.matched with
  | true =>
    have hholds := holds_of_matched hresource hanswers₁ hmatched
    rw [hmatched] at hread
    by_cases hsame : change.state = restoredState
    · -- nothing to record
      simp only [hsame, ne_eq, not_true_eq_false, if_false, if_true]
      refine pure ⟨⟨htouches₁, ⟨st, hlive₁⟩, ⟨change, hget, hsame⟩, hholds⟩, true, hread,
        ?_⟩
      rw [hlog₁]
      rfl
    · simp only [hsame, ne_eq, not_false_eq_true, if_true]
      have hticked : (kernelSystem P).Steps (m.called call₁ w₁)
          ((m.called call₁ w₁).update TransactionKernel.tick) := .single .tick
      have htouches₂ := htouches₁.trans (touches_ticked changeId (m.called call₁ w₁))
      refine seq (nextOperationId_follows (by decide) ?_ ?_)
      · intro observedId hvalue
        refine persistChange_follows hlive₁.ticked hget
          (.unverified hrestoring.not_verified fun _ => hholds) ?_ ?_
        · intro wal written hliveW hstepsW
          have hreturned := (returned_recorded hlive₁.ticked hget hholds ⟨_, hliveW⟩).after
            htouches₂
          refine ⟨hreturned, true, ?_, ?_⟩
          · exact firstReadback_later htouches₁.extend
              (Steps.extends (hticked.trans hstepsW)) hread
          · have hpending : pendingIn written.log = _ := pendingIn_recorded _ _ _
            rw [hpending]
            change (resolveIntent (pendingIn (m.called call₁ w₁).log) change.changeId
              observedId)[changeId]? = _
            rw [hkey, hlive₁.resolve_observed hvalue, hlog₁]
            rfl
        · intro e error wal refused hstepsR
          refine ⟨.of_same (htouches₂.trans (touches_refused changeId _ _ error wal))
            (hlive₁.ticked.refused _ error wal) rfl, fun _ _ => .inl ?_⟩
          exact (troubled_refused _ error wal).before (hsteps₁.trans hticked) hstepsR
      · intro e hroom
        refine ⟨.of_same htouches₂ hlive₁.ticked rfl, fun _ _ => .inl (.inr ?_)⟩
        exact fun h => hroom (Steps.room hsteps₁ h)
  | false =>
    rw [hmatched] at hread
    simp only [Bool.false_eq_true, if_false]
    have hmismatch : ∀ view, Truthful view m.kernel.capabilities →
        view m.world change.resource ≠ change.prepared.baseline.value := by
      intro view htruthful hvalue
      have htruth := htruthful.verify_matched hanswers₁
      rw [hmatched] at htruth
      rw [hresource] at hvalue
      simp [ExpectedState.select, hvalue] at htruth
    refine seq (matchesExpected_follows hlive₁ hget ?_ ?_)
    swap
    · intro e t hsetback hsteps htrouble
      exact ⟨hsetback.after htouches₁ rfl, fun _ _ => .inl (htrouble.before hsteps₁ hsteps)⟩
    intro operationId₂ verification₂ w₂ call₂ hanswers₂ hsteps₂ hlive₂
    have htouches₂ : Touches changeId m ((m.called call₁ w₁).called call₂ w₂) :=
      htouches₁.trans (touches_verified hanswers₂)
    have hread₂ : firstReadback changeId (newEvents m ((m.called call₁ w₁).called call₂ w₂)) =
        some false :=
      firstReadback_later htouches₁.extend (extends_called _ call₂ w₂) hread
    cases hmatched₂ : verification₂.matched with
    | true =>
      refine (restoreDesired_follows hlive₂ hget hrestoring
        (holds_of_matched hresource hanswers₂ hmatched₂)).conseq ?_ ?_
      · intro _ t hsteps ⟨hreturned, hpending⟩
        exact ⟨hreturned.after htouches₂, false,
          firstReadback_later htouches₂.extend hreturned.touches.extend hread₂, hpending⟩
      · intro e t hsteps ⟨hsetback, hreason⟩
        refine ⟨hsetback.after htouches₂ rfl, fun view hhonest => .inl ?_⟩
        exact (hreason view hhonest).before (hsteps₁.trans hsteps₂) hsteps
    | false =>
      refine markDrift_follows hlive₂ hget ?_
      intro e t hsetback hsteps
      refine ⟨hsetback.after htouches₂ rfl, fun view hhonest =>
        .inr ⟨hmismatch view hhonest.toTruthful, .inr fun hvalue => ?_⟩⟩
      have hview := hhonest.toTruthful.verify_view hanswers₁
      have htruth := hhonest.toTruthful.verify_matched hanswers₂
      rw [hmatched₂] at htruth
      rw [hresource] at hvalue
      have hworld : view (m.called call₁ w₁).world change.prepared.resource =
          change.prepared.desired.value := (congrFun hview _).trans hvalue
      simp [ExpectedState.select, hworld] at htruth

end Change

end ScxAgent
