import ScxAgent.CandidateCalls

/-!
# `experiment`

The rule for an experiment. A new change is recorded only after its mutation was prepared on
the world as it is, and a change that revises another one only after the resource is back
at the baseline they share.
-/

set_option linter.unusedSectionVars false

namespace ScxAgent

open Std StepLogic ExceptRules Follows

variable {V W ω : Type} [DecidableEq V] [Serialize V] [Sha256] [TransactionWal V ω]
  {P : Permit V W ω} {m t u : Machine V W ω} {st : Replay V} {changeId : ChangeId}
  {change : ChangeRecord V} {capabilityId : CapabilityId} {prepared : PreparedMutation V}

/-! ## Prepared mutations -/

structure ValidPrepared (capabilities : CapabilitySnapshot V W) (capabilityId : CapabilityId)
    (prepared : PreparedMutation V) : Prop where
  capability : prepared.capabilityId = capabilityId
  provider : ∃ capability, capabilities.metadata[capabilityId]? = some capability ∧
    prepared.provider = capability.provider
  baseline : contentDigest prepared.baseline.value = .ok prepared.baseline.digest
  desired : contentDigest prepared.desired.value = .ok prepared.desired.digest
  distinct : prepared.baseline.value ≠ prepared.desired.value

theorem contentDigest_of_validateStateDigest {state : MutationState V} {label : String}
    {kind : TransactionErrorKind} (h : validateStateDigest state label kind = .ok ()) :
    contentDigest state.value = .ok state.digest := by
  unfold validateStateDigest at h
  split at h
  · cases h
  · rename_i expected hdigest
    split_ifs at h with hsame
    rw [hdigest, not_not.mp hsame]

theorem validatePrepared_ok {k : TransactionKernel V W ω}
    (h : k.validatePrepared capabilityId prepared = .ok ()) :
    ValidPrepared k.capabilities capabilityId prepared := by
  unfold TransactionKernel.validatePrepared at h
  obtain ⟨hcapability, h⟩ := of_refusal_eq_ok h
  split at h
  · cases h
  rename_i capability hmeta
  obtain ⟨hprovider, h⟩ := of_refusal_eq_ok h
  obtain ⟨_, hbaseline, h⟩ := bind_eq_ok.mp h
  obtain ⟨_, hdesired, h⟩ := bind_eq_ok.mp h
  obtain ⟨hsame, -⟩ := of_refusal_eq_ok h
  exact ⟨not_not.mp hcapability, ⟨capability, hmeta, not_not.mp hprovider⟩,
    contentDigest_of_validateStateDigest hbaseline,
    contentDigest_of_validateStateDigest hdesired, hsame⟩

/-- Two mutations prepared under one capability name one provider. -/
theorem ValidPrepared.provider_eq {capabilities : CapabilitySnapshot V W}
    {prepared' : PreparedMutation V} (h : ValidPrepared capabilities capabilityId prepared)
    (h' : ValidPrepared capabilities capabilityId prepared') :
    prepared.provider = prepared'.provider := by
  obtain ⟨capability, hmeta, hprovider⟩ := h.provider
  obtain ⟨capability', hmeta', hprovider'⟩ := h'.provider
  rw [hmeta] at hmeta'
  cases hmeta'
  rw [hprovider, hprovider']

/-- The second machine knows the same changes as the first one, and no operation has been
left open since. -/
structure Keeps (m t : Machine V W ω) : Prop where
  extend : Extends m t
  order : t.kernel.changeOrder = m.kernel.changeOrder
  heads : t.kernel.resourceHeads = m.kernel.resourceHeads
  unknown : ∀ changeId : ChangeId, m.kernel.changes[changeId]? = none →
    t.kernel.changes[changeId]? = none
  pending : ∀ changeId : ChangeId, (pendingIn m.log)[changeId]? = none →
    (pendingIn t.log)[changeId]? = none

theorem Keeps.trans (h : Keeps m t) (h' : Keeps t u) : Keeps m u where
  extend := h.extend.trans h'.extend
  order := h'.order.trans h.order
  heads := h'.heads.trans h.heads
  unknown changeId hnone := h'.unknown changeId (h.unknown changeId hnone)
  pending changeId hnone := h'.pending changeId (h.pending changeId hnone)

theorem keeps_ticked (m : Machine V W ω) : Keeps m (m.update TransactionKernel.tick) :=
  ⟨⟨rfl, rfl, rfl, List.prefix_refl _⟩, rfl, rfl, fun _ h => h, fun _ h => h⟩

theorem keeps_called {call : Call V} (hcall : call.logged m.log = m.log) (w' : W) :
    Keeps m (m.called call w') := by
  refine ⟨extends_called m call w', rfl, rfl, fun _ h => h, ?_⟩
  rw [Machine.called_log hcall]
  exact fun _ h => h

theorem Touches.keeps (h : Touches changeId m t) (hget : m.kernel.changes[changeId]? = some change)
    (hpending : (pendingIn m.log)[changeId]? = none → (pendingIn t.log)[changeId]? = none) :
    Keeps m t := by
  refine ⟨h.extend, h.order, h.heads, ?_, ?_⟩
  · intro other hnone
    have hne : other ≠ changeId := by
      rintro rfl
      rw [hget] at hnone
      cases hnone
    rw [h.others other hne]
    exact hnone
  · intro other hnone
    by_cases heq : other = changeId
    · subst heq
      exact hpending hnone
    · rw [h.pending other heq]
      exact hnone

variable {arguments : V} {operationId : OperationId} {driver : MutationDriver V W}

theorem prepareMutation_follows {Q : PreparedMutation V → Machine V W ω → Prop}
    {E : TransactionError → Machine V W ω → Prop} (hlive : Live m st)
    (hdriver : m.kernel.capabilities.mutations[capabilityId]? = some driver)
    (hQ : ∀ prepared t, ValidPrepared m.kernel.capabilities capabilityId prepared → Keeps m t → Live t st → t.kernel = m.kernel → Holds t prepared.resource prepared.baseline.value → Q prepared t)
    (hE : ∀ e t, Live t st → E e t) :
    Follows (kernelSystem P) (prepareMutation driver capabilityId operationId arguments) m Q E := by
  refine bind_read (kernel_run m) (seq (callDriver_follows rfl
    (fun reply w' hmethod => ⟨capabilityId, driver, hdriver, hmethod⟩) (fun _ => True.intro) ?_))
  intro result w' hanswers _
  have hlive' : Live (m.called (.prepare capabilityId
      ⟨⟨m.kernel.intentPin.episodeId, operationId⟩, arguments⟩ (.answered result)) w') st :=
    hlive.called rfl w'
  rcases result with error | prepared
  · exact raise (hE _ _ hlive')
  refine seq (ofExcept ?_ (fun e _ => hE e _ hlive'))
  intro _ hvalid
  refine pure (hQ prepared _ (validatePrepared_ok hvalid) (keeps_called rfl w') hlive' rfl ?_)
  intro view htruthful
  rw [htruthful.prepare_baseline hanswers]
  exact congrFun (htruthful.prepare_view hanswers) _

/-! ## Revisions -/

variable [Inhabited V]

/-- The plan of an experiment: a mutation that can be recorded as a change on its resource. -/
structure Planned (capabilityId : CapabilityId) (supersedes : Option ChangeId)
    (prepared : PreparedMutation V) (m : Machine V W ω) : Prop where
  live : ∃ st, Live m st
  valid : ValidPrepared m.kernel.capabilities capabilityId prepared
  head : supersedes = m.kernel.resourceHeads[prepared.resource]?
  holds : Holds m prepared.resource prepared.baseline.value
  predecessor : ∀ previousId : ChangeId, supersedes = some previousId →
    ∃ previous, m.kernel.changes[previousId]? = some previous ∧
      previous.state = .baselineRestored ∧ previous.experimentVerified = true ∧
      previous.prepared.baseline = prepared.baseline ∧ previous.capabilityId = capabilityId ∧
      previous.prepared.provider = prepared.provider

theorem reviseHead_follows {previousId : ChangeId} (hlive : Live m st)
    (hdriver : m.kernel.capabilities.mutations[capabilityId]? = some driver)
    (hvalid : ValidPrepared m.kernel.capabilities capabilityId prepared)
    (hhead : m.kernel.resourceHeads[prepared.resource]? = some previousId) :
    Follows (kernelSystem P) (reviseHead driver capabilityId arguments prepared previousId) m
      (fun plan t => Keeps m t ∧ Planned capabilityId (some previousId) plan.2 t)
      (fun _ t => ∃ st, Live t st) := by
  obtain ⟨previous, hget, hresource⟩ := hlive.table.head_record hhead
  refine bind_read (kernel_run m) ?_
  rw [hget]
  by_cases hstate : previous.state ≠ .appliedVerified ∨ ¬ previous.experimentVerified = true
  · simp only [if_pos hstate]
    exact raise ⟨st, hlive⟩
  by_cases hpinned : previous.capabilityId ≠ capabilityId ∨
      previous.prepared.provider ≠ prepared.provider
  · simp only [if_neg hstate, if_pos hpinned]
    exact raise ⟨st, hlive⟩
  simp only [if_neg hstate, if_neg hpinned]
  simp only [not_or, not_not] at hstate hpinned
  refine bind ((ensureExpected_recheck hlive (.refl m) hget).conseq (fun _ _ _ h => h)
    (fun _ _ _ h => h.live)) ?_
  rintro _ t - ⟨hrechecked, _, _⟩
  have hliveT := hrechecked.live hlive
  have hgetT : t.kernel.changes[previousId]? = some previous := by
    rw [hrechecked.kernel]
    exact hget
  split_ifs with hobserved
  · exact raise ⟨st, hliveT⟩
  refine bind ((restoreOne_follows hliveT hgetT (.inl rfl)).conseq (fun _ _ _ h => h)
    (fun _ _ _ h => h.1.live)) ?_
  rintro _ u - ⟨hreturned, matched, _, hpending⟩
  obtain ⟨stU, hliveU⟩ := hreturned.live
  have hkeepsT : Keeps m t := by
    refine ⟨hrechecked.extend, ?_, ?_, ?_, ?_⟩
    · rw [hrechecked.kernel]
    · rw [hrechecked.kernel]
    · rw [hrechecked.kernel]
      exact fun _ h => h
    · rw [hrechecked.log]
      exact fun _ h => h
  have hkeepsU : Keeps t u := by
    refine hreturned.touches.keeps hgetT ?_
    intro hnone
    rw [hpending, hnone]
    split_ifs <;> rfl
  obtain ⟨restored, hrestored, hrestoredState⟩ := hreturned.state
  obtain ⟨restored', hrestored', hsame, hkept⟩ := hreturned.touches.identity previous hgetT
  rw [hrestored] at hrestored'
  cases hrestored'
  refine seq (nextOperationId_follows (by decide) ?_ (fun e _ => ⟨stU, hliveU.ticked⟩))
  intro operationId _
  have hcapsU : u.kernel.capabilities = m.kernel.capabilities :=
    (hkeepsT.trans hkeepsU).extend.capabilities
  refine seq (prepareMutation_follows hliveU.ticked ?_ ?_
    (fun e s hliveS => ⟨stU, hliveS⟩))
  · change u.kernel.capabilities.mutations[capabilityId]? = some driver
    rw [hcapsU]
    exact hdriver
  intro prepared' s hvalidS hkeepsS hliveS hkernelS hholdsS
  split_ifs with hchanged
  · exact raise ⟨stU, hliveS⟩
  simp only [not_or, not_not] at hchanged
  obtain ⟨hresourceS, hbaselineS, _⟩ := hchanged
  have hkeeps : Keeps m s := ((hkeepsT.trans hkeepsU).trans (keeps_ticked u)).trans hkeepsS
  have hcapsS : (u.update TransactionKernel.tick).kernel.capabilities = m.kernel.capabilities :=
    hcapsU
  rw [hcapsS] at hvalidS
  have hprepared : restored.prepared = previous.prepared := congrArg ChangeIdentity.prepared hsame
  have hcapability : restored.capabilityId = previous.capabilityId :=
    congrArg ChangeIdentity.capabilityId hsame
  refine pure ⟨hkeeps, ⟨stU, hliveS⟩, ?_, ?_, hholdsS, ?_⟩
  · rw [hkeeps.extend.capabilities]
    exact hvalidS
  · rw [hkeeps.heads, hresourceS, hresource]
    exact hhead.symm
  · intro previousId' hprevious
    cases hprevious
    refine ⟨restored, ?_, hrestoredState, hkept hstate.2, ?_, ?_, ?_⟩
    · rw [hkernelS]
      exact hrestored
    · rw [hprepared]
      exact hbaselineS.symm
    · rw [hcapability]
      exact hpinned.1
    · rw [hprepared, hpinned.2]
      exact hvalid.provider_eq hvalidS

/-! ## The experiment -/

/-- The first record of a change under a plan. -/
def ChangeRecord.planned (transactionId : TransactionId) (changeId : ChangeId)
    (supersedes : Option ChangeId) (capabilityId : CapabilityId) (operationId : OperationId)
    (prepared : PreparedMutation V) : ChangeRecord V :=
  { transactionId, changeId, supersedes, capabilityId, prepared
    resource := prepared.resource
    experimentVerified := false
    state := .intentDurable
    lastOperationId := operationId
    lastReceipt := none
    message := none }

variable {supersedes : Option ChangeId}

theorem Planned.lawful (h : Planned capabilityId supersedes prepared m) (hlive : Live m st)
    (hfresh : m.kernel.changes[changeId]? = none)
    (hroom : m.kernel.changes.size < maxChangesPerTransaction)
    (hdriver : ∃ driver, m.kernel.capabilities.mutations[capabilityId]? = some driver) :
    WellFormed m.kernel.transactionId m.kernel.capabilities (.planned m.kernel.transactionId
      changeId supersedes capabilityId operationId prepared) ∧
    Opens st (.planned m.kernel.transactionId changeId supersedes capabilityId operationId
      prepared) := by
  obtain ⟨driver, hdriver⟩ := hdriver
  obtain ⟨capability, hmeta, hprovider⟩ := h.valid.provider
  have hregistered := m.kernel.capabilities.registered _ driver hdriver
  rw [hmeta] at hregistered
  cases hregistered
  constructor
  · refine ⟨rfl, rfl, h.valid.capability.symm, ?_, h.valid.baseline, h.valid.desired,
      h.valid.distinct, fun hverified => ?_, ⟨driver, hdriver, hprovider.symm⟩⟩
    · change supersedes ≠ some changeId
      rintro rfl
      obtain ⟨previous, hget, _⟩ := h.predecessor changeId rfl
      rw [hfresh] at hget
      cases hget
    · cases hverified
  · refine ⟨hlive.tracks.none_iff.mp hfresh, ?_, rfl, rfl, ?_, ?_⟩
    · rw [← hlive.tracks.size]
      exact hroom
    · rw [← hlive.tracks.heads]
      exact h.head
    · intro previousId logged hprevious hlogged
      obtain ⟨previous, hget, hstate, hverified, hbaseline, hcapability, hpreviousProvider⟩ :=
        h.predecessor previousId hprevious
      obtain ⟨logged', hlogged', hsame, hflag, htracked⟩ := hlive.tracks.logged hget
      rw [hlogged] at hlogged'
      cases hlogged'
      obtain ⟨_, _, _, hsameCapability, _, hsamePrepared⟩ := ChangeIdentity.mk.inj hsame
      refine ⟨?_, by rw [← hflag]; exact hverified, ?_, ?_, ?_⟩
      · rcases htracked with htracked | ⟨hunknown, _⟩
        · rw [← htracked]
          exact hstate
        · rw [hstate] at hunknown
          cases hunknown
      · change logged.prepared.baseline = prepared.baseline
        rw [← hsamePrepared]
        exact hbaseline
      · change logged.capabilityId = capabilityId
        rw [← hsameCapability]
        exact hcapability
      · change logged.prepared.provider = prepared.provider
        rw [← hsamePrepared]
        exact hpreviousProvider

/-- How an experiment on `m` may return: no operation has been left open since. -/
def Experimented (m t : Machine V W ω) : Prop :=
  (∃ st, Live t st) ∧ ∀ other : ChangeId, (pendingIn m.log)[other]? = none →
    (pendingIn t.log)[other]? = none

/-- Recording and applying a planned change. -/
theorem applyPlan_follows {transactionId : TransactionId}
    (htx : transactionId = m.kernel.transactionId) (h : Planned capabilityId supersedes prepared m)
    (hfresh : m.kernel.changes[changeId]? = none)
    (hroom : m.kernel.changes.size < maxChangesPerTransaction)
    (hdriver : ∃ driver, m.kernel.capabilities.mutations[capabilityId]? = some driver) :
    Follows (kernelSystem P) (do
      createChange (.planned transactionId changeId supersedes capabilityId operationId prepared)
      applyAndVerify changeId operationId .appliedVerified false
      changeAt changeId) m
      (fun _ t => Experimented m t) (fun _ t => ∃ st, Live t st) := by
  subst htx
  obtain ⟨st, hlive⟩ := h.live
  obtain ⟨hform, hopens⟩ := h.lawful hlive hfresh hroom hdriver
  set record : ChangeRecord V := .planned m.kernel.transactionId changeId supersedes capabilityId
    operationId prepared with hrecord
  refine seq (createChange_follows hlive hform hopens h.holds ?_
    (fun e error wal _ => ⟨st, hlive.refused _ error wal⟩))
  intro wal hliveC _
  set created := m.written (.create record) wal with hcreated
  have hgetC : created.kernel.changes[changeId]? = some record := by
    change (m.kernel.changes.insert changeId record)[changeId]? = _
    rw [getElem?_insert_eq, if_pos rfl]
  have hheadC : created.kernel.resourceHeads[record.resource]? = some changeId := by
    change (m.kernel.resourceHeads.insert record.resource changeId)[record.resource]? = _
    rw [getElem?_insert_eq, if_pos rfl]
  have huncertain : Uncertain (st.next.createChange record) changeId := by
    refine .inl ⟨record, ?_, rfl⟩
    change (st.changes.insert changeId record)[changeId]? = _
    rw [getElem?_insert_eq, if_pos rfl]
  have happended : Appended created.trace (.changeUpsert record) :=
    appended_written m (.create record) wal
  have hpendingC : ∀ other : ChangeId, (pendingIn m.log)[other]? = none →
      (pendingIn created.log)[other]? = none := by
    intro other hnone
    rw [hcreated, Machine.written_log, pendingIn_concat]
    exact resolveIntent_none hnone changeId operationId
  have happly : Follows (kernelSystem P) (applyAnnounced changeId operationId .appliedVerified)
      created _ _ :=
    applyAnnounced_follows hliveC hgetC (fun _ => ⟨record, hgetC, rfl, hheadC,
      .inl ⟨rfl, rfl, happended⟩, h.holds⟩) hheadC huncertain
      (.inl ⟨rfl, record, happended, rfl, rfl, rfl, rfl⟩)
  refine bind ((applyAndVerify_follows hgetC (.inr rfl) happly).conseq (fun _ _ _ h => h)
    (fun _ _ _ h => h.live)) ?_
  rintro _ t - ⟨hreached, hpending⟩
  obtain ⟨final, hfinal, _⟩ := hreached.state
  have hdone : Experimented m t := by
    refine ⟨hreached.live, ?_⟩
    intro other hnone
    by_cases heq : other = changeId
    · subst heq
      rw [hpending, resolveIntent_none (hpendingC other hnone)]
    · rw [hreached.touches.pending other heq]
      exact hpendingC other hnone
  unfold Follows
  rw [changeAt_run hfinal]
  exact ⟨.refl t, hdone⟩

theorem experiment_follows (hlive : Live m st) :
    Follows (kernelSystem P) (experiment changeId capabilityId arguments) m
      (fun _ t => Experimented m t) (fun _ t => ∃ st, Live t st) := by
  refine seq (ensureOpen_follows hlive ?_)
  refine bind_read (kernel_run m) ?_
  split_ifs with hknown hfull
  · exact raise ⟨st, hlive⟩
  · exact raise ⟨st, hlive⟩
  have hfresh : m.kernel.changes[changeId]? = none := by
    rw [TreeMap.contains_eq_isSome_getElem?, Bool.not_eq_true, Option.isSome_eq_false_iff,
      Option.isNone_iff_eq_none] at hknown
    exact hknown
  refine seq (ofExcept ?_ (fun e _ => ⟨st, hlive⟩))
  intro driver hlookup
  have hdriver : m.kernel.capabilities.mutations[capabilityId]? = some driver := by
    unfold TransactionKernel.driver at hlookup
    split at hlookup
    · rename_i found hfound
      cases hlookup
      exact hfound
    · cases hlookup
  refine seq (nextOperationId_follows (by decide) ?_ (fun e _ => ⟨st, hlive.ticked⟩))
  intro operationId _
  refine seq (prepareMutation_follows hlive.ticked hdriver ?_
    (fun e t hliveT => ⟨st, hliveT⟩))
  intro prepared t hvalid hkeepsT hliveT hkernelT hholds
  have hkeeps : Keeps m t := (keeps_ticked m).trans hkeepsT
  refine bind_read (kernel_run t) ?_
  have hrest : ∀ (u : Machine V W ω) (plan : OperationId × PreparedMutation V)
      (supersedes : Option ChangeId), Keeps m u → Planned capabilityId supersedes plan.2 u →
      Follows (kernelSystem P) (do
        createChange (.planned m.kernel.transactionId changeId supersedes capabilityId plan.1
          plan.2)
        applyAndVerify changeId plan.1 .appliedVerified false
        changeAt changeId) u
        (fun _ v => Experimented m v) (fun _ v => ∃ st, Live v st) := by
    intro u plan supersedes hkeepsU hplanned
    obtain ⟨stU, hliveU⟩ := hplanned.live
    refine (applyPlan_follows hkeepsU.extend.transactionId.symm hplanned
      (hkeepsU.unknown changeId hfresh) ?_ ⟨driver, ?_⟩).conseq ?_ (fun _ _ _ h => h)
    · rw [hliveU.table.size, hkeepsU.order, ← hlive.table.size]
      exact Nat.not_le.mp hfull
    · rw [hkeepsU.extend.capabilities]
      exact hdriver
    · rintro _ v - ⟨hliveV, hpendingV⟩
      exact ⟨hliveV, fun other hnone => hpendingV other (hkeepsU.pending other hnone)⟩
  cases hhead : t.kernel.resourceHeads[prepared.resource]? with
  | none =>
    refine bind_read rfl (hrest t (operationId, prepared) none hkeeps
      ⟨⟨st, hliveT⟩, ?_, hhead.symm, hholds, fun _ h => by cases h⟩)
    rw [hkeeps.extend.capabilities]
    exact hvalid
  | some previousId =>
    refine bind (reviseHead_follows hliveT ?_ ?_ hhead) ?_
    · rw [hkeeps.extend.capabilities]
      exact hdriver
    · rw [hkeeps.extend.capabilities]
      exact hvalid
    · rintro plan u - ⟨hkeepsU, hplanned⟩
      exact hrest u plan (some previousId) (hkeeps.trans hkeepsU) hplanned

end ScxAgent
