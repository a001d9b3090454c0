import ScxAgent.KernelRules

/-!
# Effects on one change

Rules for the helpers that act on a single change: readback, drift, restore and apply.
`Touches` is what they have in common, however they end. They keep every other change and
every other resource as they were.
-/

set_option linter.unusedSectionVars false

namespace ScxAgent

open Std StepLogic List

variable {V W ω : Type}

/-! ## Views under the answers of truthful drivers -/

variable {request : MutationVerifyRequest V}

section Views

variable [DecidableEq V] {view : W → ResourceKey → V} {capabilities : CapabilitySnapshot V W}
  {w w' : W} {changeId : ChangeId}

section Truthful

variable (h : Truthful view capabilities)
include h

theorem Truthful.verify_view {reply : Reply ProviderError (MutationVerification V)}
    (hanswers : Answers capabilities w (.verify changeId request reply) w') : view w' = view w := by
  obtain ⟨id, driver, hdriver, hcall⟩ := hanswers
  have hview := (h.verify id driver hdriver request w).1
  rw [hcall] at hview
  exact hview

theorem Truthful.verify_matched {verification : MutationVerification V}
    (hanswers : Answers capabilities w (.verify changeId request (.answered (.ok verification))) w')
    : verification.matched = decide (view w request.prepared.resource = request.expected.value) := by
  obtain ⟨id, driver, hdriver, hcall⟩ := hanswers
  exact (h.verify id driver hdriver request w).2 verification (by rw [hcall])

theorem Truthful.status_view {query : MutationQuery}
    {reply : Reply ProviderError (MutationStatus V)}
    (hanswers : Answers capabilities w (.status query reply) w') : view w' = view w := by
  obtain ⟨id, driver, hdriver, hcall⟩ := hanswers
  have hview := h.status id driver hdriver query w
  rw [hcall] at hview
  exact hview

variable {capabilityId : CapabilityId} {request : MutationPrepareRequest V}

theorem Truthful.prepare_view {reply : Reply ProviderError (PreparedMutation V)}
    (hanswers : Answers capabilities w (.prepare capabilityId request reply) w') :
    view w' = view w := by
  obtain ⟨id, driver, hdriver, hcall⟩ := hanswers
  have hview := (h.prepare id driver hdriver request w).1
  rw [hcall] at hview
  exact hview

theorem Truthful.prepare_baseline {prepared : PreparedMutation V}
    (hanswers : Answers capabilities w (.prepare capabilityId request (.answered (.ok prepared))) w')
    : prepared.baseline.value = view w prepared.resource := by
  obtain ⟨id, driver, hdriver, hcall⟩ := hanswers
  exact (h.prepare id driver hdriver request w).2 prepared (by rw [hcall])

/-- An effect on a change, whatever the drivers answer, touches one resource. -/
theorem Truthful.effect_elsewhere {request : MutationRequest V}
    {reply : Reply ProviderError (MutationReceipt V)}
    (hanswers : Answers capabilities w (.apply changeId request reply) w' ∨
      Answers capabilities w (.restore changeId request reply) w' ∨
      Answers capabilities w (.finalize changeId request reply) w') {resource : ResourceKey}
    (hne : resource ≠ request.prepared.resource) : view w' resource = view w resource := by
  rcases hanswers with ⟨id, driver, hdriver, hcall⟩ | ⟨id, driver, hdriver, hcall⟩ |
    ⟨id, driver, hdriver, hcall⟩
  · have hview := h.apply id driver hdriver request w resource hne
    rw [hcall] at hview
    exact hview
  · have hview := h.restore id driver hdriver request w resource hne
    rw [hcall] at hview
    exact hview
  · have hview := h.finalize id driver hdriver request w resource hne
    rw [hcall] at hview
    exact hview

end Truthful

theorem Honest.restored_view (h : Honest view capabilities) {request : MutationRestoreRequest V}
    {receipt : MutationReceipt V}
    (hanswers : Answers capabilities w (.restore changeId request (.answered (.ok receipt))) w')
    (hstate : receipt.state = .restored) :
    view w' request.prepared.resource = request.prepared.baseline.value := by
  obtain ⟨id, driver, hdriver, hcall⟩ := hanswers
  have hview := h.restored id driver hdriver request w receipt (by rw [hcall]) hstate
  rw [hcall] at hview
  exact hview

end Views

/-! ## Readbacks and pending intents -/

def Event.readback (event : Event V W ω) (changeId : ChangeId) : Option Bool :=
  match event.call with
  | .verify changeId' _ (.answered (.ok verification)) =>
    if changeId' = changeId then some verification.matched else none
  | _ => none

/-- The outcome of the first readback of a change. -/
def firstReadback (changeId : ChangeId) (events : List (Event V W ω)) : Option Bool :=
  events.findSome? fun event => event.readback changeId

theorem firstReadback_append (changeId : ChangeId) (events events' : List (Event V W ω)) :
    firstReadback changeId (events ++ events') =
      (firstReadback changeId events).or (firstReadback changeId events') :=
  findSome?_append

theorem pendingIn_concat (log : List (WalEntry V)) (entry : WalEntry V) :
    pendingIn (log ++ [entry]) = match entry.event with
      | .changeUpsert change =>
        resolveIntent (pendingIn log) change.changeId change.lastOperationId
      | .operationIntent changeId operationId operation =>
        (pendingIn log).insert changeId (operationId, operation)
      | _ => pendingIn log := by
  unfold pendingIn
  rw [foldl_append]
  rfl

theorem pendingIn_recorded [Sha256] (m : Machine V W ω) (change : ChangeRecord V) (wal : ω) :
    pendingIn (m.written (.record change) wal).log =
      resolveIntent (pendingIn m.log) change.changeId change.lastOperationId := by
  rw [Machine.written_log, pendingIn_concat]
  rfl

theorem pendingIn_intended [Sha256] (m : Machine V W ω) (changeId : ChangeId)
    (operationId : OperationId) (operation : OperationIntentKind) (wal : ω) :
    pendingIn (m.written (.intend changeId operationId operation) wal).log =
      (pendingIn m.log).insert changeId (operationId, operation) := by
  rw [Machine.written_log, pendingIn_concat]
  rfl

section Touches

variable [DecidableEq V] [Serialize V] [Sha256] [TransactionWal V ω] {P : Permit V W ω}
  {m m' m'' : Machine V W ω} {changeId : ChangeId} {change : ChangeRecord V} {st : Replay V}
  {w' : W}

/-- The second machine is a later one that differs from the first in one change only. -/
structure Touches (changeId : ChangeId) (m m' : Machine V W ω) : Prop where
  extend : Extends m m'
  order : m'.kernel.changeOrder = m.kernel.changeOrder
  heads : m'.kernel.resourceHeads = m.kernel.resourceHeads
  active : m'.kernel.activeCandidate = m.kernel.activeCandidate
  others : ∀ other : ChangeId, other ≠ changeId →
    m'.kernel.changes[other]? = m.kernel.changes[other]?
  identity : ∀ old, m.kernel.changes[changeId]? = some old →
    ∃ new, m'.kernel.changes[changeId]? = some new ∧ new.identity = old.identity ∧
      (old.experimentVerified = true → new.experimentVerified = true)
  reads : ∀ other, other ≠ changeId → firstReadback other (newEvents m m') = none
  pending : ∀ other : ChangeId, other ≠ changeId →
    (pendingIn m'.log)[other]? = (pendingIn m.log)[other]?
  elsewhere : ∀ old, m.kernel.changes[changeId]? = some old →
    ∀ view, Truthful view m.kernel.capabilities → ∀ resource, resource ≠ old.prepared.resource →
      view m'.world resource = view m.world resource

theorem Touches.refl (changeId : ChangeId) (m : Machine V W ω) : Touches changeId m m where
  extend := Extends.refl m
  order := rfl
  heads := rfl
  active := rfl
  others _ _ := rfl
  identity old hold := ⟨old, hold, rfl, id⟩
  reads _ _ := by rw [newEvents_self]; rfl
  pending _ _ := rfl
  elsewhere _ _ _ _ _ _ := rfl

theorem Touches.trans (h : Touches changeId m m') (h' : Touches changeId m' m'') :
    Touches changeId m m'' where
  extend := h.extend.trans h'.extend
  order := h'.order.trans h.order
  heads := h'.heads.trans h.heads
  active := h'.active.trans h.active
  others other hne := (h'.others other hne).trans (h.others other hne)
  identity old hold := by
    obtain ⟨mid, hmid, hsame, hkept⟩ := h.identity old hold
    obtain ⟨new, hnew, hsame', hkept'⟩ := h'.identity mid hmid
    exact ⟨new, hnew, hsame'.trans hsame, fun hverified => hkept' (hkept hverified)⟩
  reads other hne := by
    rw [newEvents_trans h.extend h'.extend, firstReadback_append, h.reads other hne,
      h'.reads other hne]
    rfl
  pending other hne := (h'.pending other hne).trans (h.pending other hne)
  elsewhere old hold view htruthful resource hne := by
    obtain ⟨mid, hmid, hsame, _⟩ := h.identity old hold
    have hprepared : mid.prepared = old.prepared := congrArg ChangeIdentity.prepared hsame
    rw [← h.elsewhere old hold view htruthful resource hne]
    refine h'.elsewhere mid hmid view ?_ resource ?_
    · rw [h.extend.capabilities]
      exact htruthful
    · rw [hprepared]
      exact hne

/-- Machines with the same kernel, apart from its log handle and its counters. -/
theorem Touches.of_changes_eq (hextends : Extends m m')
    (horder : m'.kernel.changeOrder = m.kernel.changeOrder)
    (hheads : m'.kernel.resourceHeads = m.kernel.resourceHeads)
    (hactive : m'.kernel.activeCandidate = m.kernel.activeCandidate)
    (hchanges : m'.kernel.changes = m.kernel.changes)
    (hreads : ∀ other, other ≠ changeId → firstReadback other (newEvents m m') = none)
    (hpending : ∀ other : ChangeId, other ≠ changeId →
      (pendingIn m'.log)[other]? = (pendingIn m.log)[other]?)
    (helsewhere : ∀ old, m.kernel.changes[changeId]? = some old →
      ∀ view, Truthful view m.kernel.capabilities → ∀ resource, resource ≠ old.prepared.resource →
        view m'.world resource = view m.world resource) : Touches changeId m m' where
  extend := hextends
  order := horder
  heads := hheads
  active := hactive
  others other _ := by rw [hchanges]
  identity old hold := ⟨old, by rw [hchanges]; exact hold, rfl, id⟩
  reads := hreads
  pending := hpending
  elsewhere := helsewhere

theorem touches_ticked (changeId : ChangeId) (m : Machine V W ω) :
    Touches changeId m (m.update TransactionKernel.tick) :=
  .of_changes_eq ⟨rfl, rfl, rfl, prefix_refl _⟩ rfl rfl rfl rfl
    (fun _ _ => by rw [newEvents, Machine.update, drop_length]; rfl) (fun _ _ => rfl)
    fun _ _ _ _ _ _ => rfl

theorem extends_called (m : Machine V W ω) (call : Call V) (w' : W) :
    Extends m (m.called call w') :=
  ⟨rfl, rfl, rfl, prefix_append _ _⟩

theorem touches_verified {reply : Reply ProviderError (MutationVerification V)}
    (hanswers : Answers m.kernel.capabilities m.world (.verify changeId request reply) w') :
    Touches changeId m (m.called (.verify changeId request reply) w') := by
  refine .of_changes_eq (extends_called m _ w') rfl rfl rfl rfl ?_ ?_ ?_
  · intro other hne
    rw [newEvents_called]
    rcases reply with _ | (error | verification)
    · rfl
    · rfl
    · simp [firstReadback, Event.readback, Ne.symm hne]
  · intro other _
    rw [Machine.called_log rfl]
  · intro _ _ view htruthful resource _
    exact congrFun (htruthful.verify_view hanswers) resource

theorem touches_status {query : MutationQuery} {reply : Reply ProviderError (MutationStatus V)}
    (hanswers : Answers m.kernel.capabilities m.world (.status query reply) w') :
    Touches changeId m (m.called (.status query reply) w') := by
  refine .of_changes_eq (extends_called m _ w') rfl rfl rfl rfl ?_ ?_ ?_
  · intro other _
    rw [newEvents_called]
    rfl
  · intro other _
    rw [Machine.called_log rfl]
  · intro _ _ view htruthful resource _
    exact congrFun (htruthful.status_view hanswers) resource

theorem touches_effect {call : Call V} {request : MutationRequest V}
    {reply : Reply ProviderError (MutationReceipt V)}
    (hcall : call = .apply changeId request reply ∨ call = .restore changeId request reply ∨
      call = .finalize changeId request reply) (hget : m.kernel.changes[changeId]? = some change)
    (hprepared : change.prepared = request.prepared)
    (hanswers : Answers m.kernel.capabilities m.world call w') :
    Touches changeId m (m.called call w') := by
  have hquiet : call.logged m.log = m.log ∧
      ∀ other, (⟨m.kernel.wal, m.world, call⟩ : Event V W ω).readback other = none := by
    rcases hcall with rfl | rfl | rfl <;> exact ⟨rfl, fun _ => rfl⟩
  refine .of_changes_eq (extends_called m _ w') rfl rfl rfl rfl ?_ ?_ ?_
  · intro other _
    rw [newEvents_called]
    simp [firstReadback, hquiet.2 other]
  · intro other _
    rw [Machine.called_log hquiet.1]
  · intro old hold view htruthful resource hne
    rw [hget] at hold
    cases hold
    rw [hprepared] at hne
    rcases hcall with rfl | rfl | rfl
    · exact htruthful.effect_elsewhere (.inl hanswers) hne
    · exact htruthful.effect_elsewhere (.inr (.inl hanswers)) hne
    · exact htruthful.effect_elsewhere (.inr (.inr hanswers)) hne

theorem touches_refused (changeId : ChangeId) (m : Machine V W ω) (event : WalEvent V)
    (error : WalError) (wal : ω) :
    Touches changeId m (m.appended event (.answered (.error error)) wal) := by
  refine .of_changes_eq ⟨rfl, rfl, rfl, prefix_append _ _⟩ rfl rfl rfl rfl ?_ ?_ ?_
  · intro other _
    rw [newEvents_appended]
    rfl
  · intro other _
    rw [Machine.appended_log]
    rfl
  · exact fun _ _ _ _ _ _ => rfl

theorem touches_intended (changeId : ChangeId) (m : Machine V W ω) (operationId : OperationId)
    (operation : OperationIntentKind) (wal : ω) :
    Touches changeId m (m.written (.intend changeId operationId operation) wal) := by
  refine .of_changes_eq ⟨rfl, rfl, rfl, prefix_append _ _⟩ rfl rfl rfl rfl ?_ ?_ ?_
  · intro other _
    rw [newEvents_written]
    rfl
  · intro other hne
    rw [pendingIn_intended, getElem?_insert_eq, if_neg (Ne.symm hne)]
  · exact fun _ _ _ _ _ _ => rfl

theorem touches_recorded (hget : m.kernel.changes[changeId]? = some change)
    (hkey : change.changeId = changeId) (state : ChangeState) (operationId : OperationId)
    (receipt : Option (MutationReceipt V)) (message : Option String) (mark : Bool) (wal : ω) :
    Touches changeId m
      (m.written (.record (change.snapshot state operationId receipt message mark)) wal) where
  extend := ⟨rfl, rfl, rfl, prefix_append _ _⟩
  order := rfl
  heads := rfl
  active := rfl
  others other hne := by
    change (m.kernel.changes.insert change.changeId _)[other]? = _
    rw [getElem?_insert_eq, hkey, if_neg (Ne.symm hne)]
  identity old hold := by
    rw [hget] at hold
    cases hold
    refine ⟨change.snapshot state operationId receipt message mark, ?_, rfl, ?_⟩
    · change (m.kernel.changes.insert change.changeId _)[changeId]? = _
      rw [getElem?_insert_eq, if_pos hkey]
    · intro hverified
      change (mark || change.experimentVerified) = true
      rw [hverified, Bool.or_true]
  reads other _ := by
    rw [newEvents_written]
    rfl
  pending other hne := by
    rw [pendingIn_recorded]
    change (resolveIntent (pendingIn m.log) change.changeId operationId)[other]? = _
    rw [hkey, resolveIntent_of_ne _ (Ne.symm hne)]
  elsewhere _ _ _ _ _ _ := rfl

theorem touches_lost (changeId : ChangeId) (m : Machine V W ω) (operationId : OperationId) :
    Touches changeId m (m.update fun k => k.lose changeId operationId) where
  extend := ⟨rfl, rfl, rfl, prefix_refl _⟩
  order := rfl
  heads := rfl
  active := rfl
  others other hne := by
    cases hget : m.kernel.changes[changeId]? with
    | none => simp [Machine.update, TransactionKernel.lose, hget]
    | some change =>
      simp only [Machine.update, TransactionKernel.lose, hget]
      rw [getElem?_insert_eq, if_neg (Ne.symm hne)]
  identity old hold := by
    simp only [Machine.update, TransactionKernel.lose, hold]
    rw [getElem?_insert_eq, if_pos rfl]
    exact ⟨_, rfl, rfl, id⟩
  reads _ _ := by rw [newEvents, Machine.update, drop_length]; rfl
  pending _ _ := rfl
  elsewhere _ _ _ _ _ _ := rfl

end Touches

end ScxAgent
