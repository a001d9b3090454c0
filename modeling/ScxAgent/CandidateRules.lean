import ScxAgent.ExceptRules
import ScxAgent.RestoreLoop

/-!
# Replay and commit of a candidate

Rules for `replay_candidate` and `finalize_candidate`. Both check every change before they act
on the first one, and both act on the changes of the candidate one after another. What the kernel
knows when it appends the commit seal is collected in `CommitFacts`.
-/

set_option linter.unusedSectionVars false

namespace ScxAgent

open Std StepLogic ExceptRules List

variable {V W ω : Type} [DecidableEq V] [Serialize V] [Sha256] [TransactionWal V ω]
  {P : Permit V W ω} {m t u : Machine V W ω} {st : Replay V} {changeId : ChangeId}
  {change : ChangeRecord V} {candidate : Candidate}

/-! ## Candidates that the kernel accepts -/

/-- A change that a candidate may name. -/
def Eligible (k : TransactionKernel V W ω) (changeId : ChangeId) : Prop :=
  ∃ change, k.changes[changeId]? = some change ∧ change.experimentVerified = true ∧
    k.resourceHeads[change.resource]? = some changeId

variable {k : TransactionKernel V W ω} {value : V} {expected : ExpectedState}

theorem validateCandidateChange_ok {resources out : TreeSet ResourceKey}
    (h : k.validateCandidateChange resources changeId = .ok out) : Eligible k changeId := by
  unfold TransactionKernel.validateCandidateChange at h
  split at h
  · cases h
  · rename_i change hget
    split_ifs at h with hverified hhead hrepeated
    exact ⟨change, hget, hverified, not_not.mp hhead⟩

theorem foldlM_validateCandidateChange (ids : List ChangeId) :
    ∀ {resources out : TreeSet ResourceKey},
      ids.foldlM k.validateCandidateChange resources = .ok out →
      ∀ changeId ∈ ids, Eligible k changeId := by
  induction ids with
  | nil => exact fun _ _ hmem => nomatch hmem
  | cons first rest ih =>
    intro resources out h changeId hmem
    rw [foldlM_cons] at h
    obtain ⟨mid, hfirst, h⟩ := bind_eq_ok.mp h
    rcases mem_cons.mp hmem with rfl | hmem
    · exact validateCandidateChange_ok hfirst
    · exact ih h changeId hmem

/-- Heads of different resources never repeat a resource. -/
theorem foldlM_validateCandidateChange_ok (ids : List ChangeId) :
    ∀ resources : TreeSet ResourceKey, ids.Nodup → (∀ changeId ∈ ids, Eligible k changeId) →
      (∀ resource, resources.contains resource = true →
        ∀ changeId ∈ ids, k.resourceHeads[resource]? ≠ some changeId) →
      ∃ out, ids.foldlM k.validateCandidateChange resources = .ok out := by
  induction ids with
  | nil => exact fun resources _ _ _ => ⟨resources, rfl⟩
  | cons first rest ih =>
    intro resources hnodup heligible hfresh
    obtain ⟨change, hget, hverified, hhead⟩ := heligible first mem_cons_self
    have hnew : ¬ resources.contains change.resource = true := fun hin =>
      hfresh change.resource hin first mem_cons_self hhead
    have hfirst : k.validateCandidateChange resources first =
        .ok (resources.insert change.resource) := by
      simp [TransactionKernel.validateCandidateChange, hget, hverified, hhead, hnew]
    have hrest := ih (resources.insert change.resource) (nodup_cons.mp hnodup).2
      (fun changeId hmem => heligible changeId (mem_cons_of_mem _ hmem)) (by
        intro resource hin changeId hmem hhead'
        rw [TreeSet.contains_insert, Bool.or_eq_true] at hin
        rcases hin with hsame | hin
        · have heq : change.resource = resource := by simpa using hsame
          rw [← heq, hhead] at hhead'
          cases hhead'
          exact (nodup_cons.mp hnodup).1 hmem
        · exact hfresh resource hin changeId (mem_cons_of_mem _ hmem) hhead')
    obtain ⟨out, hout⟩ := hrest
    exact ⟨out, by rw [foldlM_cons, hfirst]; exact hout⟩

theorem validateCandidate_iff :
    k.validateCandidate candidate = .ok () ↔
      ∀ changeId ∈ candidate.changeIds, Eligible k changeId := by
  unfold TransactionKernel.validateCandidate
  constructor
  · intro h
    obtain ⟨_, hfold, -⟩ := bind_eq_ok.mp h
    exact foldlM_validateCandidateChange _ hfold
  · intro h
    obtain ⟨out, hout⟩ := foldlM_validateCandidateChange_ok candidate.changeIds ∅ candidate.nodup h
      (fun resource hin => by simp at hin)
    rw [hout]
    rfl

/-- A candidate has at most one change on each resource. -/
theorem Eligible.unique {a b : ChangeId} {x y : ChangeRecord V} (ha : Eligible k a)
    (hb : Eligible k b) (hx : k.changes[a]? = some x) (hy : k.changes[b]? = some y)
    (hsame : x.resource = y.resource) : a = b := by
  obtain ⟨x', hx', _, hheadA⟩ := ha
  obtain ⟨y', hy', _, hheadB⟩ := hb
  rw [hx] at hx'
  rw [hy] at hy'
  cases hx'
  cases hy'
  rw [hsame, hheadB] at hheadA
  exact (Option.some.inj hheadA).symm

/-! ## Checks that change nothing -/

/-- How a public call may fail before it has moved the focus of the kernel. -/
structure Retreat (m t : Machine V W ω) : Prop where
  live : ∃ st, Live t st
  active : t.kernel.activeCandidate = m.kernel.activeCandidate
  unpromoted : ∀ (changeId : ChangeId) new, t.kernel.changes[changeId]? = some new →
    new.state = .candidateApplied →
    ∃ old, m.kernel.changes[changeId]? = some old ∧ old.state = .candidateApplied

theorem Retreat.refl (hlive : Live m st) : Retreat m m :=
  ⟨⟨st, hlive⟩, rfl, fun _ new hget hstate => ⟨new, hget, hstate⟩⟩

theorem Setback.retreat (h : Setback changeId m t) : Retreat m t := by
  refine ⟨h.live, h.touches.active, ?_⟩
  intro other new hget hstate
  by_cases heq : other = changeId
  · subst heq
    exact h.unpromoted new hget hstate
  · exact ⟨new, (h.touches.others other heq).symm.trans hget, hstate⟩

theorem Retreat.of_kernel_eq (h : Retreat t u) (hkernel : t.kernel = m.kernel) : Retreat m u := by
  refine ⟨h.live, ?_, ?_⟩
  · rw [← hkernel]
    exact h.active
  · rw [← hkernel]
    exact h.unpromoted

/-- A readback that found what it expected. -/
def Event.Matched (event : Event V W ω) : Prop :=
  ∃ changeId request verification,
    event.call = .verify changeId request (.answered (.ok verification)) ∧
      verification.matched = true

/-- The second machine has only read resources back since the first one. -/
structure Rechecked (m t : Machine V W ω) : Prop where
  extend : Extends m t
  kernel : t.kernel = m.kernel
  log : t.log = m.log
  views : ∀ view, Truthful view m.kernel.capabilities → view t.world = view m.world
  matched : ∀ event ∈ newEvents m t, event.Matched

theorem Rechecked.refl (m : Machine V W ω) : Rechecked m m := by
  refine ⟨.refl m, rfl, rfl, fun _ _ => rfl, ?_⟩
  rw [newEvents_self]
  exact fun _ hmem => nomatch hmem

theorem Rechecked.trans (h : Rechecked m t) (h' : Rechecked t u) : Rechecked m u := by
  refine ⟨h.extend.trans h'.extend, h'.kernel.trans h.kernel, h'.log.trans h.log, ?_, ?_⟩
  · intro view htruthful
    rw [h'.views view (by rw [h.kernel]; exact htruthful), h.views view htruthful]
  · rw [newEvents_trans h.extend h'.extend]
    intro event hmem
    rcases mem_append.mp hmem with hmem | hmem
    · exact h.matched event hmem
    · exact h'.matched event hmem

theorem Rechecked.live (h : Rechecked m t) (hlive : Live m st) : Live t st := by
  refine hlive.update_of_eq h.log ?_ ?_ ?_ ?_ ?_ ?_ ?_ ?_ <;> rw [h.kernel]

theorem Rechecked.holds (h : Rechecked m t) {resource : ResourceKey} :
    Holds t resource value ↔ Holds m resource value := by
  constructor
  · intro hholds view htruthful
    rw [← h.views view htruthful]
    exact hholds view (by rw [h.kernel]; exact htruthful)
  · intro hholds view htruthful
    rw [h.kernel] at htruthful
    rw [h.views view htruthful]
    exact hholds view htruthful

theorem rechecked_called {request : MutationVerifyRequest V} {verification : MutationVerification V}
    {w' : W}
    (hanswers : Answers m.kernel.capabilities m.world
      (.verify changeId request (.answered (.ok verification))) w')
    (hmatched : verification.matched = true) :
    Rechecked m (m.called (.verify changeId request (.answered (.ok verification))) w') := by
  refine ⟨extends_called m _ w', rfl, Machine.called_log rfl, ?_, ?_⟩
  · exact fun view htruthful => htruthful.verify_view hanswers
  · rw [newEvents_called]
    intro event hmem
    rw [mem_singleton.mp hmem]
    exact ⟨changeId, request, verification, rfl, hmatched⟩

/-- The events hold a matching readback of the change. -/
def ReadBack (changeId : ChangeId) (prepared : PreparedMutation V) (expected : ExpectedState)
    (events : List (Event V W ω)) : Prop :=
  ∃ event ∈ events, ∃ operationId verification,
    event.call = .verify changeId ⟨operationId, prepared, expected.select prepared⟩
      (.answered (.ok verification)) ∧ verification.matched = true

theorem ReadBack.mono {prepared : PreparedMutation V} {events events' : List (Event V W ω)}
    (h : ReadBack changeId prepared expected events) (hsubset : events ⊆ events') :
    ReadBack changeId prepared expected events' := by
  obtain ⟨event, hmem, hfacts⟩ := h
  exact ⟨event, hsubset hmem, hfacts⟩

/-- One readback that must match, seen from the start of a loop of such readbacks. -/
theorem ensureExpected_recheck (hlive : Live m st) (hrechecked : Rechecked m t)
    (hget : m.kernel.changes[changeId]? = some change) :
    Follows (kernelSystem P) (ensureExpected changeId expected) t
      (fun _ u => Rechecked t u ∧ ReadBack changeId change.prepared expected (newEvents t u) ∧
        Holds m change.resource (expected.select change.prepared).value)
      (fun _ u => Retreat m u) := by
  have hgetT : t.kernel.changes[changeId]? = some change := by
    rw [hrechecked.kernel]
    exact hget
  refine ensureExpected_follows (hrechecked.live hlive) hgetT ?_ ?_
  · intro operationId verification w' call hanswers _ _ hmatched
    have hcalled := rechecked_called hanswers hmatched
    refine ⟨hcalled, ?_, ?_⟩
    · rw [newEvents_called]
      exact ⟨_, mem_singleton.mpr rfl, operationId, verification, rfl, hmatched⟩
    · rw [← (hrechecked.trans hcalled).holds]
      exact holds_of_matched (hlive.wellFormed hget).resource hanswers hmatched
  · intro e u hsetback _ _
    exact hsetback.retreat.of_kernel_eq hrechecked.kernel

/-- A loop over all changes whose body only reads back. What the body finds out about a record in
its own events is known of all the records at the end. -/
theorem recheckAll_follows {f : ChangeId → KernelM V W ω Unit}
    {F : ChangeId → ChangeRecord V → List (Event V W ω) → Prop}
    {E : TransactionError → Machine V W ω → Prop} (hlive : Live m st)
    (hmono : ∀ changeId change events events', events ⊆ events' → F changeId change events →
      F changeId change events')
    (hbody : ∀ (changeId : ChangeId) change t, m.kernel.changes[changeId]? = some change →
      Rechecked m t → Follows (kernelSystem P) (f changeId) t
        (fun _ u => Rechecked t u ∧ F changeId change (newEvents t u)) E) :
    Follows (kernelSystem P) (m.kernel.changeOrder.forM f) m
      (fun _ t => Rechecked m t ∧ ∀ (changeId : ChangeId) change,
        m.kernel.changes[changeId]? = some change → F changeId change (newEvents m t)) E := by
  refine (Follows.forM (fun rest t => Rechecked m t ∧ ∃ done, m.kernel.changeOrder = done ++ rest ∧
    ∀ changeId ∈ done, ∀ change, m.kernel.changes[changeId]? = some change →
      F changeId change (newEvents m t)) _
    ⟨.refl m, [], rfl, fun _ hmem => nomatch hmem⟩ ?_).conseq ?_ (fun _ _ _ h => h)
  · rintro changeId rest t - ⟨hrechecked, done, hids, hdone⟩
    have hmem : changeId ∈ m.kernel.changeOrder := by
      rw [hids]
      exact mem_append_right _ mem_cons_self
    obtain ⟨change, hget⟩ := hlive.table.exists_record hmem
    refine (hbody changeId change t hget hrechecked).conseq ?_ (fun _ _ _ h => h)
    rintro _ u - ⟨hrechecked', hfound⟩
    refine ⟨hrechecked.trans hrechecked', done ++ [changeId], by simp [hids], ?_⟩
    intro other hother record hrecord
    rw [newEvents_trans hrechecked.extend hrechecked'.extend]
    rcases mem_append.mp hother with hother | hother
    · exact hmono other record _ _ (subset_append_left _ _) (hdone other hother record hrecord)
    · obtain rfl := mem_singleton.mp hother
      rw [hget] at hrecord
      cases hrecord
      exact hmono other change _ _ (subset_append_right _ _) hfound
  · rintro _ t - ⟨hrechecked, done, hids, hdone⟩
    rw [append_nil] at hids
    subst hids
    exact ⟨hrechecked, fun changeId change hget =>
      hdone changeId (hlive.table.mem_order hget) change hget⟩

/-! ## Acting on the changes of a candidate -/

/-- What a loop over the changes of a candidate has done when `rest` is left to visit. -/
structure CandidateLoop (candidate : Candidate) (m : Machine V W ω) (rest : List ChangeId)
    (t : Machine V W ω) : Prop where
  extend : Extends m t
  live : ∃ st, Live t st
  order : t.kernel.changeOrder = m.kernel.changeOrder
  heads : t.kernel.resourceHeads = m.kernel.resourceHeads
  active : t.kernel.activeCandidate = m.kernel.activeCandidate
  remaining : ∃ done, candidate.changeIds = done ++ rest
  untouched : ∀ changeId : ChangeId, changeId ∉ candidate.changeIds ∨ changeId ∈ rest →
    t.kernel.changes[changeId]? = m.kernel.changes[changeId]? ∧
      (pendingIn t.log)[changeId]? = (pendingIn m.log)[changeId]?
  applied : ∀ changeId ∈ candidate.changeIds, changeId ∉ rest →
    (∃ old new, m.kernel.changes[changeId]? = some old ∧ t.kernel.changes[changeId]? = some new ∧
      new.identity = old.identity ∧ new.state = .candidateApplied ∧
      new.experimentVerified = true) ∧ (pendingIn t.log)[changeId]? = none
  elsewhere : ∀ view, Truthful view m.kernel.capabilities → ∀ resource,
    (∀ changeId ∈ candidate.changeIds, changeId ∉ rest → ∀ old,
      m.kernel.changes[changeId]? = some old → old.resource ≠ resource) →
    view t.world resource = view m.world resource

theorem CandidateLoop.start (candidate : Candidate) (hlive : Live m st) :
    CandidateLoop candidate m candidate.changeIds m where
  extend := .refl m
  live := ⟨st, hlive⟩
  order := rfl
  heads := rfl
  active := rfl
  remaining := ⟨[], rfl⟩
  untouched _ _ := ⟨rfl, rfl⟩
  applied _ hmem hnot := absurd hmem hnot
  elsewhere _ _ _ _ := rfl

variable {rest : List ChangeId}

section Loop

variable (h : CandidateLoop candidate m (changeId :: rest) t)
include h

theorem CandidateLoop.mem : changeId ∈ candidate.changeIds ∧ changeId ∉ rest := by
  obtain ⟨done, hdone⟩ := h.remaining
  have hnodup := candidate.nodup
  rw [hdone] at hnodup
  constructor
  · rw [hdone]
    exact mem_append_right _ mem_cons_self
  · exact (nodup_cons.mp (nodup_append.mp hnodup).2.1).1

theorem CandidateLoop.next (hlive : Live m st) (hget : m.kernel.changes[changeId]? = some change)
    (hreached : Reached changeId .candidateApplied t u)
    (hpending : (pendingIn u.log)[changeId]? = none) : CandidateLoop candidate m rest u := by
  have htouches := hreached.touches
  obtain ⟨hmem, hfresh⟩ := h.mem
  obtain ⟨done, hdone⟩ := h.remaining
  have hgetT : t.kernel.changes[changeId]? = some change :=
    (h.untouched changeId (.inr mem_cons_self)).1.trans hget
  refine ⟨h.extend.trans htouches.extend, hreached.live, htouches.order.trans h.order,
    htouches.heads.trans h.heads, htouches.active.trans h.active,
    ⟨done ++ [changeId], by simp [hdone]⟩, ?_, ?_, ?_⟩
  · intro other hother
    have hne : other ≠ changeId := by
      rintro rfl
      rcases hother with hother | hother
      · exact hother hmem
      · exact hfresh hother
    obtain ⟨hsame, hsamePending⟩ :=
      h.untouched other (hother.imp_right (mem_cons_of_mem _))
    exact ⟨(htouches.others other hne).trans hsame, (htouches.pending other hne).trans hsamePending⟩
  · intro other hother hvisited
    by_cases heq : other = changeId
    · subst heq
      obtain ⟨record, hrecord, hstate, hverified⟩ := hreached.state
      obtain ⟨new, hnew, hsame, _⟩ := htouches.identity change hgetT
      rw [hrecord] at hnew
      cases hnew
      exact ⟨⟨change, record, hget, hrecord, hsame, hstate, hverified⟩, hpending⟩
    · have hnot : other ∉ changeId :: rest := by
        rw [mem_cons, not_or]
        exact ⟨heq, hvisited⟩
      obtain ⟨⟨old, new, hold, hnew, hfacts⟩, hnone⟩ := h.applied other hother hnot
      exact ⟨⟨old, new, hold, (htouches.others other heq).trans hnew, hfacts⟩,
        (htouches.pending other heq).trans hnone⟩
  · intro view htruthful resource hnone
    have hne : resource ≠ change.prepared.resource := by
      rw [← (hlive.wellFormed hget).resource]
      exact (hnone changeId hmem hfresh change hget).symm
    rw [htouches.elsewhere change hgetT view (by rw [h.extend.capabilities]; exact htruthful)
      resource hne]
    refine h.elsewhere view htruthful resource ?_
    intro other hother hnot old hold
    exact hnone other hother (fun hin => hnot (mem_cons_of_mem _ hin)) old hold

/-- The resource of a change that is left to visit is still as it was. -/
theorem CandidateLoop.holds (hvalid : ∀ changeId ∈ candidate.changeIds, Eligible m.kernel changeId)
    (hget : m.kernel.changes[changeId]? = some change) (hholds : Holds m change.resource value) :
    Holds t change.resource value := by
  intro view htruthful
  rw [h.extend.capabilities] at htruthful
  rw [h.elsewhere view htruthful change.resource ?_]
  · exact hholds view htruthful
  · intro other hother hvisited old hold hsame
    have heq := (hvalid other hother).unique (hvalid changeId h.mem.1) hold hget hsame
    exact hvisited (heq ▸ mem_cons_self)

end Loop

end ScxAgent
