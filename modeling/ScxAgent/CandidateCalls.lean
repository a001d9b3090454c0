import ScxAgent.CandidateRules

/-!
# `replay_candidate` and `finalize_candidate`

A replay that fails after it has moved the focus leaves a change of its candidate that is not
applied. A commit is attempted only after every driver has acknowledged the finalize in the same
call and every head has been read back once more.
-/

set_option linter.unusedSectionVars false

namespace ScxAgent

open Std StepLogic List Follows

variable {V W ω : Type} [DecidableEq V] [Serialize V] [Sha256] [TransactionWal V ω]
  {P : Permit V W ω} {m t u : Machine V W ω} {st : Replay V} {changeId : ChangeId}
  {change : ChangeRecord V} {candidate : Candidate} {authorization : CommitAuthorization}

/-! ## Replay -/

theorem checkRestored_follows {ids : List ChangeId}
    (hknown : ∀ changeId ∈ ids, ∃ change, m.kernel.changes[changeId]? = some change) :
    Follows (kernelSystem P) (ids.forM checkRestored) m
      (fun _ t => t = m ∧ ∀ changeId ∈ ids, ∀ change, m.kernel.changes[changeId]? = some change →
        change.state = .baselineRestored)
      (fun _ t => t = m) := by
  induction ids with
  | nil => exact pure ⟨rfl, fun _ hmem => nomatch hmem⟩
  | cons changeId rest ih =>
    obtain ⟨change, hget⟩ := hknown changeId mem_cons_self
    have hrest := ih fun other hmem => hknown other (mem_cons_of_mem _ hmem)
    refine seq (bind_read (changeAt_run hget) ?_)
    by_cases hstate : change.state = .baselineRestored
    · simp only [hstate, ne_eq, not_true_eq_false, if_false]
      refine pure (hrest.conseq ?_ (fun _ _ _ h => h))
      rintro _ t - ⟨rfl, hrestored⟩
      refine ⟨rfl, ?_⟩
      intro other hmem record hrecord
      rcases mem_cons.mp hmem with rfl | hmem
      · rw [hget] at hrecord
        cases hrecord
        exact hstate
      · exact hrestored other hmem record hrecord
    · simp only [hstate, ne_eq, not_false_eq_true, if_true]
      exact raise rfl

/-- The machine after a replay that succeeded, and the one whose focus it moved. -/
structure Replayed (candidate : Candidate) (m t : Machine V W ω) : Prop where
  eligible : ∀ changeId ∈ candidate.changeIds, Eligible m.kernel changeId
  restored : ∀ (changeId : ChangeId) change, m.kernel.changes[changeId]? = some change →
    change.state = .baselineRestored
  loop : ∃ u, CandidateLoop candidate u [] t ∧ u.kernel = m.kernel.focus (some candidate) ∧
    u.log = m.log

/-- How a replay may fail. -/
def ReplayFailure (candidate : Candidate) (m t : Machine V W ω) : Prop :=
  Retreat m t ∨ (∃ st, Live t st) ∧ t.kernel.activeCandidate = some candidate ∧
    ∃ changeId ∈ candidate.changeIds, ∀ change, t.kernel.changes[changeId]? = some change →
      change.state ≠ .candidateApplied

section Replays

variable (hlive : Live m st)
include hlive

theorem replayLoop_follows (hpromote : P.promote)
    (heligible : ∀ changeId ∈ candidate.changeIds, Eligible m.kernel changeId)
    (hrestored : ∀ (changeId : ChangeId) change, m.kernel.changes[changeId]? = some change →
      change.state = .baselineRestored ∧
        Holds m change.resource change.prepared.baseline.value) :
    Follows (kernelSystem P) (candidate.changeIds.forM replayChange) m
      (fun _ t => CandidateLoop candidate m [] t)
      (fun _ t => (∃ st, Live t st) ∧ t.kernel.activeCandidate = m.kernel.activeCandidate ∧
        ∃ changeId ∈ candidate.changeIds, ∀ change, t.kernel.changes[changeId]? = some change →
          change.state ≠ .candidateApplied) := by
  refine forM (CandidateLoop candidate m) _ (.start candidate hlive) ?_
  intro changeId rest t _ hloop
  obtain ⟨st', hlive'⟩ := hloop.live
  obtain ⟨change, hget, hverified, hhead⟩ := heligible changeId hloop.mem.1
  obtain ⟨hstate, hholds⟩ := hrestored changeId change hget
  have hgetT : t.kernel.changes[changeId]? = some change :=
    (hloop.untouched changeId (.inr mem_cons_self)).1.trans hget
  refine (replayChange_follows hlive' hgetT hstate hverified (by rw [hloop.heads]; exact hhead)
    (hloop.holds heligible hget hholds) hpromote).conseq ?_ ?_
  · rintro _ u - ⟨hreached, hpending⟩
    exact hloop.next hlive hget hreached hpending
  · intro e u _ hsetback
    refine ⟨hsetback.live, hsetback.touches.active.trans hloop.active, changeId, hloop.mem.1, ?_⟩
    intro new hnew hpromoted
    obtain ⟨old, hold, happlied⟩ := hsetback.unpromoted new hnew hpromoted
    rw [hgetT] at hold
    cases hold
    rw [hstate] at happlied
    cases happlied

theorem replayCandidate_follows (hpromote : P.promote) (hfocus : P.focus (some candidate)) :
    Follows (kernelSystem P) (replayCandidate candidate) m
      (fun _ t => Replayed candidate m t) (fun _ t => ReplayFailure candidate m t) := by
  refine seq (ensureOpen_follows hlive ?_)
  refine bind_read (kernel_run m) (seq (ofExcept ?_ ?_))
  swap
  · exact fun e _ => .inl (.refl hlive)
  intro _ hvalid
  have heligible := validateCandidate_iff.mp hvalid
  have hknown : ∀ changeId ∈ m.kernel.changeOrder, ∃ change,
      m.kernel.changes[changeId]? = some change := fun _ hmem => hlive.table.exists_record hmem
  refine bind_read (kernel_run m) (bind
    ((checkRestored_follows hknown).conseq (fun _ _ _ h => h) ?_) ?_)
  · rintro e t - rfl
    exact .inl (.refl hlive)
  intro _ t _ ⟨hunchanged, hrestored⟩
  rw [hunchanged]
  refine bind ((recheckAll_follows (F := fun _ change _ =>
    Holds m change.resource change.prepared.baseline.value) hlive (fun _ _ _ _ _ h => h) ?_).conseq
    (fun _ _ _ h => h) (fun _ _ _ h => .inl h)) ?_
  · intro changeId change t hget hrechecked
    refine (ensureExpected_recheck hlive hrechecked hget).conseq ?_ (fun _ _ _ h => h)
    rintro _ u - ⟨hrechecked', _, hholds⟩
    exact ⟨hrechecked', hholds⟩
  rintro _ t - ⟨hrechecked, hholds⟩
  -- the focus moves before the first change is replayed
  set v := t.update (·.focus (some candidate)) with hv
  have hliveV : Live v st := (hrechecked.live hlive).focused (some candidate)
  have hkernelV : v.kernel = m.kernel.focus (some candidate) := by
    change t.kernel.focus (some candidate) = _
    rw [hrechecked.kernel]
  have hstep : (kernelSystem P).step t v := Step.focus (some candidate) hfocus
  refine seq (assign hstep (bind
    ((replayLoop_follows hliveV hpromote ?_ ?_).conseq (fun _ _ _ h => h) ?_) ?_))
  · intro changeId hmem
    rw [hkernelV]
    exact heligible changeId hmem
  · intro changeId change hget
    rw [hkernelV] at hget
    have hmem := hlive.table.mem_order hget
    refine ⟨hrestored changeId hmem change hget, ?_⟩
    exact hrechecked.holds.mpr (hholds changeId change hget)
  · rintro e s - ⟨hliveS, hactive, hunapplied⟩
    refine .inr ⟨hliveS, ?_, hunapplied⟩
    rw [hactive, hkernelV]
    rfl
  · intro _ s _ hloop
    refine bind_read (kernel_run s) (pure ⟨heligible, ?_, v, hloop, hkernelV, ?_⟩)
    · intro changeId change hget
      exact hrestored changeId (hlive.table.mem_order hget) change hget
    · exact hrechecked.log

/-! ## Commit -/

/-- What the kernel knows when it attempts to append the commit seal. -/
structure CommitFacts (candidate : Candidate) (authorization : CommitAuthorization)
    (m u : Machine V W ω) : Prop where
  pin : authorization.intentPin = m.kernel.intentPin
  digest : authorization.candidateDigest = candidate.digest
  active : m.kernel.activeCandidate = some candidate
  eligible : ∀ changeId ∈ candidate.changeIds, Eligible m.kernel changeId
  applied : ∀ changeId ∈ candidate.changeIds, ∀ change, m.kernel.changes[changeId]? = some change →
    change.state = .candidateApplied
  loop : ∃ s t, Rechecked m s ∧ CandidateLoop candidate s [] t ∧ Rechecked t u ∧
    (∀ changeId ∈ candidate.changeIds, Acknowledged changeId (newEvents s t)) ∧
    ∀ (changeId : ChangeId) change, u.kernel.changes[changeId]? = some change →
      u.kernel.resourceHeads[change.resource]? = some changeId →
      ReadBack changeId change.prepared (expectedIn candidate changeId) (newEvents t u) ∧
        Holds u change.resource ((expectedIn candidate changeId).select change.prepared).value

theorem checkApplied_follows :
    Follows (kernelSystem P) (m.kernel.changeOrder.forM (checkApplied candidate)) m
      (fun _ t => Rechecked m t ∧ ∀ (changeId : ChangeId) change,
        m.kernel.changes[changeId]? = some change →
        m.kernel.resourceHeads[change.resource]? = some changeId →
        changeId ∈ candidate.changeIds → change.state = .candidateApplied ∧
          Holds m change.resource change.prepared.desired.value)
      (fun _ t => Retreat m t) := by
  refine recheckAll_follows (F := fun changeId change _ =>
    m.kernel.resourceHeads[change.resource]? = some changeId →
    changeId ∈ candidate.changeIds → change.state = .candidateApplied ∧
      Holds m change.resource change.prepared.desired.value) hlive (fun _ _ _ _ _ h => h) ?_
  intro changeId change t hget hrechecked
  have hgetT : t.kernel.changes[changeId]? = some change := by
    rw [hrechecked.kernel]
    exact hget
  refine bind_read (changeAt_run hgetT) (bind_read (kernel_run t) ?_)
  rw [hrechecked.kernel]
  by_cases hhead : m.kernel.resourceHeads[change.resource]? = some changeId
  swap
  · rw [if_pos hhead]
    exact pure ⟨.refl t, fun hheadR => absurd hheadR hhead⟩
  · simp only [ne_eq, hhead, not_true_eq_false, if_false]
    by_cases hbad : candidate.contains changeId = true ∧ ¬ change.state = .candidateApplied
    · rw [if_pos hbad]
      exact raise ((Retreat.refl (hrechecked.live hlive)).of_kernel_eq hrechecked.kernel)
    · rw [if_neg hbad]
      refine (ensureExpected_recheck hlive hrechecked hget).conseq ?_ (fun _ _ _ h => h)
      rintro _ u - ⟨hrechecked', _, hholds⟩
      refine ⟨hrechecked', ?_⟩
      intro _ hin
      have hcontains := Candidate.contains_eq_true.mpr hin
      rw [expectedIn, if_pos hcontains] at hholds
      refine ⟨?_, hholds⟩
      by_contra hstate
      exact hbad ⟨hcontains, hstate⟩

theorem acknowledgeLoop_follows
    (heligible : ∀ changeId ∈ candidate.changeIds, Eligible m.kernel changeId)
    (happlied : ∀ changeId ∈ candidate.changeIds, ∀ change,
      m.kernel.changes[changeId]? = some change → change.state = .candidateApplied ∧
        Holds m change.resource change.prepared.desired.value) :
    Follows (kernelSystem P) (candidate.changeIds.forM acknowledgeFinalize) m
      (fun _ t => CandidateLoop candidate m [] t ∧
        ∀ changeId ∈ candidate.changeIds, Acknowledged changeId (newEvents m t))
      (fun _ t => ∃ st, Live t st) := by
  refine (forM (fun rest t => CandidateLoop candidate m rest t ∧
    ∀ changeId ∈ candidate.changeIds, changeId ∉ rest →
      Acknowledged changeId (newEvents m t)) _
    ⟨.start candidate hlive, fun _ hmem hnot => absurd hmem hnot⟩ ?_).conseq ?_ (fun _ _ _ h => h)
  · rintro changeId rest t - ⟨hloop, hacknowledged⟩
    obtain ⟨st', hlive'⟩ := hloop.live
    obtain ⟨change, hget, _, hhead⟩ := heligible changeId hloop.mem.1
    have hgetT : t.kernel.changes[changeId]? = some change :=
      (hloop.untouched changeId (.inr mem_cons_self)).1.trans hget
    obtain ⟨hstate, hholds⟩ := happlied changeId hloop.mem.1 change hget
    refine (acknowledgeFinalize_follows hlive' hgetT hstate (by rw [hloop.heads]; exact hhead)
      (hloop.holds heligible hget hholds)).conseq ?_ (fun _ _ _ h => h.live)
    rintro _ u - ⟨hreached, hpending, hanswer⟩
    have hevents := newEvents_trans hloop.extend hreached.touches.extend
    refine ⟨hloop.next hlive hget hreached hpending, ?_⟩
    intro other hother hvisited
    rw [hevents]
    by_cases heq : other = changeId
    · subst heq
      obtain ⟨event, hmem, hfacts⟩ := hanswer
      exact ⟨event, mem_append_right _ hmem, hfacts⟩
    · have hnot : other ∉ changeId :: rest := by
        rw [mem_cons, not_or]
        exact ⟨heq, hvisited⟩
      obtain ⟨event, hmem, hfacts⟩ := hacknowledged other hother hnot
      exact ⟨event, mem_append_left _ hmem, hfacts⟩
  · rintro _ t - ⟨hdone, hall⟩
    exact ⟨hdone, fun changeId hmem => hall changeId hmem not_mem_nil⟩

theorem recheckBoundary_follows :
    Follows (kernelSystem P) (m.kernel.changeOrder.forM (recheckBoundary candidate)) m
      (fun _ t => Rechecked m t ∧ ∀ (changeId : ChangeId) change,
        t.kernel.changes[changeId]? = some change →
        t.kernel.resourceHeads[change.resource]? = some changeId →
        ReadBack changeId change.prepared (expectedIn candidate changeId) (newEvents m t) ∧
          Holds t change.resource ((expectedIn candidate changeId).select change.prepared).value)
      (fun _ t => ∃ st, Live t st) := by
  refine (recheckAll_follows (F := fun changeId change events =>
    m.kernel.resourceHeads[change.resource]? = some changeId →
    ReadBack changeId change.prepared (expectedIn candidate changeId) events ∧
      Holds m change.resource ((expectedIn candidate changeId).select change.prepared).value)
    hlive ?_ ?_).conseq ?_ (fun _ _ _ h => h)
  · intro changeId change events events' hsubset h hhead
    exact ⟨(h hhead).1.mono hsubset, (h hhead).2⟩
  · intro changeId change t hget hrechecked
    have hgetT : t.kernel.changes[changeId]? = some change := by
      rw [hrechecked.kernel]
      exact hget
    refine bind_read (changeAt_run hgetT) (bind_read (kernel_run t) ?_)
    rw [hrechecked.kernel]
    by_cases hhead : m.kernel.resourceHeads[change.resource]? = some changeId
    · simp only [ne_eq, hhead, not_true_eq_false, if_false]
      refine (ensureExpected_recheck hlive hrechecked hget).conseq ?_ (fun _ _ _ h => h.live)
      rintro _ u - ⟨hrechecked', hread, hholds⟩
      exact ⟨hrechecked', fun _ => ⟨hread, hholds⟩⟩
    · rw [if_pos hhead]
      exact pure ⟨.refl t, fun hheadR => absurd hheadR hhead⟩
  · rintro _ t - ⟨hrechecked, hall⟩
    refine ⟨hrechecked, ?_⟩
    rw [hrechecked.kernel]
    intro changeId change hget hhead
    obtain ⟨hread, hholds⟩ := hall changeId change hget hhead
    exact ⟨hread, hrechecked.holds.mpr hholds⟩

theorem terminalChanges_run :
    m.kernel.changeOrder.mapM (terminalChange candidate) m =
      (.ok (m.kernel.allChanges.map (terminalOf candidate)), m) := by
  have hmap : ∀ ids : List ChangeId, (∀ changeId ∈ ids, ∃ change,
      m.kernel.changes[changeId]? = some change) →
      ids.mapM (terminalChange candidate) m =
        (.ok ((ids.filterMap fun changeId => m.kernel.changes[changeId]?).map
          (terminalOf candidate)), m) := by
    intro ids
    induction ids with
    | nil => exact fun _ => rfl
    | cons changeId rest ih =>
      intro hknown
      obtain ⟨change, hget⟩ := hknown changeId mem_cons_self
      have hkey := hlive.table.keyed changeId change hget
      have hfirst : terminalChange candidate changeId m =
          (.ok (terminalOf candidate change), m) := by
        refine (bind_ok (changeAt_run hget)).trans ?_
        subst hkey
        rfl
      have hrest := ih fun other hmem => hknown other (mem_cons_of_mem _ hmem)
      rw [mapM_cons, bind_ok hfirst, bind_ok hrest, filterMap_cons, hget]
      rfl
  exact hmap _ fun _ hmem => hlive.table.exists_record hmem

/-- The machine that appends the commit seal, and the one that the seal leaves. -/
structure Committed (candidate : Candidate) (authorization : CommitAuthorization)
    (m u t : Machine V W ω) : Prop where
  facts : CommitFacts candidate authorization m u
  live : ∃ st, Live u st
  sealed : ∃ wal, t = (u.appended (.commitSealed authorization
    (u.kernel.allChanges.map (terminalOf candidate))) (.answered (.ok ())) wal).update
      fun k => k.commit authorization (u.kernel.allChanges.map (terminalOf candidate))

theorem finalizeCandidate_follows
    (hcommit : ∀ u, CommitFacts candidate authorization m u →
      P.commit u authorization candidate) :
    Follows (kernelSystem P) (finalizeCandidate candidate authorization) m
      (fun _ t => ∃ u, Committed candidate authorization m u t) (fun _ t => ∃ st, Live t st) := by
  refine seq (ensureOpen_follows hlive ?_)
  refine bind_read (kernel_run m) (seq (ofExcept ?_ ?_))
  swap
  · exact fun e _ => ⟨st, hlive⟩
  intro _ hvalid
  have heligible := validateCandidate_iff.mp hvalid
  split_ifs with hpin hdigest hactive
  · exact raise ⟨st, hlive⟩
  · exact raise ⟨st, hlive⟩
  · exact raise ⟨st, hlive⟩
  refine bind ((checkApplied_follows hlive).conseq (fun _ _ _ h => h)
    (fun _ _ _ h => h.live)) ?_
  rintro _ s - ⟨hcheckedS, hall⟩
  have happlied : ∀ changeId ∈ candidate.changeIds, ∀ change,
      m.kernel.changes[changeId]? = some change → change.state = .candidateApplied ∧
        Holds m change.resource change.prepared.desired.value := by
    intro changeId hmem change hget
    obtain ⟨change', hget', _, hhead⟩ := heligible changeId hmem
    rw [hget] at hget'
    cases hget'
    exact hall changeId change hget hhead hmem
  have hliveS := hcheckedS.live hlive
  refine bind (acknowledgeLoop_follows hliveS (by rw [hcheckedS.kernel]; exact heligible)
    ?_) ?_
  · rw [hcheckedS.kernel]
    intro changeId hmem change hget
    obtain ⟨hstate, hholds⟩ := happlied changeId hmem change hget
    exact ⟨hstate, hcheckedS.holds.mpr hholds⟩
  rintro _ t - ⟨hloop, hacknowledged⟩
  obtain ⟨stT, hliveT⟩ := hloop.live
  have horder : m.kernel.changeOrder = t.kernel.changeOrder := by
    rw [hloop.order, hcheckedS.kernel]
  rw [horder]
  refine bind (recheckBoundary_follows hliveT) ?_
  rintro _ u - ⟨hcheckedU, hreadbacks⟩
  have hliveU := hcheckedU.live hliveT
  have hfacts : CommitFacts candidate authorization m u :=
    ⟨not_not.mp hpin, not_not.mp hdigest, not_not.mp hactive, heligible,
      fun changeId hmem change hget => (happlied changeId hmem change hget).1, s, t, hcheckedS, hloop, hcheckedU, hacknowledged, hreadbacks⟩
  have hvalidU : u.kernel.validateCandidate candidate = .ok () := by
    refine validateCandidate_iff.mpr ?_
    intro changeId hmem
    obtain ⟨⟨old, new, hold, hnew, hsame, _, hverified⟩, _⟩ :=
      hloop.applied changeId hmem not_mem_nil
    obtain ⟨change, hget, _, hhead⟩ := heligible changeId hmem
    rw [hcheckedS.kernel, hget] at hold
    have hresource : new.resource = change.resource := by
      rw [Option.some.inj hold]
      exact congrArg ChangeIdentity.resource hsame
    refine ⟨new, by rw [hcheckedU.kernel]; exact hnew, hverified, ?_⟩
    rw [hcheckedU.kernel, hloop.heads, hcheckedS.kernel, hresource]
    exact hhead
  have horderU : t.kernel.changeOrder = u.kernel.changeOrder := by rw [hcheckedU.kernel]
  rw [horderU]
  refine bind_read (terminalChanges_run hliveU) (seq
    (commitSeal_follows hliveU hvalidU (hcommit u hfacts) ?_ ?_))
  · intro wal terminal sealed _
    exact bind_read (kernel_run _) (pure ⟨u, hfacts, ⟨stT, hliveU⟩, wal, rfl⟩)
  · intro e error wal refused _
    exact ⟨stT, hliveU.refused _ error wal⟩

end Replays

end ScxAgent
