import ScxAgent.ApplyRules

/-!
# Restoring every change

`restore_baseline` and `rollback_all` visit the changes from the newest to the oldest, so the head
of a resource comes before the changes it superseded. If the drivers are honest and each
resource is at the baseline or at the desired value of its head, the loop fails only when a call
does not succeed.
-/

set_option linter.unusedSectionVars false

namespace ScxAgent

open Std StepLogic List Follows

variable {V W ω : Type} [DecidableEq V] [Serialize V] [Sha256] [TransactionWal V ω] [Inhabited V]
  {P : Permit V W ω} {m t u : Machine V W ω} {st : Replay V} {state : ChangeState}
  {changeId : ChangeId} {rest : List ChangeId} {change : ChangeRecord V}

/-- Every resource is where its head can be restored from. -/
def Consistent (view : W → ResourceKey → V) (m : Machine V W ω) : Prop :=
  ∀ (changeId : ChangeId) change, m.kernel.changes[changeId]? = some change →
    m.kernel.resourceHeads[change.resource]? = some changeId →
    view m.world change.resource = change.prepared.baseline.value ∨
      view m.world change.resource = change.prepared.desired.value ∧ change.state ≠ .rolledBack

/-- What a loop over `changes` has done when `rest` is left to visit. -/
structure RestoreLoop (state : ChangeState) (m : Machine V W ω) (rest : List ChangeId)
    (t : Machine V W ω) : Prop where
  extend : Extends m t
  live : ∃ st, Live t st
  order : t.kernel.changeOrder = m.kernel.changeOrder
  heads : t.kernel.resourceHeads = m.kernel.resourceHeads
  remaining : ∃ done, m.kernel.changeOrder.reverse = done ++ rest
  identity : ∀ (changeId : ChangeId) old, m.kernel.changes[changeId]? = some old →
    ∃ new, t.kernel.changes[changeId]? = some new ∧ new.identity = old.identity
  untouched : ∀ changeId ∈ rest, t.kernel.changes[changeId]? = m.kernel.changes[changeId]? ∧
    firstReadback changeId (newEvents m t) = none ∧
    (pendingIn t.log)[changeId]? = (pendingIn m.log)[changeId]?
  restored : ∀ (changeId : ChangeId) old, m.kernel.changes[changeId]? = some old →
    changeId ∉ rest →
    (∃ record, t.kernel.changes[changeId]? = some record ∧ record.state = state) ∧
    Holds t old.resource old.prepared.baseline.value ∧
    ∃ matched, firstReadback changeId (newEvents m t) = some matched ∧
      (pendingIn t.log)[changeId]? = if matched then (pendingIn m.log)[changeId]? else none
  elsewhere : ∀ view, Truthful view m.kernel.capabilities → ∀ resource,
    (∀ (changeId : ChangeId) old, m.kernel.changes[changeId]? = some old → changeId ∉ rest →
      old.resource ≠ resource) → view t.world resource = view m.world resource

theorem RestoreLoop.start (state : ChangeState) (hlive : Live m st) :
    RestoreLoop state m m.kernel.changeOrder.reverse m where
  extend := Extends.refl m
  live := ⟨st, hlive⟩
  order := rfl
  heads := rfl
  remaining := ⟨[], rfl⟩
  identity _ old hold := ⟨old, hold, rfl⟩
  untouched changeId _ := ⟨rfl, by rw [newEvents_self]; rfl, rfl⟩
  restored changeId old hold hdone :=
    absurd (mem_reverse.mpr (hlive.table.mem_order hold)) hdone
  elsewhere _ _ _ _ := rfl

theorem RestoreLoop.next (hlive : Live m st) (h : RestoreLoop state m (changeId :: rest) t)
    (hchange : m.kernel.changes[changeId]? = some change)
    (hreturned : Returned changeId change state t u)
    (hread : ∃ matched, firstReadback changeId (newEvents t u) = some matched ∧
      (pendingIn u.log)[changeId]? = if matched then (pendingIn t.log)[changeId]? else none) :
    RestoreLoop state m rest u := by
  have htouches := hreturned.touches
  have hget : t.kernel.changes[changeId]? = some change :=
    (h.untouched changeId mem_cons_self).1.trans hchange
  obtain ⟨done, hdone⟩ := h.remaining
  have hnodup : (done ++ changeId :: rest).Nodup := by
    rw [← hdone]
    exact nodup_reverse.mpr hlive.table.nodup
  have hfresh : changeId ∉ rest := (nodup_cons.mp (nodup_append.mp hnodup).2.1).1
  have hcaps : u.kernel.capabilities = m.kernel.capabilities :=
    htouches.extend.capabilities.trans h.extend.capabilities
  have hresource := (hlive.wellFormed hchange).resource
  have hevents := newEvents_trans h.extend htouches.extend
  have hafter : ∀ view, Truthful view m.kernel.capabilities → ∀ resource,
      resource ≠ change.resource → view u.world resource = view t.world resource := by
    intro view htruthful resource hne
    refine htouches.elsewhere change hget view ?_ resource ?_
    · rw [h.extend.capabilities]
      exact htruthful
    · rw [← hresource]
      exact hne
  refine ⟨h.extend.trans htouches.extend, hreturned.live, htouches.order.trans h.order,
    htouches.heads.trans h.heads, ⟨done ++ [changeId], by simp [hdone]⟩, ?_, ?_, ?_, ?_⟩
  · intro other old hold
    obtain ⟨mid, hmid, hsame⟩ := h.identity other old hold
    by_cases heq : other = changeId
    · subst heq
      obtain ⟨new, hnew, hsame', _⟩ := htouches.identity mid hmid
      exact ⟨new, hnew, hsame'.trans hsame⟩
    · exact ⟨mid, (htouches.others other heq).trans hmid, hsame⟩
  · intro other hmem
    have hne : other ≠ changeId := fun heq => hfresh (heq ▸ hmem)
    obtain ⟨hsame, hunread, hpending⟩ := h.untouched other (mem_cons_of_mem _ hmem)
    refine ⟨(htouches.others other hne).trans hsame, ?_, (htouches.pending other hne).trans hpending⟩
    rw [hevents, firstReadback_append, hunread, htouches.reads other hne]
    rfl
  · intro other old hold hother
    by_cases heq : other = changeId
    · subst heq
      rw [hchange] at hold
      cases hold
      obtain ⟨_, hunread, hpending⟩ := h.untouched other mem_cons_self
      obtain ⟨matched, hmatched, hpending'⟩ := hread
      refine ⟨hreturned.state, hreturned.holds, matched, ?_, ?_⟩
      · rw [hevents, firstReadback_append, hunread, hmatched]
        rfl
      · rw [hpending', hpending]
    · have hnot : other ∉ changeId :: rest := by
        rw [mem_cons, not_or]
        exact ⟨heq, hother⟩
      obtain ⟨⟨record, hrecord, hstate⟩, hholds, matched, hmatched, hpending⟩ :=
        h.restored other old hold hnot
      refine ⟨⟨record, (htouches.others other heq).trans hrecord, hstate⟩, ?_, matched, ?_, ?_⟩
      · intro view htruthful
        by_cases hsame : old.resource = change.resource
        · -- both changes started from one baseline
          have horigin := hlive.table.shared change.resource _
            (hsame ▸ hlive.table.mem_revisions_of_record hold) _
            (hlive.table.mem_revisions_of_record hchange)
          have hbaseline : old.prepared.baseline = change.prepared.baseline := horigin.1
          rw [hsame, hbaseline]
          exact hreturned.holds view htruthful
        · rw [hcaps] at htruthful
          rw [hafter view htruthful _ hsame]
          refine hholds view ?_
          rw [h.extend.capabilities]
          exact htruthful
      · rw [hevents, firstReadback_append, hmatched]
        rfl
      · rw [htouches.pending other heq, hpending]
  · intro view htruthful resource hnone
    have hne : resource ≠ change.resource := fun heq =>
      hnone changeId change hchange hfresh heq.symm
    rw [hafter view htruthful resource hne]
    refine h.elsewhere view htruthful resource ?_
    intro other old hold hnot
    exact hnone other old hold fun hmem => hnot (mem_cons_of_mem _ hmem)

/-- In a consistent world the next change to visit finds its resource at its baseline, or,
if it is a head that is not rolled back, at its desired value. -/
theorem RestoreLoop.restorable (hlive : Live m st) (h : RestoreLoop state m (changeId :: rest) t)
    (hchange : m.kernel.changes[changeId]? = some change) {view : W → ResourceKey → V}
    (htruthful : Truthful view m.kernel.capabilities) (hconsistent : Consistent view m) :
    view t.world change.resource = change.prepared.baseline.value ∨
      view t.world change.resource = change.prepared.desired.value ∧
        change.state ≠ .rolledBack := by
  obtain ⟨done, hdone⟩ := h.remaining
  have hsplit : m.kernel.changeOrder = rest.reverse ++ changeId :: done.reverse := by
    have hreversed := congrArg reverse hdone
    simpa using hreversed
  have hnodup := hlive.table.nodup
  rw [hsplit] at hnodup
  obtain ⟨headId, head, hhead, hheadGet, hheadResource, horigin⟩ :=
    hlive.table.exists_head hchange
  rcases hlive.table.head_eq_or_mem hsplit hchange hhead with heq | hback
  · -- the head itself: no change on its resource has been visited
    subst heq
    have hsame : view t.world change.resource = view m.world change.resource := by
      refine h.elsewhere view htruthful change.resource ?_
      intro other old hold hvisited hresource
      have hmem := hlive.table.mem_order hold
      rw [hsplit, mem_append, mem_cons] at hmem
      rw [mem_cons, not_or] at hvisited
      rcases hmem with hmem | hmem | hmem
      · exact hvisited.2 (mem_reverse.mp hmem)
      · exact hvisited.1 hmem
      · obtain ⟨front, back, hfront⟩ := append_of_mem hmem
        have hsplit' : m.kernel.changeOrder =
            (rest.reverse ++ headId :: front) ++ other :: back := by
          rw [hsplit, hfront, append_assoc, cons_append]
        have hcases := hlive.table.head_eq_or_mem hsplit' hold (by rw [hresource]; exact hhead)
        have hlater : headId ∈ done.reverse := by
          rw [hfront]
          rcases hcases with heq | hin
          · rw [heq]
            exact mem_append_right _ mem_cons_self
          · exact mem_append_right _ (mem_cons_of_mem _ hin)
        have hunique := (nodup_cons.mp (nodup_append.mp hnodup).2.1).1
        exact hunique hlater
    rw [hsame]
    exact hconsistent headId change hchange hhead
  · -- a superseded change: its head has been restored before it
    have hvisited : headId ∉ changeId :: rest := by
      rw [nodup_append] at hnodup
      intro hmem
      rcases mem_cons.mp hmem with heq | hmem
      · exact (nodup_cons.mp hnodup.2.1).1 (heq ▸ hback)
      · exact hnodup.2.2 headId (mem_reverse.mpr hmem) headId
          (mem_cons_of_mem _ hback) rfl
    have hholds := (h.restored headId head hheadGet hvisited).2.1
    have hbaseline : change.prepared.baseline = head.prepared.baseline := horigin.1
    left
    rw [hbaseline, ← hheadResource]
    refine hholds view ?_
    rw [h.extend.capabilities]
    exact htruthful

/-- How a restoring call may fail. -/
def RestoreFailure (m t : Machine V W ω) : Prop :=
  (∃ st, Live t st) ∧
    ∀ view, Honest view m.kernel.capabilities → Consistent view m → Troubled m t

theorem restoreAll_follows (hlive : Live m st) (hrestoring : state.restoring) :
    Follows (kernelSystem P) (m.kernel.changeOrder.reverse.forM fun changeId =>
      restoreOne changeId state) m (fun _ t => RestoreLoop state m [] t)
      (fun _ t => RestoreFailure m t) := by
  refine forM (RestoreLoop state m) _ (.start state hlive) ?_
  intro changeId rest t hsteps hloop
  obtain ⟨st', hlive'⟩ := hloop.live
  obtain ⟨done, hdone⟩ := hloop.remaining
  have hmem : changeId ∈ m.kernel.changeOrder := by
    rw [← mem_reverse, hdone]
    exact mem_append_right _ mem_cons_self
  obtain ⟨change, hchange⟩ := hlive.table.exists_record hmem
  have hget : t.kernel.changes[changeId]? = some change :=
    (hloop.untouched changeId mem_cons_self).1.trans hchange
  refine (restoreOne_follows hlive' hget hrestoring).conseq ?_ ?_
  · intro _ u _ ⟨hreturned, hread⟩
    exact hloop.next hlive hchange hreturned hread
  · intro e u hsteps' ⟨hsetback, hreason⟩
    refine ⟨hsetback.live, fun view hhonest hconsistent => ?_⟩
    rcases hreason view (by rw [hloop.extend.capabilities]; exact hhonest) with
      htrouble | ⟨hbaseline, hother⟩
    · exact htrouble.before hsteps hsteps'
    · exfalso
      rcases hloop.restorable hlive hchange hhonest.toTruthful hconsistent with
        hvalue | ⟨hvalue, hstate⟩
      · exact hbaseline hvalue
      · rcases hother with ⟨hrolled, _⟩ | hdesired
        · exact hstate hrolled
        · exact hdesired hvalue

/-! ## The public calls -/

theorem restoreBaseline_follows (hlive : Live m st) (hfocus : P.focus none) :
    Follows (kernelSystem P) restoreBaseline m
      (fun _ t => ∃ u, RestoreLoop .baselineRestored m [] u ∧ t = u.update (·.focus none))
      (fun _ t => RestoreFailure m t) := by
  refine seq (ensureOpen_follows hlive ?_)
  refine bind_read (kernel_run m) (bind (restoreAll_follows hlive (.inl rfl)) ?_)
  intro _ u hsteps hloop
  have hstep : (kernelSystem P).step u (u.update (·.focus none)) := Step.focus none hfocus
  refine seq (assign hstep (bind_read (kernel_run _) ?_))
  exact pure ⟨u, hloop, rfl⟩

/-- The machine that `rollback_all` seals, and the one it leaves. -/
structure RolledBack (m u t : Machine V W ω) : Prop where
  loop : RestoreLoop .rolledBack m [] u
  sealed : ∃ wal, t = ((u.update (·.focus none)).appended (.sealed .rolledBack)
    (.answered (.ok ())) wal).update fun k => k.sealAs .rolledBack

theorem rollbackAll_follows (hlive : Live m st) (hfocus : P.focus none) :
    Follows (kernelSystem P) rollbackAll m (fun _ t => ∃ u, RolledBack m u t)
      (fun _ t => RestoreFailure m t) := by
  refine seq (ensureOpen_follows hlive ?_)
  have hnone : (m.kernel.changes.toList.any fun entry => entry.2.state == .finalized) = false := by
    rw [any_eq_false]
    intro entry hmem
    have hget := TreeMap.mem_toList_iff_getElem?_eq_some.mp hmem
    simpa using hlive.unfinished hget
  refine bind_read (kernel_run m) ?_
  rw [hnone]
  refine bind_read (kernel_run m) (bind (restoreAll_follows hlive (.inr rfl)) ?_)
  intro _ u hsteps hloop
  obtain ⟨st', hlive'⟩ := hloop.live
  have hstep : (kernelSystem P).step u (u.update (·.focus none)) := Step.focus none hfocus
  refine seq (assign hstep (seq
    (sealWith_follows (hlive'.focused none) ?_ ?_ ?_)))
  · intro changeId record hget
    have hmem : changeId ∈ m.kernel.changeOrder := by
      rw [← hloop.order]
      exact hlive'.table.mem_order hget
    obtain ⟨old, hold⟩ := hlive.table.exists_record hmem
    obtain ⟨⟨record', hrecord', hstate⟩, _⟩ := hloop.restored changeId old hold (not_mem_nil)
    have hsame : some record = some record' := hget.symm.trans hrecord'
    cases hsame
    exact hstate
  · intro wal sealed _
    exact bind_read (kernel_run _) (pure ⟨u, hloop, wal, rfl⟩)
  · intro e error wal refused hstepsR
    refine ⟨⟨st', (hlive'.focused none).refused _ error wal⟩, fun _ _ _ => ?_⟩
    exact (troubled_refused _ error wal).before (hsteps.trans (.single hstep)) hstepsR

end ScxAgent
