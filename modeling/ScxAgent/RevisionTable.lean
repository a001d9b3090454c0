import ScxAgent.Succession
import ScxAgent.TransactionLog

/-!
# The table of changes and their revisions

The three accumulators that the kernel, its recovery and the store keep side by side: the
records of the changes, the order in which they were created and the head of every
resource. `RevisionTable` is the invariant that ties them together.
-/

namespace ScxAgent

open Std Succession List Option ChangeRecord

variable {V : Type}

/-! ## Maps with identifiers as keys -/

section Maps

variable {κ β γ : Type} [Ord κ] [TransOrd κ] {m : TreeMap κ β} {k : κ}

theorem size_insert_of_some {old : β} (h : m[k]? = some old) (b : β) :
    (m.insert k b).size = m.size := by
  rw [TreeMap.size_insert, if_pos]
  rw [TreeMap.contains_eq_isSome_getElem?, h]
  rfl

theorem size_insert_of_none (h : m[k]? = none) (b : β) : (m.insert k b).size = m.size + 1 := by
  rw [TreeMap.size_insert, if_neg]
  rw [TreeMap.contains_eq_isSome_getElem?, h]
  exact Bool.false_ne_true

theorem isEmpty_iff_getElem? : m.isEmpty = true ↔ ∀ k : κ, m[k]? = none := by
  simp only [TreeMap.isEmpty_iff_forall_not_mem, TreeMap.mem_iff_isSome_getElem?,
    Bool.not_eq_true, isSome_eq_false_iff, isNone_iff_eq_none]

variable [LawfulEqOrd κ] [DecidableEq κ]

theorem getElem?_insert_eq (m : TreeMap κ β) (k k' : κ) (b : β) :
    (m.insert k b)[k']? = if k = k' then some b else m[k']? := by
  rw [TreeMap.getElem?_insert]
  simp only [LawfulEqCmp.compare_eq_iff_eq]

theorem getElem?_erase_eq (m : TreeMap κ β) (k k' : κ) :
    (m.erase k)[k']? = if k = k' then none else m[k']? := by
  rw [TreeMap.getElem?_erase]
  simp only [LawfulEqCmp.compare_eq_iff_eq]

end Maps

/-! ## Revisions of one resource -/

/-- What never changes in the record of a change. -/
structure ChangeIdentity (V : Type) where
  transactionId : TransactionId
  changeId : ChangeId
  supersedes : Option ChangeId
  capabilityId : CapabilityId
  resource : ResourceKey
  prepared : PreparedMutation V

def ChangeRecord.identity (change : ChangeRecord V) : ChangeIdentity V :=
  ⟨change.transactionId, change.changeId, change.supersedes, change.capabilityId,
    change.resource, change.prepared⟩

def identities (changes : TreeMap ChangeId (ChangeRecord V)) (order : List ChangeId) :
    List (ChangeIdentity V) :=
  order.filterMap fun changeId => (changes[changeId]?).map ChangeRecord.identity

/-- The changes on a resource in the order of their creation. -/
def revisions (changes : TreeMap ChangeId (ChangeRecord V)) (order : List ChangeId)
    (resource : ResourceKey) : List (ChangeIdentity V) :=
  (identities changes order).filter fun change => change.resource = resource

/-- Two changes that one resource can pass through. -/
def SharesOrigin (a b : ChangeIdentity V) : Prop :=
  a.prepared.baseline = b.prepared.baseline ∧ a.capabilityId = b.capabilityId ∧
    a.prepared.provider = b.prepared.provider

theorem SharesOrigin.symm {a b : ChangeIdentity V} (h : SharesOrigin a b) : SharesOrigin b a :=
  ⟨h.1.symm, h.2.1.symm, h.2.2.symm⟩

theorem SharesOrigin.trans {a b c : ChangeIdentity V} (h : SharesOrigin a b)
    (h' : SharesOrigin b c) : SharesOrigin a c :=
  ⟨h.1.trans h'.1, h.2.1.trans h'.2.1, h.2.2.trans h'.2.2⟩

structure RevisionTable (changes : TreeMap ChangeId (ChangeRecord V)) (order : List ChangeId)
    (heads : TreeMap ResourceKey ChangeId) : Prop where
  nodup : order.Nodup
  known : ∀ changeId : ChangeId, changeId ∈ order ↔ (changes[changeId]?).isSome
  size : changes.size = order.length
  keyed : ∀ (changeId : ChangeId) (change : ChangeRecord V), changes[changeId]? = some change →
    change.changeId = changeId
  linked : ∀ resource, Succeeds ChangeIdentity.changeId ChangeIdentity.supersedes none
    (revisions changes order resource)
  head : ∀ resource : ResourceKey, heads[resource]? =
    lineEnd ChangeIdentity.changeId none (revisions changes order resource)
  shared : ∀ resource, ∀ a ∈ revisions changes order resource,
    ∀ b ∈ revisions changes order resource, SharesOrigin a b
  settled : ∀ (changeId : ChangeId) (change : ChangeRecord V), changes[changeId]? = some change →
    change.state.verified = true → heads[change.resource]? = some changeId

section Members

variable {changes : TreeMap ChangeId (ChangeRecord V)} {order : List ChangeId}
  {heads : TreeMap ResourceKey ChangeId} {resource : ResourceKey}

theorem mem_revisions {c : ChangeIdentity V} :
    c ∈ revisions changes order resource ↔
      ∃ changeId ∈ order, ∃ change : ChangeRecord V, changes[changeId]? = some change ∧
        change.identity = c ∧ change.resource = resource := by
  simp only [revisions, identities, mem_filter, mem_filterMap, map_eq_some_iff,
    decide_eq_true_eq]
  constructor
  · rintro ⟨⟨changeId, hmem, change, hget, rfl⟩, hresource⟩
    exact ⟨changeId, hmem, change, hget, rfl, hresource⟩
  · rintro ⟨changeId, hmem, change, hget, rfl, hresource⟩
    exact ⟨⟨changeId, hmem, change, hget, rfl⟩, hresource⟩

theorem RevisionTable.empty : RevisionTable (∅ : TreeMap ChangeId (ChangeRecord V)) [] ∅ := by
  constructor <;> simp [revisions, identities, Succeeds, lineEnd]

variable (T : RevisionTable changes order heads)

include T

variable {change : ChangeRecord V} {changeId : ChangeId}

theorem RevisionTable.mem_order (h : changes[changeId]? = some change) : changeId ∈ order := by
  rw [T.known, h]
  rfl

theorem RevisionTable.exists_record (h : changeId ∈ order) :
    ∃ change, changes[changeId]? = some change :=
  isSome_iff_exists.mp ((T.known changeId).mp h)

theorem RevisionTable.mem_revisions_of_record (h : changes[changeId]? = some change) :
    change.identity ∈ revisions changes order change.resource :=
  mem_revisions.mpr ⟨changeId, T.mem_order h, change, h, rfl, rfl⟩

/-- The head of a resource is a change on that resource. -/
theorem RevisionTable.head_record (h : heads[resource]? = some changeId) :
    ∃ change, changes[changeId]? = some change ∧ change.resource = resource := by
  rw [T.head, lineEnd_eq_getLast, map_eq_some_iff] at h
  obtain ⟨c, hlast, hid⟩ := h
  obtain ⟨changeId', _, change, hget, rfl, hresource⟩ :=
    mem_revisions.mp (mem_of_getLast? hlast)
  have hkey : change.changeId = changeId := hid
  rw [T.keyed changeId' change hget] at hkey
  subst hkey
  exact ⟨change, hget, hresource⟩

/-- Every resource of a change has a head. -/
theorem RevisionTable.exists_head (h : changes[changeId]? = some change) :
    ∃ headId head, heads[change.resource]? = some headId ∧ changes[headId]? = some head ∧
      head.resource = change.resource ∧ SharesOrigin change.identity head.identity := by
  have hmem := T.mem_revisions_of_record h
  obtain ⟨last, hlast⟩ : ∃ last, (revisions changes order change.resource).getLast? = some last :=
    isSome_iff_exists.mp (getLast?_isSome.mpr (ne_nil_of_mem hmem))
  have hhead : heads[change.resource]? = some last.changeId := by
    rw [T.head, lineEnd_eq_getLast, hlast]
    rfl
  obtain ⟨head, hget, hresource⟩ := T.head_record hhead
  have hin := T.mem_revisions_of_record hget
  rw [hresource] at hin
  exact ⟨last.changeId, head, hhead, hget, hresource, T.shared _ _ hmem _ hin⟩

/-- The head of a resource is the change on it that was created last. -/
theorem RevisionTable.head_eq_or_mem {front back : List ChangeId} {headId : ChangeId}
    (horder : order = front ++ changeId :: back) (hget : changes[changeId]? = some change)
    (hhead : heads[change.resource]? = some headId) : headId = changeId ∨ headId ∈ back := by
  have hsplit : revisions changes order change.resource =
      revisions changes (front ++ [changeId]) change.resource ++
        revisions changes back change.resource := by
    rw [horder, ← singleton_append, ← append_assoc]
    unfold revisions identities
    rw [filterMap_append, filter_append]
  have hlast : (revisions changes (front ++ [changeId]) change.resource).getLast? =
      some change.identity := by
    unfold revisions identities
    rw [filterMap_append, filter_append]
    simp [hget, identity]
  rw [T.head, lineEnd_eq_getLast, hsplit, map_eq_some_iff] at hhead
  obtain ⟨c, hc, hid⟩ := hhead
  cases hback : revisions changes back change.resource with
  | nil =>
    rw [hback, append_nil, hlast] at hc
    cases hc
    exact .inl (hid.symm.trans (T.keyed changeId change hget))
  | cons first rest =>
    rw [hback, getLast?_append_of_ne_nil _ (cons_ne_nil first rest), ← hback] at hc
    obtain ⟨changeId', hmem, change', hget', rfl, _⟩ := mem_revisions.mp (mem_of_getLast? hc)
    have hkey := T.keyed changeId' change' hget'
    have hsame : change'.changeId = headId := hid
    rw [← hsame, hkey]
    exact .inr hmem

/-- The table survives any change of the records that keeps their identities and leaves
the verified states to the heads. -/
theorem RevisionTable.reidentify {changes' : TreeMap ChangeId (ChangeRecord V)}
    (hidentity : ∀ changeId : ChangeId, (changes'[changeId]?).map identity =
      (changes[changeId]?).map identity)
    (hsize : changes'.size = changes.size)
    (hsettled : ∀ (changeId : ChangeId) (change : ChangeRecord V), changes'[changeId]? = some change →
      change.state.verified = true → heads[change.resource]? = some changeId) :
    RevisionTable changes' order heads := by
  have hrevisions : revisions changes' order = revisions changes order := by
    funext resource
    simp only [revisions, identities, hidentity]
  constructor
  · exact T.nodup
  · intro changeId
    have hsome := congrArg isSome (hidentity changeId)
    rw [isSome_map, isSome_map] at hsome
    rw [T.known, hsome]
  · rw [hsize, T.size]
  · intro changeId change hget
    have hsame := hidentity changeId
    rw [hget, map_some, eq_comm, map_eq_some_iff] at hsame
    obtain ⟨old, hold, hidentical⟩ := hsame
    have hid : old.changeId = change.changeId := congrArg ChangeIdentity.changeId hidentical
    rw [← hid]
    exact T.keyed changeId old hold
  · rw [hrevisions]
    exact T.linked
  · rw [hrevisions]
    exact T.head
  · rw [hrevisions]
    exact T.shared
  · exact hsettled

/-- A new record of a known change. -/
theorem RevisionTable.record {old : ChangeRecord V} (hold : changes[change.changeId]? = some old)
    (hidentity : change.identity = old.identity)
    (hsettled : change.state.verified = true → heads[change.resource]? = some change.changeId) :
    RevisionTable (changes.insert change.changeId change) order heads := by
  refine T.reidentify ?_ (size_insert_of_some hold change) ?_
  · intro changeId
    rw [getElem?_insert_eq]
    split_ifs with h
    · subst h
      rw [hold, map_some, map_some, hidentity]
    · rfl
  · intro changeId c hget hverified
    rw [getElem?_insert_eq] at hget
    split_ifs at hget with h
    · cases hget
      subst h
      exact hsettled hverified
    · exact T.settled changeId c hget hverified

theorem identities_insert_fresh (hfresh : changes[change.changeId]? = none) :
    identities (changes.insert change.changeId change) order = identities changes order := by
  refine filterMap_congr ?_
  intro changeId hmem
  have hne : change.changeId ≠ changeId := by
    rintro rfl
    have hsome := (T.known change.changeId).mp hmem
    rw [hfresh] at hsome
    cases hsome
  rw [getElem?_insert_eq, if_neg hne]

theorem revisions_create (hfresh : changes[change.changeId]? = none) (resource : ResourceKey) :
    revisions (changes.insert change.changeId change) (order ++ [change.changeId]) resource =
      revisions changes order resource ++
        if change.resource = resource then [change.identity] else [] := by
  have hlast : identities (changes.insert change.changeId change) [change.changeId] =
      [change.identity] := by
    simp [identities]
  have hsplit : identities (changes.insert change.changeId change) (order ++ [change.changeId]) =
      identities changes order ++ [change.identity] := by
    rw [← hlast, ← identities_insert_fresh T hfresh]
    exact filterMap_append
  unfold revisions
  rw [hsplit, filter_append]
  congr 1
  by_cases h : change.resource = resource
  · simp [h, identity]
  · simp [h, identity]

/-- The first record of a change that supersedes the head of its resource. -/
theorem RevisionTable.create (hfresh : changes[change.changeId]? = none)
    (hsupersedes : change.supersedes = heads[change.resource]?)
    (hshared : ∀ (previousId : ChangeId) (previous : ChangeRecord V), change.supersedes = some previousId → changes[previousId]? = some previous → SharesOrigin previous.identity change.identity)
    (hunverified : change.state.verified = false)
    (hsettled : ∀ (previousId : ChangeId) (previous : ChangeRecord V), change.supersedes = some previousId → changes[previousId]? = some previous → previous.state.verified = false) :
    RevisionTable (changes.insert change.changeId change) (order ++ [change.changeId])
      (heads.insert change.resource change.changeId) := by
  have hnew : change.changeId ∉ order := by
    rw [T.known, hfresh]
    exact Bool.false_ne_true
  -- every earlier change on the resource shares its origin with the new one
  have horigin : ∀ a ∈ revisions changes order change.resource,
      SharesOrigin a change.identity := by
    intro a ha
    obtain ⟨changeId, _, record, hget, rfl, hresource⟩ := mem_revisions.mp ha
    obtain ⟨headId, head, hhead, hheadGet, _, hsame⟩ := T.exists_head hget
    rw [hresource] at hhead
    exact hsame.trans (hshared headId head (hsupersedes.trans hhead) hheadGet)
  constructor
  · exact nodup_append.mpr ⟨T.nodup, nodup_singleton _, fun a ha b hb hab => hnew (by
      rw [mem_singleton] at hb
      rw [← hb, ← hab]
      exact ha)⟩
  · intro changeId
    rw [mem_append, mem_singleton, getElem?_insert_eq]
    by_cases h : change.changeId = changeId
    · simp [h]
    · simp only [if_neg h, T.known, Ne.symm h, or_false]
  · rw [size_insert_of_none hfresh, T.size, length_append, length_singleton]
  · intro changeId c hget
    rw [getElem?_insert_eq] at hget
    split_ifs at hget with h
    · cases hget
      exact h
    · exact T.keyed changeId c hget
  · intro resource
    rw [revisions_create T hfresh]
    split_ifs with h
    · subst h
      rw [succeeds_concat]
      exact ⟨T.linked _, hsupersedes.trans (T.head _)⟩
    · rw [append_nil]
      exact T.linked resource
  · intro resource
    rw [revisions_create T hfresh, getElem?_insert_eq]
    split_ifs with h
    · rw [lineEnd_concat]
      rfl
    · rw [append_nil]
      exact T.head resource
  · intro resource a ha b hb
    rw [revisions_create T hfresh, mem_append] at ha hb
    rcases ha with ha | ha <;> rcases hb with hb | hb
    · exact T.shared resource a ha b hb
    · split_ifs at hb with h
      · subst h
        rw [mem_singleton] at hb
        subst hb
        exact horigin a ha
      · cases hb
    · split_ifs at ha with h
      · subst h
        rw [mem_singleton] at ha
        subst ha
        exact (horigin b hb).symm
      · cases ha
    · split_ifs at ha hb with h
      · rw [mem_singleton] at ha hb
        subst ha hb
        exact ⟨rfl, rfl, rfl⟩
      · cases ha
  · intro changeId c hget hverified
    rw [getElem?_insert_eq] at hget ⊢
    split_ifs at hget with h
    · cases hget
      rw [hunverified] at hverified
      cases hverified
    · have hhead := T.settled changeId c hget hverified
      split_ifs with hsame
      · rw [← hsame] at hhead
        rw [hsettled changeId c (hsupersedes.trans hhead) hget] at hverified
        cases hverified
      · exact hhead

end Members

end ScxAgent
