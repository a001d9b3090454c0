import ScxAgent.EffectDiscipline

/-!
# Live and recovered kernels

A kernel that is rebuilt from the log of an open transaction has the tables of the live one, and
it knows the state of every change or marks it as unknown. Live or rebuilt, the changes on a
resource form one line of revisions.
-/

set_option linter.unusedSectionVars false

namespace ScxAgent

open Std StepLogic List

variable {V W ω : Type}

section Runs

variable [DecidableEq V] [Serialize V] [Sha256] [TransactionWal V ω] [Inhabited V]
  {env : W → W → Prop} {w₀ : W} {s s' : Stage V W ω} {m t : Machine V W ω} {st : Replay V}
  {P : Permit V W ω}

/-! ## What recovery rebuilds -/

/-- A record of a rebuilt kernel and the one of the live kernel. -/
structure Resembles (rebuilt live : ChangeRecord V) : Prop where
  prepared : rebuilt.prepared = live.prepared
  supersedes : rebuilt.supersedes = live.supersedes
  experimentVerified : rebuilt.experimentVerified = live.experimentVerified
  state : rebuilt.state = live.state ∨ rebuilt.state = .appliedUnknown

structure Rebuilt (k live : TransactionKernel V W ω) : Prop where
  order : k.changeOrder = live.changeOrder
  heads : k.resourceHeads = live.resourceHeads
  records : ∀ changeId : ChangeId,
    Option.Rel Resembles k.changes[changeId]? live.changes[changeId]?

theorem Live.resembles (hlive : Live m st) (changeId : ChangeId) :
    Option.Rel Resembles st.recoveredChanges[changeId]? m.kernel.changes[changeId]? := by
  rw [recoveredChanges_getElem?]
  have hrel := hlive.tracks.records changeId
  cases hlogged : st.changes[changeId]? with
  | none =>
    rw [hlive.tracks.none_iff.mpr hlogged]
    exact .none
  | some logged =>
    obtain ⟨memory, hmemory, hsame, hflag, hstate⟩ := hlive.tracks.remembered hlogged
    have hidentity : (recoverInitialApply (recoverIntent st.pendingIntents[changeId]?
        logged)).identity = memory.identity := by
      rw [recovered_identity, hsame]
    rw [hmemory, Option.map_some]
    refine .some ⟨congrArg ChangeIdentity.prepared hidentity,
      congrArg ChangeIdentity.supersedes hidentity, ?_, ?_⟩
    · rw [recovered_verified, hflag]
    · rcases recovered_state hlogged with ⟨hcertain, hrecovered⟩ | ⟨_, hrecovered⟩
      · rcases hstate with hstate | ⟨_, huncertain⟩
        · exact .inl (hrecovered.trans hstate.symm)
        · exact absurd huncertain hcertain
      · exact .inr hrecovered

theorem Live.rebuilt (hlive : Live m st) {wal : ω} (hload : TransactionWal.load wal = .ok m.log) :
    ∃ k, recover m.kernel.transactionId m.kernel.intentPin m.kernel.capabilities wal = .ok k ∧
      Rebuilt k m.kernel := by
  obtain ⟨candidate, _, hrecover⟩ := hlive.ledger.recover_eq hload
  exact ⟨_, hrecover, hlive.tracks.order.symm, hlive.tracks.heads.symm, hlive.resembles⟩

theorem Sound.live_of_unsealed (hsound : Sound m) (hopen : m.kernel.sealed = none) :
    ∃ st, Live m st := by
  rcases hsound.status with hlive | ⟨front, st, event, hclosed⟩
  · exact hlive
  · exact absurd hopen hclosed.sealed

/-- On an open transaction recovery rebuilds the live kernel from the log, between two calls and
at every point where a crash can stop one. -/
theorem recover_rebuilds_live_kernel (hwal : AllOrNothing ω) (hreach : Reachable env w₀ s) :
    TransactionWal.load s.machine.kernel.wal = .ok s.machine.log ∧
      ∀ m wal, Crashes s.machine m → m.kernel.sealed = none →
        TransactionWal.load wal = .ok m.log →
        ∃ k, recover m.kernel.transactionId m.kernel.intentPin m.kernel.capabilities wal = .ok k ∧
          Rebuilt k m.kernel := by
  refine ⟨hreach.exact hwal, ?_⟩
  intro m wal hcrash hopen hload
  have hsound := hcrash.sound hwal.toAppendOnly (hreach.sound hwal.toAppendOnly)
  obtain ⟨st, hlive⟩ := hsound.live_of_unsealed hopen
  exact hlive.rebuilt hload

end Runs

section RebuildTest

open TestFixture

/-- A restore whose result the log refuses leaves memory and log apart. -/
theorem recover_rebuilds_refused_restore :
    ∃ (s : TestStage) (k : TransactionKernel TestFixture.Json FakeWorld (MemoryWal TestFixture.Json)),
      s.machine.kernel.sealed = none ∧ s.machine.log.length = 4 ∧
      recover s.machine.kernel.transactionId s.machine.kernel.intentPin
        s.machine.kernel.capabilities s.machine.kernel.wal = .ok k ∧
      Rebuilt k s.machine.kernel := by
  obtain ⟨s, hrun, hfacts⟩ := (Option.any_eq_true
    (fun s : TestStage => s.machine.kernel.sealed = none && s.machine.log.length = 4)
    (runTest transactionId [.pass, .pass, .pass, .pass, .refuse] []
      [tryA, .restoreBaseline])).mp (by decide +kernel)
  obtain ⟨hopen, hlength⟩ : s.machine.kernel.sealed = none ∧ s.machine.log.length = 4 := by
    simpa using hfacts
  have hreach : Reachable (fun _ _ => False) (world []) s := (reachable_runTest hrun).1
  obtain ⟨hload, hrebuilds⟩ := recover_rebuilds_live_kernel MemoryWal.allOrNothing hreach
  obtain ⟨k, hrecover, hrebuilt⟩ := hrebuilds s.machine _ (.inl rfl) hopen hload
  exact ⟨s, k, hopen, hlength, hrecover, hrebuilt⟩

end RebuildTest

/-! ## Lines of revisions -/

section Revisions

variable [DecidableEq V] [Serialize V] [Sha256] [TransactionWal V ω] [Inhabited V]
  {env : W → W → Prop} {w₀ : W} {s s' : Stage V W ω} {m t : Machine V W ω} {st : Replay V}
  {P : Permit V W ω}

/-- The revisions of a kernel, the evidence for its experiments and the candidates that it
accepts. -/
structure Revisioned (trace : List (Event V W ω)) (k : TransactionKernel V W ω) : Prop where
  table : RevisionTable k.changes k.changeOrder k.resourceHeads
  evidence : ∀ (changeId : ChangeId) change, k.changes[changeId]? = some change →
    change.experimentVerified = true → FirstApplied trace changeId
  eligible : ∀ candidate, k.validateCandidate candidate = .ok () →
    ∀ changeId ∈ candidate.changeIds, ∃ change, k.changes[changeId]? = some change ∧
      change.experimentVerified = true ∧ k.resourceHeads[change.resource]? = some changeId
  single : ∀ candidate, k.validateCandidate candidate = .ok () →
    ∀ a ∈ candidate.changeIds, ∀ b ∈ candidate.changeIds, ∀ changeA changeB,
      k.changes[a]? = some changeA → k.changes[b]? = some changeB →
      changeA.resource = changeB.resource → a = b

variable {k : TransactionKernel V W ω}

theorem Revisioned.of_table {trace : List (Event V W ω)}
    (htable : RevisionTable k.changes k.changeOrder k.resourceHeads)
    (hevidence : ∀ (changeId : ChangeId) change, k.changes[changeId]? = some change → change.experimentVerified = true → FirstApplied trace changeId) :
    Revisioned trace k where
  table := htable
  evidence := hevidence
  eligible _ hvalid := validateCandidate_iff.mp hvalid
  single _ hvalid a ha b hb _ _ hgetA hgetB hresource :=
    (validateCandidate_iff.mp hvalid a ha).unique (validateCandidate_iff.mp hvalid b hb) hgetA hgetB
      hresource

theorem Sound.revisioned (hsound : Sound m) : Revisioned m.trace m.kernel :=
  .of_table hsound.table fun _ _ hget hverified => hsound.firstApplied hget hverified

variable {entries : List (WalEntry V)} {wal : ω}

/-- Recovery from what is left of the log of a sound machine. -/
theorem Sound.revisioned_of_truncated (hsound : Sound m) (hshorter : entries <+: m.log)
    (hne : entries ≠ []) (hload : TransactionWal.load wal = .ok entries)
    (hrecover : recover m.kernel.transactionId m.kernel.intentPin m.kernel.capabilities wal = .ok k)
    : Revisioned m.trace k := by
  let stopped : Machine V W ω := { m with kernel := { m.kernel with wal := wal } }
  have hevident : ∀ entry ∈ entries, Evident m.trace entry.event :=
    fun entry hmem => hsound.evident entry (hshorter.subset hmem)
  have hrebuilt : Sound (stopped.recovered k entries) :=
    sound_recovered (m := stopped) hload hrecover (hsound.chronicle.truncated hshorter hne) hevident
  refine .of_table hrebuilt.table ?_
  intro changeId change hget hverified
  obtain ⟨logged, hrecorded, rfl, hflag⟩ := hrebuilt.recorded hget
  rw [Machine.recovered_log] at hrecorded
  exact hrecorded.firstApplied hevident (hflag.symm.trans hverified)

/-- Recovery accepts what is left of the log of a sound machine, unless the seal is there. -/
theorem Sound.recover_truncated (hsound : Sound m) (hshorter : entries <+: m.log)
    (hne : entries ≠ []) (hopen : ∀ entry ∈ entries, entry.event.terminal = false)
    (hload : TransactionWal.load wal = .ok entries) :
    ∃ k, recover m.kernel.transactionId m.kernel.intentPin m.kernel.capabilities wal = .ok k := by
  cases hsound.chronicle.truncated hshorter hne with
  | ledger hledger =>
    obtain ⟨candidate, _, hrecover⟩ := hledger.recover_eq hload
    exact ⟨_, hrecover⟩
  | @closed log st event hledger hdue hterminal =>
    have hlast := hopen _ (mem_append_right _ (mem_singleton.mpr rfl))
    rw [hterminal] at hlast
    cases hlast

/-! ## Evidence is never lost -/

variable {change : ChangeRecord V}

/-- A record of the log that claims a verified experiment is confirmed by the last record of its
change. -/
theorem Ledger.verified {transactionId : TransactionId} {intentPin : EvaluationIntentPin}
    {capabilities : CapabilitySnapshot V W} {log : List (WalEntry V)}
    (h : Ledger transactionId intentPin capabilities log st) (hrecorded : Recorded log change)
    (hverified : change.experimentVerified = true) :
    ∃ last, st.changes[change.changeId]? = some last ∧ last.experimentVerified = true := by
  obtain ⟨entry, hmem, hevent⟩ := hrecorded
  induction h with
  | start =>
    rw [mem_singleton.mp hmem] at hevent
    cases hevent
  | @write log st w hlog hlawful ih =>
    have hold : entry ∈ log → ∀ next : ChangeRecord V,
        (∀ old, st.changes[next.changeId]? = some old → old.experimentVerified = true →
          next.experimentVerified = true) →
        ∃ last, (st.changes.insert next.changeId next)[change.changeId]? = some last ∧
          last.experimentVerified = true := by
      intro hin next hkept
      obtain ⟨last, hlast, hflag⟩ := ih hin
      rw [getElem?_insert_eq]
      split_ifs with heq
      · exact ⟨next, rfl, hkept last (by rw [heq]; exact hlast) hflag⟩
      · exact ⟨last, hlast, hflag⟩
    have hnew : w.event = .changeUpsert change →
        ∃ last, (st.changes.insert change.changeId change)[change.changeId]? = some last ∧
          last.experimentVerified = true :=
      fun _ => ⟨change, by rw [getElem?_insert_eq, if_pos rfl], hverified⟩
    cases hlawful with
    | @create next hform hopens =>
      rcases mem_append.mp hmem with hin | hlast
      · refine hold hin next ?_
        intro old hget
        rw [hopens.fresh] at hget
        cases hget
      · rw [mem_singleton.mp hlast] at hevent
        cases hevent
        exact hnew rfl
    | @record old next hform hcontinues =>
      rcases mem_append.mp hmem with hin | hlast
      · refine hold hin next ?_
        intro old' hget hflag
        rw [hcontinues.known] at hget
        cases hget
        exact hcontinues.kept hflag
      · rw [mem_singleton.mp hlast] at hevent
        cases hevent
        exact hnew rfl
    | intend hknown happlied hlabel =>
      rcases mem_append.mp hmem with hin | hlast
      · exact ih hin
      · rw [mem_singleton.mp hlast] at hevent
        cases hevent

/-- The memory of a sound machine keeps the evidence that its log holds. -/
theorem Sound.verified (hsound : Sound m) (hrecorded : Recorded m.log change)
    (hverified : change.experimentVerified = true) :
    ∃ memory, m.kernel.changes[change.changeId]? = some memory ∧
      memory.experimentVerified = true := by
  rcases hsound.status with ⟨st, hlive⟩ | ⟨front, st, event, hclosed⟩
  · obtain ⟨last, hlast, hflag⟩ := hlive.ledger.verified hrecorded hverified
    obtain ⟨memory, hmemory, _, hsame, _⟩ := hlive.tracks.remembered hlast
    exact ⟨memory, hmemory, hsame.trans hflag⟩
  · have hfront : Recorded front change := by
      obtain ⟨entry, hmem, hevent⟩ := hrecorded
      rw [hclosed.log] at hmem
      rcases mem_append.mp hmem with hin | hlast
      · exact ⟨entry, hin, hevent⟩
      · have hterminal := hclosed.terminal
        rw [mem_singleton.mp hlast] at hevent
        rw [show event = .changeUpsert change from hevent] at hterminal
        cases hterminal
    obtain ⟨last, hlast, hflag⟩ := hclosed.ledger.verified hfront hverified
    have hmem := hclosed.ledger.inv.table.mem_order hlast
    rw [← hclosed.order] at hmem
    obtain ⟨memory, hmemory⟩ := hclosed.table.exists_record hmem
    obtain ⟨logged, hlogged, _, hsame⟩ := hclosed.records _ memory hmemory
    rw [hlast] at hlogged
    cases hlogged
    exact ⟨memory, hmemory, hsame.trans hflag⟩

/-- While the log grows, no evidence of an experiment gets lost. -/
theorem Sound.keeps_verified (hsound : Sound m) (hsoundT : Sound t) (hgrown : m.log ⊆ t.log)
    {changeId : ChangeId} (hget : m.kernel.changes[changeId]? = some change)
    (hverified : change.experimentVerified = true) :
    ∃ later, t.kernel.changes[changeId]? = some later ∧ later.experimentVerified = true := by
  obtain ⟨logged, hrecorded, rfl, hflag⟩ := hsound.recorded hget
  exact hsoundT.verified (hrecorded.mono hgrown) (hflag.symm.trans hverified)

/-- At every point of a run the changes on a resource form one line of revisions, in the memory of
the live kernel and of every kernel that recovery rebuilds from the entries of the log up to some
point. The evidence of an experiment is never lost. -/
theorem revisions_form_lines (hwal : AppendOnly ω) (hreach : Reachable env w₀ s) :
    (∀ m, Crashes s.machine m → Revisioned m.trace m.kernel ∧
      ∀ entries wal, entries <+: m.log → entries ≠ [] → TransactionWal.load wal = .ok entries →
        ((∀ entry ∈ entries, entry.event.terminal = false) → ∃ k, recover m.kernel.transactionId
          m.kernel.intentPin m.kernel.capabilities wal = .ok k) ∧
        ∀ k, recover m.kernel.transactionId m.kernel.intentPin m.kernel.capabilities wal = .ok k →
          Revisioned m.trace k) ∧
    ∀ s', Next env s s' → ∀ (changeId : ChangeId) change,
      s.machine.kernel.changes[changeId]? = some change → change.experimentVerified = true →
      ∃ later, s'.machine.kernel.changes[changeId]? = some later ∧
        later.experimentVerified = true := by
  have hsound := hreach.sound hwal
  constructor
  · intro m hcrash
    have hsoundM := hcrash.sound hwal hsound
    refine ⟨hsoundM.revisioned, ?_⟩
    intro entries wal hshorter hne hload
    exact ⟨fun hopen => hsoundM.recover_truncated hshorter hne hopen hload,
      fun k hrecover => hsoundM.revisioned_of_truncated hshorter hne hload hrecover⟩
  · intro s' hnext changeId change hget hverified
    exact hsound.keeps_verified (hnext.sound hwal hsound) (hnext.log_subset hwal hsound) hget
      hverified

end Revisions

section RevisionsTest

open TestFixture

/-- A revision of a resource, and the recovery from the log before it. -/
theorem revisions_form_lines_revised :
    ∃ (s : TestStage) (wal : MemoryWal TestFixture.Json)
      (k : TransactionKernel TestFixture.Json FakeWorld (MemoryWal TestFixture.Json)),
      s.machine.kernel.changeOrder = [changeA, changeB] ∧ wal.entries = s.machine.log.take 3 ∧
      recover s.machine.kernel.transactionId s.machine.kernel.intentPin
        s.machine.kernel.capabilities wal = .ok k ∧
      Revisioned s.machine.trace s.machine.kernel ∧ Revisioned s.machine.trace k := by
  obtain ⟨s, hrun, hfacts⟩ := (Option.any_eq_true
    (fun s : TestStage => s.machine.kernel.changeOrder = [changeA, changeB] &&
      s.machine.log.take 3 ≠ [] && (s.machine.log.take 3).all (·.event.terminal = false))
    (runTest transactionId [] [] [tryA, revise])).mp (by decide +kernel)
  simp only [Bool.and_eq_true, decide_eq_true_eq, all_eq_true] at hfacts
  obtain ⟨⟨horder, hne⟩, hopen⟩ := hfacts
  have hreach : Reachable (fun _ _ => False) (world []) s := (reachable_runTest hrun).1
  have hbounded : (s.machine.log.take 3).length < 2 ^ 64 :=
    (length_take_le 3 _).trans_lt (by norm_num)
  let wal : MemoryWal TestFixture.Json := ⟨s.machine.log.take 3, false, [], hbounded⟩
  obtain ⟨hlive, hrebuilt⟩ := (revisions_form_lines MemoryWal.allOrNothing.toAppendOnly hreach).1
    s.machine (.inl rfl)
  obtain ⟨hrecovers, hrevisioned⟩ := hrebuilt (s.machine.log.take 3) wal (List.take_prefix _ _) hne rfl
  obtain ⟨k, hrecover⟩ := hrecovers hopen
  exact ⟨s, wal, k, horder, rfl, hrecover, hlive, hrevisioned k hrecover⟩

end RevisionsTest

end ScxAgent
