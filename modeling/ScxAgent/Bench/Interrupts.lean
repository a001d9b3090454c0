import Mathlib.Data.List.Sort
import ScxAgent.Bench.CpuTexts

/-!
# Interrupts of pinned CPUs

`/proc/interrupts` has a column for each CPU that is online. `_host_interrupt_snapshot` keeps the
counts of a row as a list, and `_managed_irq_delta` looks a pinned CPU up in it by its number.
-/

namespace ScxAgent.Bench

open PyText

structure IrqCounts where
  counts : List ℕ
  actions : Text
  deriving DecidableEq

abbrev IrqSnapshot := Text → Option IrqCounts

def snapshotLine (snapshot : IrqSnapshot) (line : Text) : IrqSnapshot :=
  match splitOnce ':' (lstrip line) with
  | none => snapshot
  | some (irq, rest) =>
    if !isDigits irq then snapshot
    else
      let tokens := words rest
      let counts := tokens.takeWhile isDigits
      Function.update snapshot irq
        (some ⟨counts.map digitsValue, join [' '] (tokens.drop counts.length)⟩)

def hostInterruptSnapshot (text : Text) : IrqSnapshot :=
  (splitlines text).foldl snapshotLine fun _ => none

/-- What the isolation report says of an interrupt. -/
structure IrqReport where
  irq : Text
  status : Text
  actions : Text
  smpAffinity : Text
  effectiveAffinity : Text

def unmovableIrqs (report : List IrqReport) : List Text :=
  (report.filter (·.status = "unmovable".toList)).map (·.irq)

structure ContaminatedIrq where
  irq : Text
  actions : Text
  smpAffinity : Text
  effectiveAffinity : Text
  pinnedCpuDelta : List (ℕ × ℕ)
  totalPinnedDelta : ℕ

structure IrqDelta where
  pinnedCpus : String
  unmovableIrqs : List Text
  contaminatedIrqs : List ContaminatedIrq

def countsOf (snapshot : IrqSnapshot) (irq : Text) : List ℕ :=
  ((snapshot irq).map (·.counts)).getD []

/-- The pinned CPUs whose count has grown, and by how much. -/
def perCpuDelta (pinned before after : List ℕ) : List (ℕ × ℕ) :=
  (pinned.map fun cpu => (cpu, after.getD cpu 0 - before.getD cpu 0)).filter (·.2 ≠ 0)

def contaminatedIrq (pinned : List ℕ) (report : List IrqReport) (before after : IrqSnapshot)
    (irq : Text) : Option ContaminatedIrq :=
  let delta := perCpuDelta pinned (countsOf before irq) (countsOf after irq)
  let total := (delta.map (·.2)).sum
  if total = 0 then none
  else
    let entry := report.find? (·.irq = irq)
    let actions := (entry.map (·.actions)).getD []
    some
      { irq
        actions := if actions = [] then ((after irq).map (·.actions)).getD [] else actions
        smpAffinity := (entry.map (·.smpAffinity)).getD []
        effectiveAffinity := (entry.map (·.effectiveAffinity)).getD []
        pinnedCpuDelta := delta
        totalPinnedDelta := total }

def managedIrqDelta (pinCpus : Text) (report : List IrqReport) (before after : IrqSnapshot) :
    Except String IrqDelta := do
  let pinned ← parseCpuList pinCpus
  let irqs := (unmovableIrqs report).insertionSort fun a b => digitsValue a ≤ digitsValue b
  return { pinnedCpus := formatCpuList pinned, unmovableIrqs := irqs
           contaminatedIrqs := irqs.filterMap (contaminatedIrq pinned report before after) }

/-! ## The table -/

structure IrqRow where
  label : Text
  counts : List ℕ
  actions : List Text

/-- A line for the row, with any white space between its parts. -/
structure IrqRow.Written (row : IrqRow) (line : Text) : Prop where
  label : ∀ c ∈ row.label, c ≠ ':' ∧ isSpace c = false
  actions : ∀ action ∈ row.actions.head?, isDigits action = false
  line : ∃ indent body, line = indent ++ (row.label ++ ':' :: body) ∧
    (∀ c ∈ indent, isSpace c = true) ∧
    words body = row.counts.map (Nat.toDigits 10) ++ row.actions

structure Interrupts where
  cpus : List ℕ
  rows : List IrqRow

/-- A text for the table: a header that names the CPUs in ascending order, and a line for each row;
the rows of interrupts have a count for each CPU. -/
structure Interrupts.Written (table : Interrupts) (text : Text) : Prop where
  ascending : table.cpus.Pairwise (· < ·)
  columns : ∀ row ∈ table.rows, isDigits row.label → row.counts.length = table.cpus.length
  labels : (table.rows.map (·.label)).Nodup
  lines : ∃ header lines, splitlines text = header :: lines ∧ ':' ∉ header ∧
    words header = table.cpus.map (fun cpu => "CPU".toList ++ Nat.toDigits 10 cpu) ∧
    List.Forall₂ IrqRow.Written table.rows lines

/-- The count of an interrupt in the column of a CPU. -/
def Interrupts.count (table : Interrupts) (irq : Text) (cpu : ℕ) : ℕ :=
  ((table.rows.find? (·.label = irq)).map fun row => row.counts.getD (table.cpus.idxOf cpu) 0).getD 0

theorem snapshotLine_written {row : IrqRow} {line : Text} (h : row.Written line)
    (snapshot : IrqSnapshot) : snapshotLine snapshot line =
      if isDigits row.label then
        Function.update snapshot row.label (some ⟨row.counts, join [' '] row.actions⟩)
      else snapshot := by
  obtain ⟨indent, body, rfl, hindent, hwords⟩ := h.line
  have hlstrip : lstrip (indent ++ (row.label ++ ':' :: body)) = row.label ++ ':' :: body := by
    rw [lstrip, List.dropWhile_append_of_pos hindent]
    cases hlabel : row.label with
    | nil => rfl
    | cons c rest => exact List.dropWhile_cons_of_neg (by simp [h.label c (by simp [hlabel])])
  have hcounts : (words body).takeWhile isDigits = row.counts.map (Nat.toDigits 10) := by
    have hrest : row.actions.takeWhile isDigits = [] := by
      cases hactions : row.actions with
      | nil => rfl
      | cons action rest =>
        exact List.takeWhile_cons_of_neg (by simp [h.actions action (by simp [hactions])])
    rw [hwords, List.takeWhile_append_of_pos, hrest, List.append_nil]
    simp [isDigits_toDigits]
  rw [snapshotLine, hlstrip, splitOnce_append fun hmem => (h.label _ hmem).1 rfl]
  dsimp only
  rw [hcounts, hwords, List.drop_left]
  cases isDigits row.label <;> simp [Function.comp_def, digitsValue_toDigits]

variable {irq : Text}

theorem foldl_snapshotLine {rows : List IrqRow} {lines : List Text}
    (hrows : List.Forall₂ IrqRow.Written rows lines) (hlabels : (rows.map (·.label)).Nodup)
    (hirq : isDigits irq) (snapshot : IrqSnapshot) : lines.foldl snapshotLine snapshot irq =
      ((rows.find? (·.label = irq)).map fun row =>
        ⟨row.counts, join [' '] row.actions⟩).or (snapshot irq) := by
  induction hrows generalizing snapshot with
  | nil => simp
  | @cons row line rows lines hrow hrows ih =>
    rw [List.map_cons, List.nodup_cons] at hlabels
    rw [List.foldl_cons, ih hlabels.2, snapshotLine_written hrow, List.find?_cons]
    by_cases hlabel : row.label = irq
    · subst hlabel
      have hnone : rows.find? (·.label = row.label) = none := by
        simpa [List.find?_eq_none] using hlabels.1
      simp [hirq, hnone]
    · split_ifs <;> simp [hlabel, Ne.symm hlabel]

/-- The counts that the snapshot of a text has for an interrupt. -/
theorem countsOf_written {table : Interrupts} {text : Text} (h : table.Written text)
    (hirq : isDigits irq) : countsOf (hostInterruptSnapshot text) irq =
      ((table.rows.find? (·.label = irq)).map (·.counts)).getD [] := by
  obtain ⟨header, lines, hlines, hcolon, -, hrows⟩ := h.lines
  have hnone : splitOnce ':' (lstrip header) = none :=
    splitOnce_of_not_mem fun hmem => hcolon ((List.dropWhile_sublist _).subset hmem)
  have hheader : snapshotLine (fun _ => none) header = fun _ => none := by
    rw [snapshotLine, hnone]
  rw [countsOf, hostInterruptSnapshot, hlines, List.foldl_cons, hheader,
    foldl_snapshotLine hrows h.labels hirq]
  simp [Function.comp_def]

theorem mem_contaminated {pinCpus : Text} {pinned : List ℕ} {report : List IrqReport}
    {before after : IrqSnapshot} (hpinned : parseCpuList pinCpus = .ok pinned) :
    ∃ delta, managedIrqDelta pinCpus report before after = .ok delta ∧
      ∀ irq ∈ unmovableIrqs report, (irq ∈ delta.contaminatedIrqs.map (·.irq) ↔
        ∃ cpu ∈ pinned, (countsOf before irq).getD cpu 0 < (countsOf after irq).getD cpu 0) := by
  refine ⟨_, by rw [managedIrqDelta, hpinned]; rfl, ?_⟩
  intro irq hirq
  have htotal : 0 < ((perCpuDelta pinned (countsOf before irq) (countsOf after irq)).map (·.2)).sum ↔
      ∃ cpu ∈ pinned, (countsOf before irq).getD cpu 0 < (countsOf after irq).getD cpu 0 := by
    simp only [perCpuDelta, List.sum_pos_iff_exists_pos_nat, List.mem_map, List.mem_filter]
    constructor
    · rintro ⟨_, ⟨_, ⟨⟨cpu, hcpu, rfl⟩, -⟩, rfl⟩, hpos⟩
      exact ⟨cpu, hcpu, Nat.lt_of_sub_pos hpos⟩
    · rintro ⟨cpu, hcpu, hgrown⟩
      exact ⟨_, ⟨_, ⟨⟨cpu, hcpu, rfl⟩, by simpa using Nat.sub_ne_zero_of_lt hgrown⟩, rfl⟩,
        Nat.sub_pos_of_lt hgrown⟩
  rw [← htotal]
  simp only [List.mem_map, List.mem_filterMap, List.mem_insertionSort]
  constructor
  · rintro ⟨_, ⟨other, -, hother⟩, rfl⟩
    dsimp only [contaminatedIrq] at hother
    split at hother
    next => cases hother
    next hzero =>
      cases hother
      exact Nat.pos_of_ne_zero hzero
  · intro hpos
    exact ⟨_, ⟨irq, hirq, if_neg hpos.ne'⟩, rfl⟩

/-! ## Columns -/

variable {cpus : List ℕ} {cpu : ℕ}

/-- The column of a CPU is the number of CPUs below it that are online. -/
theorem idxOf_eq_card (hascending : cpus.Pairwise (· < ·)) (hcpu : cpu ∈ cpus) :
    cpus.idxOf cpu = (cpus.toFinset.filter (· < cpu)).card := by
  induction cpus with
  | nil => cases hcpu
  | cons first rest ih =>
    obtain ⟨hfirst, hrest⟩ := List.pairwise_cons.1 hascending
    obtain rfl | hmem := List.mem_cons.1 hcpu
    · have hnone : (insert cpu rest.toFinset).filter (· < cpu) = ∅ := by
        simpa [Finset.filter_eq_empty_iff] using fun other hother => (hfirst other hother).le
      rw [List.idxOf_cons_self, List.toFinset_cons, hnone, Finset.card_empty]
    · have hlt := hfirst cpu hmem
      have hnew : first ∉ rest.toFinset.filter (· < cpu) := by
        simpa using fun h => absurd (hfirst first h) (lt_irrefl first)
      rw [List.idxOf_cons_ne _ hlt.ne, ih hrest hmem, List.toFinset_cons, Finset.filter_insert,
        if_pos hlt, Finset.card_insert_of_notMem hnew]

theorem online_below_subset (cpus : List ℕ) (cpu : ℕ) :
    cpus.toFinset.filter (· < cpu) ⊆ Finset.range cpu := by
  intro lower hlower
  exact Finset.mem_range.2 (Finset.mem_filter.1 hlower).2

section Ascending

variable (hascending : cpus.Pairwise (· < ·))
include hascending

theorem idxOf_le (hcpu : cpu ∈ cpus) : cpus.idxOf cpu ≤ cpu := by
  simpa [idxOf_eq_card hascending hcpu] using Finset.card_le_card (online_below_subset cpus cpu)

/-- A CPU is in the column of its number exactly if all CPUs below it are online. -/
theorem idxOf_eq_self_iff (hcpu : cpu ∈ cpus) :
    cpus.idxOf cpu = cpu ↔ ∀ lower < cpu, lower ∈ cpus := by
  have hsub := online_below_subset cpus cpu
  rw [idxOf_eq_card hascending hcpu]
  constructor
  · intro hcard lower hlower
    have hall := Finset.eq_of_subset_of_card_le hsub (by simp [hcard])
    have hmem := hall ▸ Finset.mem_range.2 hlower
    exact List.mem_toFinset.1 (Finset.mem_filter.1 hmem).1
  · intro hall
    have heq : cpus.toFinset.filter (· < cpu) = Finset.range cpu :=
      hsub.antisymm fun lower hlower => by
        have hlt := Finset.mem_range.1 hlower
        exact Finset.mem_filter.2 ⟨List.mem_toFinset.2 (hall lower hlt), hlt⟩
    rw [heq, Finset.card_range]

/-- A table with one interrupt, and a text for it. -/
def oneRow (cpus : List ℕ) (irq : Text) (count : ℕ → ℕ) : Interrupts :=
  ⟨cpus, [⟨irq, cpus.map count, ["acpi".toList]⟩]⟩

def oneRowText (cpus : List ℕ) (irq : Text) (count : ℕ → ℕ) : Text :=
  join [' '] (cpus.map fun cpu => "CPU".toList ++ Nat.toDigits 10 cpu) ++ '\n' ::
    (irq ++ ':' :: join [' '] ((cpus.map count).map (Nat.toDigits 10) ++ ["acpi".toList]))

theorem oneRow_written (hirq : isDigits irq) (count : ℕ → ℕ) :
    (oneRow cpus irq count).Written (oneRowText cpus irq count) := by
  have hlabel : ∀ c ∈ irq, c ≠ ':' ∧ isSpace c = false := by
    intro c hc
    simp only [isDigits, Bool.and_eq_true, List.all_eq_true] at hirq
    have hdigit := hirq.2 c hc
    exact ⟨by rintro rfl; simp at hdigit, isSpace_of_isDigit hdigit⟩
  have hheader : ∀ part ∈ cpus.map (fun cpu => "CPU".toList ++ Nat.toDigits 10 cpu),
      part ≠ [] ∧ ∀ c ∈ part, c ≠ ':' ∧ isSpace c = false := by
    simp only [List.forall_mem_map, List.forall_mem_append]
    intro cpu _
    refine ⟨by simp, by simp [isSpace], fun c hc => ?_⟩
    have hdigit := isDigit_of_mem_toDigits hc
    exact ⟨by rintro rfl; simp at hdigit, isSpace_of_isDigit hdigit⟩
  have hcounts : ∀ part ∈ (cpus.map count).map (Nat.toDigits 10) ++ ["acpi".toList],
      part ≠ [] ∧ ∀ c ∈ part, isSpace c = false := by
    simp only [List.forall_mem_append, List.forall_mem_map, List.forall_mem_singleton]
    refine ⟨fun cpu _ => ⟨Nat.toDigits_ne_nil, fun c hc => ?_⟩, by simp [isSpace]⟩
    exact isSpace_of_isDigit (isDigit_of_mem_toDigits hc)
  have hline {parts : List Text} (h : ∀ part ∈ parts, ∀ c ∈ part, isSpace c = false) :
      ∀ c ∈ join [' '] parts, isSpace c = false ∨ c = ' ' := by
    intro c hc
    obtain rfl | ⟨part, hpart, hc⟩ := mem_join hc
    · exact .inr rfl
    · exact .inl (h part hpart c hc)
  refine ⟨hascending, by simp [oneRow], by simp [oneRow], _, _, ?_, ?_, words_join ?_,
    .cons ⟨hlabel, by simp; decide, [], _, rfl, by simp, words_join hcounts⟩ .nil⟩
  · rw [oneRowText, splitlines_cons (hline fun part hpart c hc => ((hheader part hpart).2 c hc).2),
      splitlines_line]
    · rfl
    · simp only [List.forall_mem_append, List.forall_mem_cons]
      exact ⟨fun c hc => .inl (hlabel c hc).2, .inl rfl, hline fun part hpart => (hcounts part hpart).2⟩
    · simp
  · intro hmem
    obtain hspace | ⟨part, hpart, hc⟩ := mem_join hmem
    · cases hspace
    · exact ((hheader part hpart).2 _ hc).1 rfl
  · exact fun part hpart => (hheader part hpart).imp_right fun h c hc => (h c hc).2

theorem countsOf_oneRow (hirq : isDigits irq) (count : ℕ → ℕ) :
    countsOf (hostInterruptSnapshot (oneRowText cpus irq count)) irq = cpus.map count := by
  rw [countsOf_written (oneRow_written hascending hirq count) hirq]
  simp [oneRow]

end Ascending

theorem count_oneRow {count : ℕ → ℕ} (hcpu : cpu ∈ cpus) :
    (oneRow cpus irq count).count irq cpu = count cpu := by
  simp [Interrupts.count, oneRow, List.getElem?_idxOf hcpu]

/-- The column of a CPU, from a row that counts on this CPU alone. -/
theorem idxOf_of_column_pos (hascending : cpus.Pairwise (· < ·)) {column : ℕ}
    (hpos : 0 < (cpus.map fun other => if other = cpu then 1 else 0).getD column 0) :
    cpus.idxOf cpu = column := by
  rw [List.getD_eq_getElem?_getD, List.getElem?_map] at hpos
  cases hget : cpus[column]? with
  | none => simp [hget] at hpos
  | some other =>
    have hother : other = cpu := by
      by_contra hne
      simp [hget, hne] at hpos
    obtain ⟨hlt, rfl⟩ := List.getElem?_eq_some_iff.1 hget
    rw [← hother, List.Nodup.idxOf_getElem (hascending.imp ne_of_lt)]

/-- If the columns of the pinned CPUs' numbers tell growth for all counts, then they are the columns
of the pinned CPUs. -/
theorem columns_of_compared {online online' pinned : List ℕ} (hascending : online.Pairwise (· < ·))
    (hascending' : online'.Pairwise (· < ·)) (honline : ∀ cpu ∈ pinned, cpu ∈ online')
    (h : ∀ count count' : ℕ → ℕ,
      (∃ cpu ∈ pinned, (online.map count).getD cpu 0 < (online'.map count').getD cpu 0) ↔
        ∃ cpu ∈ pinned, count cpu < count' cpu) :
    ∀ cpu ∈ pinned, online.idxOf cpu = cpu ∧ online'.idxOf cpu = cpu := by
  have hafter : ∀ cpu ∈ pinned, online'.idxOf cpu = cpu := by
    intro cpu
    induction cpu using Nat.strongRecOn with
    | ind cpu ih =>
      intro hcpu
      -- only this CPU has a new interrupt
      obtain ⟨column, hcolumn, hread⟩ :=
        (h (fun _ => 0) fun other => if other = cpu then 1 else 0).2 ⟨cpu, hcpu, by simp⟩
      have hidx := idxOf_of_column_pos hascending' (Nat.zero_lt_of_lt hread)
      obtain hlt | heq := (hidx ▸ idxOf_le hascending' (honline cpu hcpu)).lt_or_eq
      · have hsame := (ih column hlt hcolumn).trans hidx.symm
        exact absurd ((List.idxOf_inj (honline column hcolumn)).1 hsame) hlt.ne
      · rw [hidx, heq]
  intro cpu hcpu
  refine ⟨idxOf_of_column_pos hascending (Nat.pos_of_ne_zero fun hzero => ?_), hafter cpu hcpu⟩
  -- the only interrupt, on this CPU, was there before
  have hread : (online'.map fun other => if other = cpu then 1 else 0).getD cpu 0 = 1 := by
    have hget := List.getElem?_idxOf (honline cpu hcpu)
    rw [hafter cpu hcpu] at hget
    simp [hget]
  obtain ⟨other, -, hless⟩ := (h _ _).1 ⟨cpu, hcpu, by rw [hzero, hread]; exact Nat.one_pos⟩
  exact lt_irrefl _ hless

/-- With given CPUs online, all tables are compared by the columns of the pinned CPUs exactly if
no CPU below a pinned one is offline. -/
theorem contaminated_iff_grown {online online' pinned : List ℕ} {pinCpus : Text}
    {report : List IrqReport} (hascending : online.Pairwise (· < ·))
    (hascending' : online'.Pairwise (· < ·)) (hpinned : parseCpuList pinCpus = .ok pinned)
    (honline : ∀ cpu ∈ pinned, cpu ∈ online ∧ cpu ∈ online')
    (hnumbers : ∀ irq ∈ unmovableIrqs report, isDigits irq) :
    (∀ (before after : Interrupts) (beforeText afterText : Text), before.cpus = online →
      after.cpus = online' → before.Written beforeText → after.Written afterText →
      ∃ delta, managedIrqDelta pinCpus report (hostInterruptSnapshot beforeText)
          (hostInterruptSnapshot afterText) = .ok delta ∧
        ∀ irq ∈ unmovableIrqs report, (irq ∈ delta.contaminatedIrqs.map (·.irq) ↔
          ∃ cpu ∈ pinned, before.count irq cpu < after.count irq cpu)) ↔
    unmovableIrqs report = [] ∨
      ∀ cpu ∈ pinned, ∀ lower < cpu, lower ∈ online ∧ lower ∈ online' := by
  constructor
  · intro hall
    rw [or_iff_not_imp_left]
    intro hsome cpu hcpu lower hlower
    obtain ⟨irq, hirq⟩ := List.exists_mem_of_ne_nil _ hsome
    have hcolumns := columns_of_compared hascending hascending' (fun cpu hcpu => (honline cpu hcpu).2)
      fun count count' => by
        obtain ⟨delta, hdelta, hgrown⟩ := hall _ _ _ _ rfl rfl
          (oneRow_written hascending (hnumbers irq hirq) count)
          (oneRow_written hascending' (hnumbers irq hirq) count')
        obtain ⟨_, hsame, hlisted⟩ := mem_contaminated hpinned
        rw [hdelta, Except.ok.injEq] at hsame
        have hread := hlisted irq hirq
        rw [← hsame, hgrown irq hirq, countsOf_oneRow hascending (hnumbers irq hirq),
          countsOf_oneRow hascending' (hnumbers irq hirq)] at hread
        rw [← hread]
        apply exists_congr
        intro cpu
        apply and_congr_right
        intro hcpu
        rw [count_oneRow (honline cpu hcpu).1, count_oneRow (honline cpu hcpu).2]
    obtain ⟨hmem, hmem'⟩ := honline cpu hcpu
    exact ⟨(idxOf_eq_self_iff hascending hmem).1 (hcolumns cpu hcpu).1 lower hlower,
      (idxOf_eq_self_iff hascending' hmem').1 (hcolumns cpu hcpu).2 lower hlower⟩
  · rintro hlower before after beforeText afterText rfl rfl hbefore hafter
    obtain ⟨delta, hdelta, hlisted⟩ := mem_contaminated hpinned
    refine ⟨delta, hdelta, fun irq hirq => (hlisted irq hirq).trans ?_⟩
    replace hlower := hlower.resolve_left (List.ne_nil_of_mem hirq)
    have hcount {table : Interrupts} {text : Text} (htable : table.Written text) {cpu : ℕ}
        (hcpu : cpu ∈ table.cpus) (hlower : ∀ lower < cpu, lower ∈ table.cpus) :
        (countsOf (hostInterruptSnapshot text) irq).getD cpu 0 = table.count irq cpu := by
      rw [countsOf_written htable (hnumbers irq hirq), Interrupts.count,
        (idxOf_eq_self_iff htable.ascending hcpu).2 hlower]
      cases table.rows.find? (·.label = irq) <;> rfl
    apply exists_congr
    intro cpu
    apply and_congr_right
    intro hcpu
    rw [hcount hbefore (honline cpu hcpu).1 fun lower hlt => (hlower cpu hcpu lower hlt).1,
      hcount hafter (honline cpu hcpu).2 fun lower hlt => (hlower cpu hcpu lower hlt).2]

def fanReport : List IrqReport := [⟨['9'], "unmovable".toList, [], [], []⟩]

theorem contaminated_iff_grown_adjacent :
    ∃ delta, managedIrqDelta ['1'] fanReport
        (hostInterruptSnapshot (oneRowText [0, 1] ['9'] fun _ => 5))
        (hostInterruptSnapshot (oneRowText [0, 1] ['9'] fun cpu => 5 + cpu)) = .ok delta ∧
      (['9'] ∈ delta.contaminatedIrqs.map (·.irq) ↔
        ∃ cpu ∈ [1], (oneRow [0, 1] ['9'] fun _ => 5).count ['9'] cpu <
          (oneRow [0, 1] ['9'] fun cpu => 5 + cpu).count ['9'] cpu) := by
  have hwritten := oneRow_written (show [0, 1].Pairwise (· < ·) by decide) (show isDigits ['9'] from rfl)
  obtain ⟨delta, hdelta, hlisted⟩ := (contaminated_iff_grown (by decide) (by decide)
    (rfl : parseCpuList ['1'] = .ok [1]) (by decide)
    (show ∀ irq ∈ unmovableIrqs fanReport, _ by decide +kernel)).2 (.inr (by decide)) _ _ _ _ rfl rfl
    (hwritten fun _ => 5) (hwritten fun cpu => 5 + cpu)
  exact ⟨delta, hdelta, hlisted ['9'] (by decide +kernel)⟩

/-- CPU 1 is offline. The count of CPU 2 has grown, and the interrupt is not listed. -/
theorem grown_in_column_of_online_cpu :
    (oneRow [0, 2] ['9'] fun _ => 5).Written (oneRowText [0, 2] ['9'] fun _ => 5) ∧
      (oneRow [0, 2] ['9'] fun cpu => 5 + cpu).Written (oneRowText [0, 2] ['9'] fun cpu => 5 + cpu) ∧
      parseCpuList ['2'] = .ok [2] ∧ ['9'] ∈ unmovableIrqs fanReport ∧
      (oneRow [0, 2] ['9'] fun _ => 5).count ['9'] 2 <
        (oneRow [0, 2] ['9'] fun cpu => 5 + cpu).count ['9'] 2 ∧
      ∃ delta, managedIrqDelta ['2'] fanReport
          (hostInterruptSnapshot (oneRowText [0, 2] ['9'] fun _ => 5))
          (hostInterruptSnapshot (oneRowText [0, 2] ['9'] fun cpu => 5 + cpu)) = .ok delta ∧
        ['9'] ∉ delta.contaminatedIrqs.map (·.irq) := by
  refine ⟨oneRow_written (by decide) rfl _, oneRow_written (by decide) rfl _, by decide +kernel,
    by decide +kernel, by decide +kernel, _, rfl, by decide +kernel⟩

end ScxAgent.Bench
