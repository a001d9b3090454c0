import Mathlib.Data.List.Perm.Basic
import ScxAgent.Median
import ScxAgent.Evaluation.FailClosed

/-!
# Aggregated samples

A metric is aggregated only if all samples agree on its kind and unit, and what becomes of it then
depends on its values but not on their order. The numbers are those of an ordered field.
-/

namespace ScxAgent.Evaluation

open Std List Option JsonValue

section Readings

variable {V F : Type} [JsonValue V F]

/-- A sample carries the metric with the given kind and unit, and this is the number it reads. -/
def CarriesNumber (metric : String) (kind : MetricKind) (unit : String) (sample : MetricBatch V)
    (number : F) : Prop :=
  ∃ value, sample.metrics[metric]? = some value ∧ value.kind = kind ∧ value.unit = unit ∧
    JsonValue.asF64 value.value = some number

/-- As `CarriesNumber`, for a truth value. -/
def CarriesTruth (metric : String) (unit : String) (sample : MetricBatch V) (truth : Bool) : Prop :=
  ∃ value, sample.metrics[metric]? = some value ∧ value.kind = .boolean ∧ value.unit = unit ∧
    JsonValue.asBool value.value = some truth

variable {metric : String} {sample : MetricBatch V} {readings : Readings F}
  {first value : MetricValue V}

/-- What one turn of the loop needs of a sample before it looks at the value. -/
theorem readMetric_eq (hvalue : sample.metrics[metric]? = some value)
    (hkind : value.kind = first.kind) (hunit : value.unit = first.unit) :
    readMetric first metric readings sample =
      match first.kind with
      | .gauge | .counter => (asF64 value.value).map fun number =>
        { readings with numbers := readings.numbers ++ [number] }
      | .boolean => (asBool value.value).map fun truth =>
        { readings with booleans := readings.booleans ++ [truth] }
      | .histogram => none := by
  have hsame : ¬ (value.kind ≠ first.kind ∨ value.unit ≠ first.unit) := by
    rw [hkind, hunit]
    simp
  unfold readMetric
  rw [hvalue, bind_eq_bind, bind_some, if_neg hsame, hkind]
  cases first.kind with
  | gauge => cases asF64 value.value <;> rfl
  | counter => cases asF64 value.value <;> rfl
  | boolean => cases asBool value.value <;> rfl
  | histogram => rfl

variable {read : Readings F}

theorem value_of_readMetric (h : readMetric first metric readings sample = some read) :
    ∃ value, sample.metrics[metric]? = some value ∧ value.kind = first.kind ∧
      value.unit = first.unit := by
  have hschema := schema_of_readMetric h
  unfold MetricBatch.schema at hschema
  obtain ⟨value, hvalue, hpair⟩ := map_eq_some_iff.mp hschema
  rw [Prod.mk.injEq] at hpair
  exact ⟨value, hvalue, hpair⟩

theorem readMetric_number (hnumeric : first.kind = .gauge ∨ first.kind = .counter) :
    readMetric first metric readings sample = some read ↔
      ∃ number, CarriesNumber metric first.kind first.unit sample number ∧
        { readings with numbers := readings.numbers ++ [number] } = read := by
  constructor
  · intro h
    obtain ⟨value, hvalue, hkind, hunit⟩ := value_of_readMetric h
    rw [readMetric_eq hvalue hkind hunit] at h
    rcases hnumeric with hfirst | hfirst
    all_goals
      rw [hfirst] at h
      obtain ⟨number, hnumber, hread⟩ := map_eq_some_iff.mp h
      exact ⟨number, ⟨value, hvalue, hkind, hunit, hnumber⟩, hread⟩
  · rintro ⟨number, ⟨value, hvalue, hkind, hunit, hnumber⟩, rfl⟩
    rw [readMetric_eq hvalue hkind hunit, hnumber]
    rcases hnumeric with hfirst | hfirst
    all_goals rw [hfirst, map_some]

theorem readMetric_truth (hboolean : first.kind = .boolean) :
    readMetric first metric readings sample = some read ↔
      ∃ truth, CarriesTruth metric first.unit sample truth ∧
        { readings with booleans := readings.booleans ++ [truth] } = read := by
  constructor
  · intro h
    obtain ⟨value, hvalue, hkind, hunit⟩ := value_of_readMetric h
    rw [readMetric_eq hvalue hkind hunit, hboolean] at h
    obtain ⟨truth, htruth, hread⟩ := map_eq_some_iff.mp h
    exact ⟨truth, ⟨value, hvalue, hkind.trans hboolean, hunit, htruth⟩, hread⟩
  · rintro ⟨truth, ⟨value, hvalue, hkind, hunit, htruth⟩, rfl⟩
    rw [readMetric_eq hvalue (hkind.trans hboolean.symm) hunit, hboolean, htruth, map_some]

/-- A loop that gathers one item from each element. -/
theorem foldlM_gather {ι α β : Type} {step : α → ι → Option α} {R : ι → β → Prop}
    (push : α → List β → α) (hnil : ∀ acc, push acc [] = acc)
    (hcons : ∀ acc b bs, push (push acc [b]) bs = push acc (b :: bs))
    (hstep : ∀ acc x next, step acc x = some next ↔ ∃ b, R x b ∧ push acc [b] = next)
    (xs : List ι) (acc result : α) :
    xs.foldlM step acc = some result ↔ ∃ bs, Forall₂ R xs bs ∧ push acc bs = result := by
  induction xs generalizing acc with
  | nil => simp [hnil]
  | cons x xs ih =>
    rw [foldlM_cons, bind_eq_bind, bind_eq_some_iff]
    constructor
    · rintro ⟨next, hnext, hrest⟩
      obtain ⟨b, hb, rfl⟩ := (hstep acc x next).mp hnext
      obtain ⟨bs, hbs, rfl⟩ := (ih _).mp hrest
      exact ⟨b :: bs, .cons hb hbs, (hcons acc b bs).symm⟩
    · rintro ⟨_, hall, rfl⟩
      cases hall with
      | cons hb hbs =>
        exact ⟨_, (hstep acc x _).mpr ⟨_, hb, rfl⟩, (ih _).mpr ⟨_, hbs, hcons acc _ _⟩⟩

theorem exists_related {ι β : Type} {R : ι → β → Prop} {xs : List ι} {bs : List β}
    (h : Forall₂ R xs bs) {x : ι} (hx : x ∈ xs) : ∃ b ∈ bs, R x b := by
  induction h with
  | nil => cases hx
  | @cons y b xs bs hb _ ih =>
    rcases mem_cons.mp hx with rfl | hx
    · exact ⟨b, mem_cons_self, hb⟩
    · obtain ⟨b', hb', hrelated⟩ := ih hx
      exact ⟨b', mem_cons_of_mem b hb', hrelated⟩

variable {samples : List (MetricBatch V)}

/-- The loop reads one number from each sample. -/
theorem foldlM_readMetric_number (hnumeric : first.kind = .gauge ∨ first.kind = .counter) :
    samples.foldlM (readMetric first metric) readings = some read ↔
      ∃ numbers, Forall₂ (CarriesNumber metric first.kind first.unit) samples numbers ∧
        { readings with numbers := readings.numbers ++ numbers } = read := by
  refine foldlM_gather
    (fun (acc : Readings F) numbers => { acc with numbers := acc.numbers ++ numbers }) ?_ ?_ ?_ _ _ _
  · simp
  · simp
  · intro acc sample next
    exact readMetric_number hnumeric

/-- The loop reads one truth value from each sample. -/
theorem foldlM_readMetric_truth (hboolean : first.kind = .boolean) :
    samples.foldlM (readMetric first metric) readings = some read ↔
      ∃ truths, Forall₂ (CarriesTruth metric first.unit) samples truths ∧
        { readings with booleans := readings.booleans ++ truths } = read := by
  refine foldlM_gather
    (fun (acc : Readings F) truths => { acc with booleans := acc.booleans ++ truths }) ?_ ?_ ?_ _ _ _
  · simp
  · simp
  · intro acc sample next
    exact readMetric_truth hboolean

variable [MetricNumber F]

/-- The samples aggregate to the value: its kind and unit are those of every sample. -/
def AggregatesTo (samples : List (MetricBatch V)) (metric : String) (value : MetricValue V) : Prop :=
  match value.kind with
  | .gauge | .counter =>
    ∃ numbers, List.Forall₂ (CarriesNumber metric value.kind value.unit) samples numbers ∧
      value.value = JsonValue.ofF64 (median numbers)
  | .boolean =>
    ∃ truth, (∀ sample ∈ samples, CarriesTruth metric value.unit sample truth) ∧
      value.value = JsonValue.ofBool truth
  | .histogram => False

theorem aggregatesTo_of_aggregateMetric (h : aggregateMetric samples metric = some value) :
    AggregatesTo samples metric value := by
  obtain ⟨head, hhead, h⟩ := bind_eq_some_iff.mp h
  obtain ⟨first, hfirst, h⟩ := bind_eq_some_iff.mp h
  obtain ⟨readings, hreadings, h⟩ := bind_eq_some_iff.mp h
  obtain ⟨result, hresult, h⟩ := bind_eq_some_iff.mp h
  cases h
  unfold AggregatesTo
  cases hkind : first.kind with
  | gauge | counter =>
    obtain ⟨numbers, hnumbers, rfl⟩ := (foldlM_readMetric_number (by simp [hkind])).mp hreadings
    rw [hkind] at hresult hnumbers
    cases hresult
    exact ⟨numbers, hnumbers, rfl⟩
  | boolean =>
    obtain ⟨truths, htruths, rfl⟩ := (foldlM_readMetric_truth hkind).mp hreadings
    rw [hkind] at hresult
    obtain ⟨truth, htruth, hresult⟩ := bind_eq_some_iff.mp hresult
    rw [Option.ite_none_right_eq_some, List.all_eq_true] at hresult
    obtain ⟨hall, ⟨⟩⟩ := hresult
    refine ⟨truth, fun sample hsample => ?_, rfl⟩
    obtain ⟨other, hother, hcarries⟩ := exists_related htruths hsample
    rwa [of_decide_eq_true (hall other hother)] at hcarries
  | histogram =>
    rw [hkind] at hresult
    cases hresult

theorem aggregateMetric_of_aggregatesTo (hsamples : samples ≠ [])
    (h : AggregatesTo samples metric value) : aggregateMetric samples metric = some value := by
  obtain ⟨head, rest, rfl⟩ := exists_cons_of_ne_nil hsamples
  obtain ⟨content, unit, kind⟩ := value
  unfold AggregatesTo at h
  unfold aggregateMetric
  cases kind with
  | gauge | counter =>
    obtain ⟨numbers, hnumbers, rfl⟩ := h
    obtain ⟨_, -, first, hfirst, hkind, hunit, -⟩ := exists_related hnumbers mem_cons_self
    rw [← hkind, ← hunit] at hnumbers
    have hread : (head :: rest).foldlM (readMetric first metric) (⟨[], []⟩ : Readings F) =
        some ⟨numbers, []⟩ :=
      (foldlM_readMetric_number (by simp [hkind])).mpr ⟨numbers, hnumbers, rfl⟩
    simp only [head?_cons, bind_eq_bind, bind_some, hfirst, hread, hkind, hunit,
      aggregateReadings]
  | boolean =>
    obtain ⟨truth, htruths, rfl⟩ := h
    obtain ⟨first, hfirst, hkind, hunit, -⟩ := htruths head mem_cons_self
    have hall : Forall₂ (CarriesTruth metric first.unit) (head :: rest)
        (replicate (head :: rest).length truth) := by
      rw [hunit, forall₂_iff_get]
      refine ⟨length_replicate.symm, fun i hi _ => ?_⟩
      rw [get_eq_getElem, get_eq_getElem, getElem_replicate]
      exact htruths _ (getElem_mem hi)
    have hread : (head :: rest).foldlM (readMetric first metric) (⟨[], []⟩ : Readings F) =
        some ⟨[], replicate (head :: rest).length truth⟩ :=
      (foldlM_readMetric_truth hkind).mpr ⟨_, hall, rfl⟩
    simp only [head?_cons, bind_eq_bind, bind_some, hfirst, hread, hkind, hunit,
      aggregateReadings]
    simp [replicate_succ]
  | histogram => exact h.elim

theorem aggregateMetric_eq_some (hsamples : samples ≠ []) :
    aggregateMetric samples metric = some value ↔ AggregatesTo samples metric value :=
  ⟨aggregatesTo_of_aggregateMetric, aggregateMetric_of_aggregatesTo hsamples⟩

end Readings

section Order

variable {V F : Type} {samples : List (MetricBatch V)} {samples' : List (MetricBatch V)}

theorem metricNames_congr (h : samples.Perm samples') :
    metricNames samples = metricNames samples' := by
  refine (TreeSet.Equiv.of_forall_mem_iff fun name => ?_).toList_eq
  rw [TreeSet.mem_ofList, TreeSet.mem_ofList]
  simp only [contains_iff_mem, mem_flatMap, h.mem_iff]

theorem foldl_worstQuality_congr {left right : List MetricQuality} (h : left.Perm right)
    (quality : MetricQuality) : left.foldl worstQuality quality = right.foldl worstQuality quality := by
  refine h.foldl_eq' (fun x _ y _ z => ?_) quality
  cases x <;> cases y <;> cases z <;> rfl

theorem min?_congr {left right : List ℕ} (h : left.Perm right) : left.min? = right.min? :=
  ext fun n => by simp only [min?_eq_some_iff, h.mem_iff]

theorem max?_congr {left right : List ℕ} (h : left.Perm right) : left.max? = right.max? :=
  ext fun n => by simp only [max?_eq_some_iff, h.mem_iff]

/-- Whether all samples agree on the workload, and on which, does not depend on the first one. -/
theorem fingerprints_congr (h : samples.Perm samples') {first first' : MetricBatch V}
    (hfirst : first ∈ samples) (hfirst' : first' ∈ samples') :
    (samples.all (·.workloadFingerprint = first.workloadFingerprint) =
      samples'.all (·.workloadFingerprint = first'.workloadFingerprint)) ∧
    (samples.all (·.workloadFingerprint = first.workloadFingerprint) = true →
      first.workloadFingerprint = first'.workloadFingerprint) := by
  have hsame (hall : ∀ sample ∈ samples, sample.workloadFingerprint = first.workloadFingerprint) :
      first.workloadFingerprint = first'.workloadFingerprint :=
    (hall first' (h.mem_iff.mpr hfirst')).symm
  have hsame' (hall : ∀ sample ∈ samples', sample.workloadFingerprint = first'.workloadFingerprint) :
      first.workloadFingerprint = first'.workloadFingerprint :=
    hall first (h.mem_iff.mp hfirst)
  rw [Bool.eq_iff_iff]
  simp only [List.all_eq_true, decide_eq_true_eq]
  refine ⟨⟨fun hall sample hsample => ?_, fun hall sample hsample => ?_⟩, hsame⟩
  · rw [← hsame hall]
    exact hall sample (h.mem_iff.mpr hsample)
  · rw [hsame' hall]
    exact hall sample (h.mem_iff.mp hsample)

variable [JsonValue V F] [MetricNumber F]

section Median

variable (hmedian : ∀ l l' : List F, l.Perm l' → median l = median l')
include hmedian

variable {samples samples' : List (MetricBatch V)}

theorem AggregatesTo.congr (h : samples.Perm samples') {metric : String} {value : MetricValue V}
    (haggregates : AggregatesTo samples metric value) : AggregatesTo samples' metric value := by
  unfold AggregatesTo at *
  split at haggregates
  case h_3 =>
    obtain ⟨truth, htruth, hvalue⟩ := haggregates
    exact ⟨truth, fun sample hsample => htruth sample (h.mem_iff.mpr hsample), hvalue⟩
  case h_4 => exact haggregates
  all_goals
    obtain ⟨numbers, hnumbers, hvalue⟩ := haggregates
    obtain ⟨numbers', hnumbers', hperm⟩ := perm_comp_forall₂ h.symm hnumbers
    exact ⟨numbers', hnumbers', hvalue.trans (by rw [hmedian _ _ hperm])⟩

theorem aggregateMetric_congr (hsamples : samples ≠ []) (h : samples.Perm samples')
    (metric : String) : aggregateMetric samples metric = aggregateMetric samples' metric := by
  have hsamples' : samples' ≠ [] := fun hnil => hsamples (perm_nil.mp (hnil ▸ h))
  refine ext fun value => ?_
  rw [aggregateMetric_eq_some hsamples, aggregateMetric_eq_some hsamples']
  exact ⟨AggregatesTo.congr hmedian h, AggregatesTo.congr hmedian h.symm⟩

/-- Samples in another order differ in the provenance only. -/
theorem aggregateSamples_congr (hsamples : samples ≠ []) (h : samples.Perm samples') :
    ∃ batch batch', aggregateSamples samples = .ok batch ∧ aggregateSamples samples' = .ok batch' ∧
      batch' = { batch with provenance := batch'.provenance } := by
  match samples, samples', h with
  | [], _, _ => exact absurd rfl hsamples
  | [sample], samples', h =>
    rw [singleton_perm] at h
    subst h
    exact ⟨sample, sample, rfl, rfl, rfl⟩
  | first :: second :: rest, first' :: second' :: rest', h =>
    have hnames := metricNames_congr h
    have hinto : aggregateInto (first :: second :: rest) =
        aggregateInto (first' :: second' :: rest') := by
      funext acc metric
      unfold aggregateInto
      rw [aggregateMetric_congr hmedian hsamples h]
    have hquality := foldl_worstQuality_congr (h.map (·.quality)) .valid
    have hstarted := min?_congr (h.map (·.startedAtNs))
    have hended := max?_congr (h.map (·.endedAtNs))
    obtain ⟨hmatch, hfingerprint⟩ := fingerprints_congr h mem_cons_self mem_cons_self
    refine ⟨_, _, rfl, rfl, ?_⟩
    simp only [hnames, hinto, hquality, hstarted, hended, hmatch, MetricBatch.mk.injEq, and_true,
      true_and]
    split_ifs with hall
    · exact (hfingerprint (hmatch.trans hall)).symm
    · rfl
  | _ :: _ :: _, [], h => cases h.length_eq
  | _ :: _ :: _, [_], h => cases h.length_eq

end Median

variable {value : MetricValue V} {metric name : String}

theorem aggregateMetric_of_lookup {names : List String}
    {acc : TreeMap String (MetricValue V) × MetricQuality}
    (h : (names.foldl (aggregateInto samples) acc).1[name]? = some value) :
    acc.1[name]? = some value ∨ aggregateMetric samples name = some value := by
  rw [(foldl_aggregateInto_eq samples names acc).1, or_eq_some_iff] at h
  rcases h with hmetric | ⟨-, hacc⟩
  · split_ifs at hmetric
    exact .inr hmetric
  · exact .inl hacc

/-- A metric of the result is that of the only sample, or it was aggregated. -/
theorem metric_of_aggregateSamples {batch : MetricBatch V}
    (h : aggregateSamples samples = .ok batch) (hvalue : batch.metrics[name]? = some value) :
    samples = [batch] ∨ AggregatesTo samples name value := by
  match samples, h with
  | [sample], h =>
    cases h
    exact .inl rfl
  | first :: second :: rest, h =>
    cases h
    right
    rcases aggregateMetric_of_lookup hvalue with hempty | hmetric
    · simp at hempty
    · exact aggregatesTo_of_aggregateMetric hmetric

theorem AggregatesTo.carried (h : AggregatesTo samples metric value) :
    ∀ sample ∈ samples, ∃ sampled, sample.metrics[metric]? = some sampled ∧
      sampled.kind = value.kind ∧ sampled.unit = value.unit := by
  intro sample hsample
  unfold AggregatesTo at h
  split at h
  next hkind =>
    obtain ⟨numbers, hnumbers, -⟩ := h
    obtain ⟨_, -, sampled, hsampled, hcarried, hunit, -⟩ := exists_related hnumbers hsample
    exact ⟨sampled, hsampled, hcarried, hunit⟩
  next hkind =>
    obtain ⟨numbers, hnumbers, -⟩ := h
    obtain ⟨_, -, sampled, hsampled, hcarried, hunit, -⟩ := exists_related hnumbers hsample
    exact ⟨sampled, hsampled, hcarried, hunit⟩
  next hkind =>
    obtain ⟨truth, htruth, -⟩ := h
    obtain ⟨sampled, hsampled, hcarried, hunit, -⟩ := htruth sample hsample
    exact ⟨sampled, hsampled, hcarried.trans hkind.symm, hunit⟩
  next => exact h.elim

theorem AggregatesTo.number (h : AggregatesTo samples metric value)
    (hnumeric : value.kind = .gauge ∨ value.kind = .counter) :
    ∃ numbers, Forall₂ (CarriesNumber metric value.kind value.unit) samples numbers ∧
      value.value = ofF64 (median numbers) := by
  unfold AggregatesTo at h
  rcases hnumeric with hkind | hkind
  all_goals
    rw [hkind] at h ⊢
    exact h

end Order

section Fields

variable {V F : Type} [Field F] [LinearOrder F] [IsStrictOrderedRing F] [JsonValue V F]

/-- The numbers of an ordered field as metric numbers; the aggregation uses nothing else of them. -/
@[reducible] def fieldNumber (epsilon : F) (isFinite : F → Bool) (display : F → String) :
    MetricNumber F where
  zero := 0
  add := (· + ·)
  sub := (· - ·)
  mul := (· * ·)
  div := (· / ·)
  two := (2 : ℕ)
  hundred := (100 : ℕ)
  epsilon
  abs x := |x|
  max := max
  le x y := x ≤ y
  totalLe x y := x ≤ y
  isFinite
  display

omit [IsStrictOrderedRing F] in
theorem median_fieldNumber (epsilon : F) (isFinite : F → Bool) (display : F → String)
    (numbers : List F) :
    @median F (fieldNumber epsilon isFinite display) numbers = Median.median numbers := rfl

/-- The number lies between the extremes of the list, with half of the list on either side. -/
def Central (numbers : List F) (m : F) : Prop :=
  (∃ low ∈ numbers, ∃ high ∈ numbers, (∀ x ∈ numbers, low ≤ x ∧ x ≤ high) ∧ low ≤ m ∧ m ≤ high) ∧
    numbers.length ≤ 2 * numbers.countP (· ≤ m) ∧ numbers.length ≤ 2 * numbers.countP (m ≤ ·)

theorem central_median {numbers : List F} (h : numbers ≠ []) :
    Central numbers (Median.median numbers) :=
  ⟨Median.between_extremes h, Median.half_around h⟩

omit [IsStrictOrderedRing F] [Field F] in
theorem central_singleton (m : F) : Central [m] m := by
  refine ⟨⟨m, mem_singleton_self m, m, mem_singleton_self m, ?_, le_rfl, le_rfl⟩, ?_, ?_⟩
  · intro x hx
    rw [mem_singleton.mp hx]
    exact ⟨le_rfl, le_rfl⟩
  · simp
  · simp

/-- The aggregate of the samples does not depend on their order. All samples carry each of its
metrics with the same kind and unit, and its numbers are central among theirs. -/
theorem aggregation_is_symmetric (epsilon : F) (isFinite : F → Bool) (display : F → String)
    (hread : ∀ number : F, JsonValue.asF64 (JsonValue.ofF64 number : V) = some number)
    {samples samples' : List (MetricBatch V)} (hsamples : samples ≠ [])
    (hperm : samples.Perm samples') :
    letI := fieldNumber epsilon isFinite display
    ∃ batch batch', aggregateSamples samples = .ok batch ∧ aggregateSamples samples' = .ok batch' ∧
      batch' = { batch with provenance := batch'.provenance } ∧
      ∀ name value, batch.metrics[name]? = some value →
        (∀ sample ∈ samples, ∃ sampled, sample.metrics[name]? = some sampled ∧
          sampled.kind = value.kind ∧ sampled.unit = value.unit) ∧
        (value.kind = .gauge ∨ value.kind = .counter →
          (2 ≤ samples.length → (JsonValue.asF64 value.value).isSome) ∧
          ∀ m, JsonValue.asF64 value.value = some m →
            ∃ numbers, List.Forall₂ (CarriesNumber name value.kind value.unit) samples numbers ∧
              Central numbers m) := by
  let : MetricNumber F := fieldNumber epsilon isFinite display
  have hmedian (l l' : List F) (h : l.Perm l') : median l = median l' := by
    rw [median_fieldNumber, median_fieldNumber, Median.median_congr h]
  obtain ⟨batch, batch', hbatch, hbatch', hsame⟩ := aggregateSamples_congr hmedian hsamples hperm
  refine ⟨batch, batch', hbatch, hbatch', hsame, fun name value hvalue => ?_⟩
  rcases metric_of_aggregateSamples hbatch hvalue with rfl | haggregates
  · -- The only sample is the result.
    refine ⟨fun sample hsample => ?_, fun hnumeric => ⟨fun htwo => ?_, fun m hm => ?_⟩⟩
    · rw [mem_singleton.mp hsample]
      exact ⟨value, hvalue, rfl, rfl⟩
    · rw [length_singleton] at htwo
      omega
    · exact ⟨[m], .cons ⟨value, hvalue, rfl, rfl, hm⟩ .nil, central_singleton m⟩
  · refine ⟨haggregates.carried, fun hnumeric => ?_⟩
    obtain ⟨numbers, hnumbers, hcontent⟩ := haggregates.number hnumeric
    rw [hcontent, hread]
    refine ⟨fun _ => rfl, ?_⟩
    rintro m ⟨⟩
    have hnonempty : numbers ≠ [] := by
      rintro rfl
      exact hsamples (forall₂_nil_right_iff.mp hnumbers)
    exact ⟨numbers, hnumbers, central_median hnonempty⟩

end Fields

namespace TwoOrders

/-- JSON with rational numbers only. -/
local instance : JsonValue (Option ℚ) ℚ where
  asF64 value := value
  asBool _ := none
  asStr _ := none
  asArray _ := none
  asObject _ := none
  ofF64 := some
  ofBool _ := none
  ofNat n := some n
  ofStr _ := none
  ofArray _ := none
  ofObject _ := none

local instance : MetricNumber ℚ := fieldNumber 0 (fun _ => true) fun _ => ""

def sample (startedAtNs : ℕ) (value : ℚ) : MetricBatch (Option ℚ) where
  startedAtNs
  endedAtNs := startedAtNs + 1
  quality := .valid
  workloadFingerprint := none
  metrics := (∅ : TreeMap String (MetricValue (Option ℚ))).insert "latency" ⟨some value, "ms", .gauge⟩
  provenance := none

theorem aggregation_is_symmetric_two_samples :
    [sample 0 5, sample 2 7] ≠ [] ∧ [sample 0 5, sample 2 7].Perm [sample 2 7, sample 0 5] ∧
      ∃ batch batch', aggregateSamples [sample 0 5, sample 2 7] = .ok batch ∧
        aggregateSamples [sample 2 7, sample 0 5] = .ok batch' ∧ batch'.metrics = batch.metrics := by
  have hperm : [sample 0 5, sample 2 7].Perm [sample 2 7, sample 0 5] := .swap _ _ _
  obtain ⟨batch, batch', hbatch, hbatch', hsame, -⟩ := aggregation_is_symmetric (0 : ℚ) (fun _ => true)
    (fun _ => "") (fun _ => rfl) (cons_ne_nil (sample 0 5) [sample 2 7]) hperm
  exact ⟨cons_ne_nil _ _, hperm, batch, batch', hbatch, hbatch', by rw [hsame]⟩

end TwoOrders

end ScxAgent.Evaluation
