import ScxAgent.ExceptRules
import ScxAgent.Evaluation.Aggregation

/-!
# Repeated measurements

A provider that answers the same sample again and again. One sample is passed on as it is. Two or
more go through `aggregate_metric`, which has no value for a histogram.
-/

namespace ScxAgent.Evaluation

open Std ExceptRules List Option

variable {V F : Type} [JsonValue V F] [MetricNumber F] {sample : MetricBatch V}
  {metric : MetricValue V} {name : String}

theorem kindMatches_of_validate (h : sample.validate = .ok ())
    (hmetric : sample.metrics[name]? = some metric) : metric.kindMatches = true := by
  unfold MetricBatch.validate at h
  obtain ⟨-, h⟩ := of_guard_eq_ok h
  obtain ⟨-, h⟩ := of_guard_eq_ok h
  obtain ⟨-, h⟩ := of_guard_eq_ok h
  have hall : sample.metrics.toList.forM
      (fun entry => MetricBatch.validateMetric entry.1 entry.2) = .ok () := by
    split at h
    · exact (bind_eq_ok.mp h).choose_spec.2
    · exact h
  have hchecked := forM_eq_ok.mp hall (name, metric)
    (TreeMap.mem_toList_iff_getElem?_eq_some.mpr hmetric)
  unfold MetricBatch.validateMetric at hchecked
  obtain ⟨_, _, hchecked⟩ := bind_eq_ok.mp hchecked
  obtain ⟨_, _, hchecked⟩ := bind_eq_ok.mp hchecked
  split_ifs at hchecked with hmatches
  simpa using hmatches

/-! ## One metric -/

theorem aggregateMetric_histogram {samples : List (MetricBatch V)} (hsamples : samples ≠ [])
    (hhistogram : ∀ sample ∈ samples, (sample.schema name).map Prod.fst = some .histogram) :
    aggregateMetric samples name = none := by
  rw [eq_none_iff_forall_ne_some]
  intro value hvalue
  have hto := (aggregateMetric_eq_some hsamples).mp hvalue
  obtain ⟨first, rest, rfl⟩ := exists_cons_of_ne_nil hsamples
  obtain ⟨sampled, hsampled, hkind, -⟩ := hto.carried first mem_cons_self
  have hfirst := hhistogram first mem_cons_self
  rw [MetricBatch.schema, hsampled, map_some, map_some, some.injEq] at hfirst
  have hvalueKind : value.kind = .histogram := hkind.symm.trans hfirst
  unfold AggregatesTo at hto
  rw [hvalueKind] at hto
  exact hto

omit [JsonValue V F] [MetricNumber F] in
theorem forall₂_replicate {R : V → F → Prop} {a : V} {b : F} (h : R a b) (n : ℕ) :
    Forall₂ R (replicate n a) (replicate n b) := by
  induction n with
  | zero => exact .nil
  | succ n ih => exact .cons h ih

theorem aggregateMetric_replicate (haccepted : sample.validate = .ok ()) {n : ℕ} (hn : n ≠ 0)
    (hmetric : sample.metrics[name]? = some metric) (hkind : metric.kind ≠ .histogram) :
    ∃ value, aggregateMetric (replicate n sample) name = some value ∧
      value.kind = metric.kind ∧ value.unit = metric.unit := by
  have hmatches := kindMatches_of_validate haccepted hmetric
  have hsamples : replicate n sample ≠ [] := by simpa using hn
  unfold MetricValue.kindMatches at hmatches
  cases hcase : metric.kind with
  | gauge | counter =>
    rw [hcase] at hmatches
    obtain ⟨number, hnumber, -⟩ := (any_eq_true _ _).mp hmatches
    have hcarries : CarriesNumber name metric.kind metric.unit sample number :=
      ⟨metric, hmetric, rfl, rfl, hnumber⟩
    refine ⟨⟨JsonValue.ofF64 (median (replicate n number)), metric.unit, metric.kind⟩,
      (aggregateMetric_eq_some hsamples).mpr ?_, hcase, rfl⟩
    unfold AggregatesTo
    dsimp only
    rw [hcase] at hcarries ⊢
    exact ⟨_, forall₂_replicate hcarries n, rfl⟩
  | boolean =>
    rw [hcase] at hmatches
    obtain ⟨truth, htruth⟩ := isSome_iff_exists.mp hmatches
    refine ⟨⟨JsonValue.ofBool truth, metric.unit, metric.kind⟩,
      (aggregateMetric_eq_some hsamples).mpr ?_, hcase, rfl⟩
    unfold AggregatesTo
    dsimp only
    rw [hcase]
    refine ⟨truth, fun other hother => ?_, rfl⟩
    rw [eq_of_mem_replicate hother]
    exact ⟨metric, hmetric, hcase, rfl, htruth⟩
  | histogram => exact absurd hcase hkind

/-! ## All metrics -/

theorem mem_metricNames_replicate {n : ℕ} (hn : n ≠ 0) :
    name ∈ metricNames (replicate n sample) ↔ (sample.metrics[name]?).isSome := by
  unfold metricNames
  rw [TreeSet.mem_toList, TreeSet.mem_ofList, contains_iff_mem, mem_flatMap]
  simp [hn]

theorem aggregateSamples_replicate (hvalid : sample.quality = .valid) (k : ℕ) :
    ∃ batch, aggregateSamples (replicate (k + 2) sample) = .ok batch ∧
      batch.workloadFingerprint = sample.workloadFingerprint ∧
      batch.metrics = ((metricNames (replicate (k + 2) sample)).foldl
        (aggregateInto (replicate (k + 2) sample)) (∅, .valid)).1 ∧
      batch.quality = ((metricNames (replicate (k + 2) sample)).foldl
        (aggregateInto (replicate (k + 2) sample)) (∅, .valid)).2 := by
  have hquality : ((replicate (k + 2) sample).map (·.quality)).foldl worstQuality .valid =
      .valid := by
    rw [map_replicate, hvalid]
    induction k with
    | zero => rfl
    | succ k ih => rwa [replicate_succ, foldl_cons]
  have hmatch : (replicate (k + 2) sample).all
      (·.workloadFingerprint = sample.workloadFingerprint) = true := by
    rw [List.all_eq_true]
    intro other hother
    rw [List.eq_of_mem_replicate hother]
    exact decide_eq_true rfl
  generalize hsamples : replicate (k + 2) sample = samples at hquality hmatch
  rw [replicate_succ, replicate_succ] at hsamples
  subst hsamples
  refine ⟨_, rfl, if_pos hmatch, ?_, (if_pos hmatch).trans ?_⟩
  · rw [hquality]
  · rw [hquality]

/-- Copies of one valid sample give a batch with its fingerprint, and with its metrics under their
kinds and units. From two copies on the histograms are missing, and the batch is partial if there
were any. -/
theorem repeated_sample_aggregates (hvalid : sample.quality = .valid)
    (haccepted : sample.validate = .ok ()) (n : ℕ) :
    (n = 0 → aggregateSamples (List.replicate n sample) =
        .error ⟨.measurement, "measurement returned no samples"⟩) ∧
      (n ≠ 0 → ∃ batch, aggregateSamples (List.replicate n sample) = .ok batch ∧
        batch.workloadFingerprint = sample.workloadFingerprint ∧
        (∀ name, batch.schema name =
          (sample.schema name).filter fun entry => n = 1 || entry.1 ≠ .histogram) ∧
        batch.quality = if n = 1 ∨ ∀ name ∈ sample.metrics.keys,
            (sample.schema name).map Prod.fst ≠ some .histogram then .valid else .partially) := by
  refine ⟨fun hzero => by rw [hzero]; rfl, fun hn => ?_⟩
  match n, hn with
  | 1, _ =>
    refine ⟨sample, rfl, rfl, fun name => ?_, ?_⟩
    · cases sample.schema name <;> rfl
    · rw [if_pos (.inl rfl), hvalid]
  | k + 2, hn =>
    obtain ⟨batch, hbatch, hfingerprint, hmetrics, hquality⟩ := aggregateSamples_replicate hvalid k
    obtain ⟨hlookup, hworst⟩ := foldl_aggregateInto_eq (replicate (k + 2) sample)
      (metricNames (replicate (k + 2) sample)) (∅, .valid)
    -- a metric of the sample is aggregated unless it is a histogram
    have hhistogram {name : String} {metric : MetricValue V}
        (hmetric : sample.metrics[name]? = some metric) (hkind : metric.kind = .histogram) :
        aggregateMetric (replicate (k + 2) sample) name = none := by
      refine aggregateMetric_histogram (by simp) fun other hother => ?_
      rw [eq_of_mem_replicate hother, MetricBatch.schema, hmetric]
      exact congrArg some hkind
    refine ⟨batch, hbatch, hfingerprint, fun name => ?_, ?_⟩
    · rw [MetricBatch.schema, hmetrics, hlookup, MetricBatch.schema]
      simp only [mem_metricNames_replicate hn]
      cases hmetric : sample.metrics[name]? with
      | none => simp
      | some metric =>
        by_cases hkind : metric.kind = .histogram
        · simp [hhistogram hmetric hkind, hkind, Option.filter]
        · obtain ⟨value, hvalue, hsame, hunit⟩ := aggregateMetric_replicate haccepted hn hmetric hkind
          simp [hvalue, hsame, hunit, hkind, Option.filter]
    · rw [hquality, hworst]
      refine if_congr ?_ rfl rfl
      simp only [mem_metricNames_replicate hn, Nat.reduceEqDiff, false_or, TreeMap.mem_keys,
        TreeMap.mem_iff_isSome_getElem?]
      refine forall_congr' fun name => forall_congr' fun hsome => ?_
      obtain ⟨metric, hmetric⟩ := isSome_iff_exists.mp hsome
      by_cases hkind : metric.kind = .histogram
      · simp [hhistogram hmetric hkind, MetricBatch.schema, hmetric, hkind]
      · obtain ⟨value, hvalue, -⟩ := aggregateMetric_replicate haccepted hn hmetric hkind
        simp [hvalue, MetricBatch.schema, hmetric, hkind]

namespace Buckets

/-- JSON with numbers and opaque arrays. -/
inductive Content where
  | number (value : ℚ)
  | array
  | other

local instance : JsonValue Content ℚ where
  asF64
    | .number value => some value
    | _ => none
  asBool _ := none
  asStr _ := none
  asArray
    | .array => some []
    | _ => none
  asObject _ := none
  ofF64 := .number
  ofBool _ := .other
  ofNat n := .number n
  ofStr _ := .other
  ofArray _ := .array
  ofObject _ := .other

local instance : MetricNumber ℚ := fieldNumber 0 (fun _ => true) fun _ => ""

def measured (kind : MetricKind) (value : Content) : MetricBatch Content where
  startedAtNs := 0
  endedAtNs := 1
  quality := .valid
  workloadFingerprint := some "redis"
  metrics := (∅ : TreeMap String (MetricValue Content)).insert "latency" ⟨value, "ms", kind⟩
  provenance := .other

theorem repeated_sample_aggregates_three :
    (measured .gauge (.number 5)).validate = .ok () ∧
      ∃ batch, aggregateSamples (List.replicate 3 (measured .gauge (.number 5))) = .ok batch ∧
        batch.workloadFingerprint = some "redis" := by
  have haccepted : (measured .gauge (.number 5)).validate = .ok () := by decide +kernel
  obtain ⟨batch, hbatch, hfingerprint, -⟩ := (repeated_sample_aggregates rfl haccepted 3).2 (by decide)
  exact ⟨haccepted, batch, hbatch, hfingerprint⟩

/-- A valid histogram is lost when it is measured twice, and the batch is no longer valid. -/
theorem repeated_histogram_is_dropped :
    (measured .histogram .array).quality = .valid ∧ (measured .histogram .array).validate = .ok () ∧
      ∃ batch, aggregateSamples (List.replicate 2 (measured .histogram .array)) = .ok batch ∧
        batch.quality = .partially ∧ batch.metrics.isEmpty = true := by
  refine ⟨rfl, by decide +kernel, _, rfl, ?_, ?_⟩
  · decide +kernel
  · decide +kernel

end Buckets

end ScxAgent.Evaluation
