import ScxAgent.Evaluation.Stages

/-!
# A verdict of improvement fails closed

The verdict is computed from aggregated batches. An aggregate is valid only if every sample is, and
it then has the schema and the fingerprint of every sample, so an improvement that is reported
speaks for all samples of the run.
-/

namespace ScxAgent.Evaluation

open Std StepLogic TraceLogic List Option

section Aggregates

variable {V F : Type}

/-- The kind and the unit of a metric, if the batch has it. -/
def MetricBatch.schema (batch : MetricBatch V) (name : String) : Option (MetricKind × String) :=
  batch.metrics[name]?.map fun metric => (metric.kind, metric.unit)

theorem worstQuality_eq_valid {left right : MetricQuality} :
    worstQuality left right = .valid ↔ left = .valid ∧ right = .valid := by
  cases left <;> cases right <;> decide

theorem valid_of_foldl_worstQuality {qualities : List MetricQuality} {quality : MetricQuality}
    (h : qualities.foldl worstQuality quality = .valid) :
    quality = .valid ∧ ∀ q ∈ qualities, q = .valid := by
  induction qualities generalizing quality with
  | nil => exact ⟨h, nofun⟩
  | cons q qualities ih =>
    obtain ⟨hworst, hrest⟩ := ih h
    obtain ⟨hquality, hq⟩ := worstQuality_eq_valid.mp hworst
    exact ⟨hquality, forall_mem_cons.mpr ⟨hq, hrest⟩⟩

variable {batch : MetricBatch V} {name : String}

theorem MetricBatch.mem_of_schema {entry : MetricKind × String} (h : batch.schema name = some entry)
    : name ∈ batch.metrics := by
  obtain ⟨metric, hmetric, -⟩ := map_eq_some_iff.mp h
  exact TreeMap.mem_iff_isSome_getElem?.mpr (by rw [hmetric]; rfl)

theorem MetricBatch.schema_eq_none (h : name ∉ batch.metrics) : batch.schema name = none := by
  rw [MetricBatch.schema, TreeMap.getElem?_eq_none h]
  rfl

/-- One direction and the number of metrics are enough to compare two schemas. -/
theorem schema_eq_of_match {baseline candidate : MetricBatch V}
    (h : metricSchemasMatch baseline candidate = true) : baseline.schema = candidate.schema := by
  simp only [metricSchemasMatch, Bool.and_eq_true, decide_eq_true_eq, List.all_eq_true] at h
  obtain ⟨hsize, hall⟩ := h
  have hentry : ∀ name metric, baseline.metrics[name]? = some metric →
      candidate.schema name = some (metric.kind, metric.unit) := by
    intro name metric hmetric
    have hsame := hall (name, metric) (TreeMap.mem_toList_iff_getElem?_eq_some.mpr hmetric)
    obtain ⟨other, hother, hsame⟩ := (Option.any_eq_true _ _).mp hsame
    simp only [Bool.and_eq_true, decide_eq_true_eq] at hsame
    rw [MetricBatch.schema, hother, map_some, hsame.1, hsame.2]
  have hsubset : baseline.metrics.keys ⊆ candidate.metrics.keys := by
    intro name hname
    rw [TreeMap.mem_keys, TreeMap.mem_iff_isSome_getElem?] at hname
    obtain ⟨metric, hmetric⟩ := isSome_iff_exists.mp hname
    exact TreeMap.mem_keys.mpr (MetricBatch.mem_of_schema (hentry name metric hmetric))
  have hperm := (TreeMap.nodup_keys.subperm hsubset).perm_of_length_le (by
    rw [TreeMap.length_keys, TreeMap.length_keys, hsize])
  funext name
  cases hmetric : baseline.metrics[name]? with
  | some metric => rw [hentry name metric hmetric, MetricBatch.schema, hmetric, map_some]
  | none =>
    have hnone : name ∉ candidate.metrics := by
      rw [← TreeMap.mem_keys, ← hperm.mem_iff, TreeMap.mem_keys, TreeMap.mem_iff_isSome_getElem?,
        hmetric]
      nofun
    rw [MetricBatch.schema_eq_none hnone, MetricBatch.schema, hmetric, map_none]

variable [JsonValue V F] {metric : String} {first : MetricValue V}

theorem schema_of_readMetric {readings read : Readings F} {sample : MetricBatch V}
    (h : readMetric first metric readings sample = some read) :
    sample.schema metric = some (first.kind, first.unit) := by
  obtain ⟨value, hvalue, h⟩ := bind_eq_some_iff.mp h
  by_cases hdiffers : value.kind ≠ first.kind ∨ value.unit ≠ first.unit
  · rw [if_pos hdiffers] at h
    cases h
  · obtain ⟨hkind, hunit⟩ := not_or.mp hdiffers
    rw [MetricBatch.schema, hvalue, map_some, not_ne_iff.mp hkind, not_ne_iff.mp hunit]

variable {samples : List (MetricBatch V)}

theorem schema_of_foldlM_readMetric {readings read : Readings F}
    (h : samples.foldlM (readMetric first metric) readings = some read) :
    ∀ sample ∈ samples, sample.schema metric = some (first.kind, first.unit) := by
  induction samples generalizing readings with
  | nil => nofun
  | cons sample samples ih =>
    rw [foldlM_cons] at h
    obtain ⟨next, hnext, hrest⟩ := bind_eq_some_iff.mp h
    exact forall_mem_cons.mpr ⟨schema_of_readMetric hnext, ih hrest⟩

variable [MetricNumber F]

theorem schema_of_aggregateMetric {value : MetricValue V}
    (h : aggregateMetric samples metric = some value) :
    ∀ sample ∈ samples, sample.schema metric = some (value.kind, value.unit) := by
  obtain ⟨head, -, h⟩ := bind_eq_some_iff.mp h
  obtain ⟨first, -, h⟩ := bind_eq_some_iff.mp h
  obtain ⟨readings, hreadings, h⟩ := bind_eq_some_iff.mp h
  obtain ⟨number, -, h⟩ := bind_eq_some_iff.mp h
  cases h
  exact schema_of_foldlM_readMetric hreadings

/-- Every metric that aggregates is in the result, and every other one costs the quality. -/
theorem foldl_aggregateInto_eq (samples : List (MetricBatch V)) (names : List String)
    (acc : TreeMap String (MetricValue V) × MetricQuality) :
    (∀ name, (names.foldl (aggregateInto samples) acc).1[name]? =
        (if name ∈ names then aggregateMetric samples name else none).or acc.1[name]?) ∧
      (names.foldl (aggregateInto samples) acc).2 =
        if ∀ name ∈ names, (aggregateMetric samples name).isSome then acc.2
        else worstQuality acc.2 .partially := by
  induction names generalizing acc with
  | nil => simp
  | cons metric names ih =>
    rw [foldl_cons]
    obtain ⟨hmetrics, hquality⟩ := ih (aggregateInto samples acc metric)
    cases haggregate : aggregateMetric samples metric with
    | some value =>
      simp only [aggregateInto, haggregate] at hmetrics hquality ⊢
      refine ⟨fun name => ?_, ?_⟩
      · rw [hmetrics, TreeMap.getElem?_insert]
        by_cases hname : metric = name
        · subst hname
          by_cases hmem : metric ∈ names <;> simp [hmem, haggregate]
        · simp [hname, Ne.symm hname]
      · rw [hquality]
        simp [haggregate]
    | none =>
      simp only [aggregateInto, haggregate] at hmetrics hquality ⊢
      refine ⟨fun name => ?_, ?_⟩
      · rw [hmetrics]
        by_cases hname : name = metric
        · subst hname
          simp [haggregate]
        · simp [hname]
      · rw [hquality]
        have hidem : worstQuality (worstQuality acc.2 .partially) .partially =
            worstQuality acc.2 .partially := by cases acc.2 <;> rfl
        simp [haggregate, hidem]

/-- If the quality stays valid, every metric was aggregated and nothing else was added. -/
theorem foldl_aggregateInto {names : List String}
    {acc : TreeMap String (MetricValue V) × MetricQuality}
    (h : (names.foldl (aggregateInto samples) acc).2 = .valid) :
    acc.2 = .valid ∧ (∀ name ∈ names, (aggregateMetric samples name).isSome) ∧
      ∀ name, (names.foldl (aggregateInto samples) acc).1[name]? =
        if name ∈ names then aggregateMetric samples name else acc.1[name]? := by
  obtain ⟨hmetrics, hquality⟩ := foldl_aggregateInto_eq samples names acc
  rw [hquality] at h
  split_ifs at h with hall
  · refine ⟨h, hall, fun name => ?_⟩
    rw [hmetrics]
    split_ifs with hname
    · exact or_of_isSome (hall name hname)
    · rfl
  · exact absurd (worstQuality_eq_valid.mp h).2 (by decide)

omit [MetricNumber F] [JsonValue V F] in
theorem mem_metricNames :
    name ∈ metricNames samples ↔ ∃ sample ∈ samples, name ∈ sample.metrics := by
  simp [metricNames, TreeSet.mem_toList, TreeSet.mem_ofList, TreeMap.mem_keys]

/-- A valid aggregate speaks for every sample. -/
theorem of_aggregateSamples_valid (h : aggregateSamples samples = .ok batch)
    (hvalid : batch.quality = .valid) :
    ∀ sample ∈ samples, sample.quality = .valid ∧ sample.schema = batch.schema ∧
      sample.workloadFingerprint = batch.workloadFingerprint := by
  match samples, h with
  | [sample], h =>
    cases h
    intro other hother
    rw [mem_singleton.mp hother]
    exact ⟨hvalid, rfl, rfl⟩
  | first :: second :: rest, h =>
    simp only [aggregateSamples, Except.ok.injEq] at h
    generalize hsamples : first :: second :: rest = samples at h ⊢
    subst h
    dsimp only at hvalid ⊢
    by_cases hmatch : samples.all (·.workloadFingerprint = first.workloadFingerprint) = true
    · rw [if_pos hmatch] at hvalid
      simp only [if_pos hmatch]
      obtain ⟨hquality, hall, hlookup⟩ := foldl_aggregateInto hvalid
      obtain ⟨-, hqualities⟩ := valid_of_foldl_worstQuality hquality
      intro sample hsample
      refine ⟨hqualities _ (mem_map_of_mem hsample), ?_, ?_⟩
      · funext name
        refine Eq.trans ?_ (congrArg (Option.map _) (hlookup name)).symm
        by_cases hname : name ∈ metricNames samples
        · obtain ⟨value, hvalue⟩ := Option.isSome_iff_exists.mp (hall name hname)
          rw [if_pos hname, hvalue, schema_of_aggregateMetric hvalue sample hsample, map_some]
        · have hnone : name ∉ sample.metrics := fun hmem => hname (mem_metricNames.mpr ⟨_, hsample, hmem⟩)
          rw [if_neg hname, MetricBatch.schema_eq_none hnone]
          rfl
      · simpa using all_eq_true.mp hmatch sample hsample
    · rw [if_neg hmatch] at hvalid
      exact absurd (worstQuality_eq_valid.mp hvalid).2 (by decide)

end Aggregates

section Conclusions

variable {V F : Type} [JsonValue V F] [MetricNumber F]

theorem ne_of_concludes_eq_false {evidence : List (ComparisonEvidence V)}
    {conclusion : ComparisonConclusion} (h : concludes evidence conclusion = false) :
    ∀ e ∈ evidence, e.conclusion ≠ conclusion := by
  simpa [concludes] using h

theorem fingerprint_of_trusted {baseline candidate : MetricBatch V}
    (h : fingerprintUntrusted baseline candidate = false) :
    ∃ fingerprint, baseline.workloadFingerprint = some fingerprint ∧
      candidate.workloadFingerprint = some fingerprint := by
  unfold fingerprintUntrusted at h
  split at h
  next fingerprint other hbaseline hcandidate =>
    have hsame : fingerprint = other := by simpa using h
    exact ⟨fingerprint, hbaseline, hsame ▸ hcandidate⟩
  next => cases h

/-- What the verdict kernel has checked before it reports an improvement. -/
structure Justified (systemBaseline systemCandidate baseline candidate : MetricBatch V)
    (groups : ComparisonEvidenceGroups V) : Prop where
  systemBaseline_valid : systemBaseline.quality = .valid
  systemCandidate_valid : systemCandidate.quality = .valid
  baseline_valid : baseline.quality = .valid
  candidate_valid : candidate.quality = .valid
  comparable : VerdictKernel.schemasAreComparable systemBaseline systemCandidate baseline candidate = true
  fingerprint : ∃ fingerprint, baseline.workloadFingerprint = some fingerprint ∧
    candidate.workloadFingerprint = some fingerprint
  primary_ne : groups.primary ≠ []
  primary_improved : ∀ e ∈ groups.primary, e.conclusion = .improved
  not_worse : ∀ e ∈ groups.regressionGuards ++ groups.workloadInvariants, e.conclusion ≠ .notImproved
  conclusive : ∀ e ∈ groups.primary ++ groups.regressionGuards ++ groups.workloadInvariants,
    e.conclusion ≠ .inconclusive

theorem justified_of_improved {systemBaseline systemCandidate baseline candidate : MetricBatch V}
    {groups : ComparisonEvidenceGroups V}
    (h : (VerdictKernel.decide systemBaseline systemCandidate baseline candidate groups :
      EvaluationDecision V F).verdict = .improved) :
    Justified systemBaseline systemCandidate baseline candidate groups := by
  unfold VerdictKernel.decide at h
  dsimp only at h
  split_ifs at h with hsystem hregression hincomplete hschema huntrusted hprimary
  simp only [Bool.or_eq_true, decide_eq_true_eq, not_or, ne_eq, Decidable.not_not]
    at hincomplete
  simp only [Bool.not_eq_true, Bool.not_eq_false'] at hschema
  simp only [Bool.or_eq_true, not_or, Bool.not_eq_true] at huntrusted
  simp only [Bool.and_eq_true, Bool.not_eq_true', List.isEmpty_eq_false_iff, List.all_eq_true,
    decide_eq_true_eq] at hprimary
  obtain ⟨⟨⟨hsystemBaseline, hsystemCandidate⟩, hbaseline⟩, hcandidate⟩ := hincomplete
  obtain ⟨⟨⟨hfingerprint, -⟩, ⟨hfirst, hsecond⟩, hthird⟩, hinvariants⟩ := huntrusted
  exact
    { systemBaseline_valid := hsystemBaseline
      systemCandidate_valid := hsystemCandidate
      baseline_valid := hbaseline
      candidate_valid := hcandidate
      comparable := hschema
      fingerprint := fingerprint_of_trusted hfingerprint
      primary_ne := hprimary.1
      primary_improved := hprimary.2
      not_worse := List.forall_mem_append.mpr
        ⟨ne_of_concludes_eq_false (Bool.not_eq_true _ ▸ hregression),
          ne_of_concludes_eq_false hinvariants⟩
      conclusive := forall_mem_append.mpr
        ⟨forall_mem_append.mpr
          ⟨ne_of_concludes_eq_false hfirst, ne_of_concludes_eq_false hsecond⟩,
          ne_of_concludes_eq_false hthird⟩ }

end Conclusions

section Samples

variable {V F σ : Type} [DecidableEq V]

/-- What the sampling of one measurement was answered. -/
def answersOf (binding : MeasurementBinding V) (l : List (Event V)) :
    List (Except ProviderError (MetricBatch V)) :=
  l.filterMap fun
    | .sampled sampled _ answer => if sampled = binding then some answer else none
    | _ => none

omit [DecidableEq V] in
def Event.isComparison : Event V → Bool
  | .compared .. => true
  | _ => false

omit [DecidableEq V] in
def comparisonsOf (l : List (Event V)) : List (Event V) := l.filter Event.isComparison

@[simp] theorem answersOf_append (binding : MeasurementBinding V) (l l' : List (Event V)) :
    answersOf binding (l ++ l') = answersOf binding l ++ answersOf binding l' :=
  filterMap_append

omit [DecidableEq V] in
@[simp] theorem comparisonsOf_append (l l' : List (Event V)) :
    comparisonsOf (l ++ l') = comparisonsOf l ++ comparisonsOf l' :=
  filter_append l l'

theorem answersOf_calls (binding : MeasurementBinding V) (l : List (Event V)) :
    answersOf binding (calls l) = answersOf binding l := by
  unfold answersOf calls
  rw [filterMap_filter]
  congr 1
  funext e
  cases e <;> rfl

omit [DecidableEq V] in
theorem comparisonsOf_calls (l : List (Event V)) : comparisonsOf (calls l) = comparisonsOf l := by
  unfold comparisonsOf calls
  rw [List.filter_filter]
  congr 1
  funext e
  cases e <;> rfl

variable {l : List (Event V)}

/-- Calls that neither sample nor compare. -/
theorem answersOf_of_validating (h : ∀ e ∈ l, e.IsValidation) (binding : MeasurementBinding V) :
    answersOf binding l = [] := by
  refine filterMap_eq_nil_iff.mpr fun e he => ?_
  have hvalidation := h e he
  cases e <;> first | rfl | exact hvalidation.elim

omit [DecidableEq V] in
theorem comparisonsOf_of_validating (h : ∀ e ∈ l, e.IsValidation) : comparisonsOf l = [] := by
  refine filter_eq_nil_iff.mpr fun e he => ?_
  have hvalidation := h e he
  cases e <;> first | exact Bool.false_ne_true | exact hvalidation.elim

theorem answersOf_sessionCalls (binding sampled : MeasurementBinding V) (context : InvocationContext)
    (session : MeasurementSession V) (answers : List (Except ProviderError (MetricBatch V)))
    (closing : Except ProviderError (CleanupReceipt V)) :
    answersOf binding (sessionCalls sampled context session answers closing) =
      if sampled = binding then answers else [] := by
  have hsamples : answersOf binding (sampleCalls sampled context session answers) =
      if sampled = binding then answers else [] := by
    unfold answersOf sampleCalls
    rw [filterMap_map]
    by_cases h : sampled = binding
    · simp [h]
    · simp [h]
  refine Eq.trans ?_ hsamples
  rw [← append_nil (answersOf binding (sampleCalls sampled context session answers))]
  exact answersOf_append binding _ [.closed sampled session closing]

omit [DecidableEq V] in
theorem comparisonsOf_sessionCalls (sampled : MeasurementBinding V) (context : InvocationContext)
    (session : MeasurementSession V) (answers : List (Except ProviderError (MetricBatch V)))
    (closing : Except ProviderError (CleanupReceipt V)) :
    comparisonsOf (sessionCalls sampled context session answers closing) = [] := by
  refine List.filter_eq_nil_iff.mpr fun e he => ?_
  simp only [sessionCalls, sampleCalls, List.mem_cons, List.mem_append, List.mem_map,
    List.not_mem_nil, or_false] at he
  rcases he with rfl | ⟨_, _, rfl⟩ | rfl <;> exact Bool.false_ne_true

theorem answersOf_compareCalls (binding : MeasurementBinding V)
    (request : ComparisonBinding V → ComparisonRequest V) (bindings : List (ComparisonBinding V))
    (answers : List (Except ProviderError (ComparisonEvidence V))) :
    answersOf binding (compareCalls request bindings answers) = [] := by
  refine filterMap_eq_nil_iff.mpr fun e he => ?_
  obtain ⟨i, hi, rfl⟩ := getElem_of_mem he
  simp only [compareCalls, getElem_zipWith]

omit [DecidableEq V] in
theorem comparisonsOf_compareCalls (request : ComparisonBinding V → ComparisonRequest V)
    (bindings : List (ComparisonBinding V))
    (answers : List (Except ProviderError (ComparisonEvidence V))) :
    comparisonsOf (compareCalls request bindings answers) = compareCalls request bindings answers := by
  refine filter_eq_self.mpr fun e he => ?_
  obtain ⟨i, hi, rfl⟩ := getElem_of_mem he
  simp only [compareCalls, getElem_zipWith, Event.isComparison]

variable [JsonValue V F] [MetricNumber F]

/-- All samples that a sampling plan asks for were taken, and they aggregate to the batch. -/
def Gathered (binding : MeasurementBinding V) (plan : SamplingPlan) (batch : MetricBatch V)
    (l : List (Event V)) : Prop :=
  ∃ samples, samples.length = plan.sampleCount ∧ answersOf binding l = samples.map .ok ∧
    aggregateSamples samples = .ok batch

variable {binding : MeasurementBinding V} {plan : SamplingPlan} {batch : MetricBatch V}

theorem gathered_of_measuredSession {sided : InvocationContext} {c : List (Event V)}
    (h : MeasuredSession binding sided plan batch c) :
    Gathered binding plan batch c ∧ (∀ other ≠ binding, answersOf other c = []) ∧
      comparisonsOf c = [] := by
  obtain ⟨session, taken, closing, hlength, haggregate, rfl⟩ := h
  refine ⟨⟨taken, hlength, ?_, haggregate⟩, fun other hother => ?_, comparisonsOf_sessionCalls ..⟩
  · rw [answersOf_sessionCalls, if_pos rfl]
  · rw [answersOf_sessionCalls, if_neg hother.symm]

/-- A batch stands for all samples that it was aggregated from. -/
theorem Gathered.valid (h : Gathered binding plan batch l) (hvalid : batch.quality = .valid) :
    ∀ answer ∈ answersOf binding l, ∃ sample, answer = .ok sample ∧ sample.quality = .valid ∧
      sample.schema = batch.schema ∧ sample.workloadFingerprint = batch.workloadFingerprint := by
  obtain ⟨samples, -, hanswers, haggregate⟩ := h
  intro answer hanswer
  rw [hanswers] at hanswer
  obtain ⟨sample, hsample, rfl⟩ := mem_map.mp hanswer
  exact ⟨sample, rfl, of_aggregateSamples_valid haggregate hvalid sample hsample⟩

/-- The samples of one measurement on both sides of the replay, if its two batches are valid and
agree. -/
theorem Gathered.uniform {baseline candidate : MetricBatch V} {before after : List (Event V)}
    {ids : List ChangeId} {replay : Except String (TransactionStepEvidence V)}
    (hsplit : l = before ++ .replayed ids replay :: after)
    (hbefore : Gathered binding plan baseline before)
    (hafter : Gathered binding plan candidate after) (hbaseline : baseline.quality = .valid)
    (hcandidate : candidate.quality = .valid)
    (hmatch : metricSchemasMatch baseline candidate = true) :
    ∀ answer ∈ answersOf binding l, ∃ sample, answer = .ok sample ∧
      sample.quality = .valid ∧ sample.schema = baseline.schema ∧
      (sample.workloadFingerprint = baseline.workloadFingerprint ∨
        sample.workloadFingerprint = candidate.workloadFingerprint) := by
  have hanswers : answersOf binding l = answersOf binding before ++ answersOf binding after := by
    rw [hsplit, answersOf_append]
    rfl
  intro answer hanswer
  rw [hanswers, mem_append] at hanswer
  rcases hanswer with hanswer | hanswer
  · obtain ⟨sample, rfl, hquality, hschema, hfingerprint⟩ := hbefore.valid hbaseline answer hanswer
    exact ⟨sample, rfl, hquality, hschema, .inl hfingerprint⟩
  · obtain ⟨sample, rfl, hquality, hschema, hfingerprint⟩ := hafter.valid hcandidate answer hanswer
    exact ⟨sample, rfl, hquality, hschema.trans (schema_eq_of_match hmatch).symm, .inr hfingerprint⟩

variable [Sha256] [Serialize (ContractParts V)] {protocol : AbEvaluationProtocol V σ}
  {contract : FrozenEvaluationContract V} {sided : InvocationContext}
  {guardrails measured : MetricBatch V} {c : List (Event V)}

theorem gathered_of_measuredSide (h : MeasuredSide protocol contract sided guardrails measured c) :
    Gathered protocol.guardrailBinding contract.sampling guardrails c ∧
      Gathered contract.measurement contract.sampling measured c ∧
      (∀ binding, binding ≠ protocol.guardrailBinding → binding ≠ contract.measurement →
        answersOf binding c = []) ∧ comparisonsOf c = [] := by
  unfold MeasuredSide at h
  split_ifs at h with hshared
  · obtain ⟨rfl, hsession⟩ := h
    obtain ⟨hgathered, hothers, hcomparisons⟩ := gathered_of_measuredSession hsession
    rw [MeasurementBinding.ext hshared.1 hshared.2]
    exact ⟨hgathered, hgathered, fun binding hne _ => hothers binding hne, hcomparisons⟩
  · obtain ⟨c₁, c₂, rfl, hfirst, hsecond⟩ := h
    have hdistinct : contract.measurement ≠ protocol.guardrailBinding :=
      fun hsame => hshared ⟨congrArg _ hsame, congrArg _ hsame⟩
    obtain ⟨hguardrails, hothers, hcomparisons⟩ := gathered_of_measuredSession hfirst
    obtain ⟨hmeasured, hothers', hcomparisons'⟩ := gathered_of_measuredSession hsecond
    unfold Gathered
    refine ⟨?_, ?_, fun binding hguardrail hmeasurement => ?_, ?_⟩
    · rw [answersOf_append, hothers' _ hdistinct.symm, append_nil]
      exact hguardrails
    · rw [answersOf_append, hothers _ hdistinct, nil_append]
      exact hmeasured
    · rw [answersOf_append, hothers _ hguardrail, hothers' _ hmeasurement, append_nil]
    · rw [comparisonsOf_append, hcomparisons, hcomparisons', append_nil]

variable [Serialize IntentDigestPayload] {context : InvocationContext}
  {intent : FrozenEvaluationIntent V} {candidate : Candidate} {evidence : AbEvaluationEvidence V F}

/-- The two sides of an evaluation that returned, on either side of the replay. -/
theorem gathered_of_evaluated (h : Evaluated protocol context intent candidate evidence (calls l)) :
    ∃ before after,
      l = before ++ .replayed candidate.changeIds (.ok evidence.candidateReplay) :: after ∧
      Gathered protocol.guardrailBinding intent.contract.sampling
        evidence.baselineSystemGuardrails.batch before ∧
      Gathered intent.contract.measurement intent.contract.sampling
        evidence.baselineMeasurement.batch before ∧
      Gathered protocol.guardrailBinding intent.contract.sampling
        evidence.candidateSystemGuardrails.batch after ∧
      Gathered intent.contract.measurement intent.contract.sampling
        evidence.candidateMeasurement.batch after ∧
      (∀ binding, binding ≠ protocol.guardrailBinding → binding ≠ intent.contract.measurement →
        answersOf binding l = []) ∧
      ComparedSides context intent.contract
        (VerdictKernel.schemasAreComparable evidence.baselineSystemGuardrails.batch
          evidence.candidateSystemGuardrails.batch evidence.baselineMeasurement.batch
          evidence.candidateMeasurement.batch)
        evidence.baselineMeasurement.batch evidence.candidateMeasurement.batch
        evidence.decision.policyEvidence (comparisonsOf l) := by
  obtain ⟨validations, baseline, replayed, comparisons, _, _, hcalls, hvalidations, hbaseline,
    hreplayed, hcompared, -⟩ := h
  obtain ⟨hsystemBaseline, hmeasuredBaseline, hothers, hnone⟩ := gathered_of_measuredSide hbaseline
  obtain ⟨hsystemCandidate, hmeasuredCandidate, hothers', hnone'⟩ := gathered_of_measuredSide hreplayed
  have hcomparisons : comparisonsOf comparisons = comparisons ∧
      ∀ binding, answersOf binding comparisons = [] := by
    unfold ComparedSides at hcompared
    split_ifs at hcompared
    · obtain ⟨-, -, -, rfl⟩ := hcompared
      exact ⟨comparisonsOf_compareCalls .., fun binding => answersOf_compareCalls ..⟩
    · obtain ⟨-, rfl⟩ := hcompared
      exact ⟨rfl, fun _ => rfl⟩
  have hrestored (binding : MeasurementBinding V) : answersOf binding
      [.restored candidate.changeIds (.ok evidence.baselineRestore)] = [] := rfl
  have hsplit : calls l = (validations ++
      [.restored candidate.changeIds (.ok evidence.baselineRestore)] ++ baseline) ++
      (.replayed candidate.changeIds (.ok evidence.candidateReplay) :: (replayed ++ comparisons)) := by
    rw [hcalls]
    simp
  obtain ⟨before, rest, rfl, hbefore, hrest⟩ := filter_eq_append_iff.mp hsplit
  obtain ⟨skipped, after, rfl, hskipped, -, hafter⟩ := filter_eq_cons_iff.mp hrest
  have hskip : calls skipped = [] := filter_eq_nil_iff.mpr hskipped
  have hbefore' (binding : MeasurementBinding V) :
      answersOf binding (before ++ skipped) = answersOf binding baseline := by
    rw [← answersOf_calls, calls_append, hskip, append_nil]
    exact (congrArg (answersOf binding) hbefore).trans (by
      rw [answersOf_append, answersOf_append, answersOf_of_validating hvalidations, hrestored]; rfl)
  have hafter' (binding : MeasurementBinding V) :
      answersOf binding after = answersOf binding replayed := by
    rw [← answersOf_calls]
    exact (congrArg (answersOf binding) hafter).trans (by
      rw [answersOf_append, hcomparisons.2, append_nil])
  refine ⟨before ++ skipped, after, by simp, ?_, ?_, ?_, ?_, fun binding hguardrail hmeasurement => ?_,
    ?_⟩
  · unfold Gathered
    rw [hbefore']
    exact hsystemBaseline
  · unfold Gathered
    rw [hbefore']
    exact hmeasuredBaseline
  · unfold Gathered
    rw [hafter']
    exact hsystemCandidate
  · unfold Gathered
    rw [hafter']
    exact hmeasuredCandidate
  · rw [← answersOf_calls, hcalls]
    simp only [answersOf_append, answersOf_of_validating hvalidations, hrestored,
      hothers binding hguardrail hmeasurement, hothers' binding hguardrail hmeasurement,
      hcomparisons.2]
    rfl
  · have hall : comparisonsOf (before ++ (skipped ++
        .replayed candidate.changeIds (.ok evidence.candidateReplay) :: after)) = comparisons := by
      rw [← comparisonsOf_calls, hcalls]
      simp only [comparisonsOf_append, comparisonsOf_of_validating hvalidations, hnone, hnone',
        hcomparisons.1]
      rfl
    rw [hall]
    exact hcompared

variable [Serialize (MetricBatch V)] [Serialize (CleanupReceipt V)] [Serialize (ComparisonEvidence V)]

theorem improved_verdict_fails_closed (clock : Clock σ) (protocol : AbEvaluationProtocol V σ)
    (port : TransactionPort V σ) (context : InvocationContext) (intent : FrozenEvaluationIntent V)
    (candidate : Candidate) (evidence : AbEvaluationEvidence V F) (s t : Traced σ (Event V))
    (hreturned : protocol.evaluate clock port context intent candidate s = (.ok evidence, t))
    (himproved : evidence.decision.verdict = .improved) :
    ∃ new before after, t.trace = s.trace ++ new ∧
      new = before ++ .replayed candidate.changeIds (.ok evidence.candidateReplay) :: after ∧
      -- every binding was compared once, on the aggregated batches of the two sides
      intent.contract.primary ≠ [] ∧
      (∃ baselineBatch candidateBatch, ∃ groups : ComparisonEvidenceGroups V,
        Gathered intent.contract.measurement intent.contract.sampling baselineBatch before ∧
        Gathered intent.contract.measurement intent.contract.sampling candidateBatch after ∧
        groups.primary.length = intent.contract.primary.length ∧
        groups.regressionGuards.length = intent.contract.regressionGuards.length ∧
        groups.workloadInvariants.length = intent.contract.workloadInvariants.length ∧
        comparisonsOf new =
          compareCalls
            (fun binding => ⟨context, intent.contract.id, binding.specification, baselineBatch,
              candidateBatch⟩)
            intent.contract.parts.comparisons
            ((groups.primary ++ groups.regressionGuards ++ groups.workloadInvariants).map .ok) ∧
        (∀ e ∈ groups.primary, e.conclusion = .improved) ∧
        (∀ e ∈ groups.regressionGuards ++ groups.workloadInvariants,
          e.conclusion ≠ .notImproved) ∧
        ∀ e ∈ groups.primary ++ groups.regressionGuards ++ groups.workloadInvariants,
          e.conclusion ≠ .inconclusive) ∧
      -- every sample is valid, and all samples of one measurement have the same metrics
      (∃ baselineBatch candidateBatch,
        Gathered protocol.guardrailBinding intent.contract.sampling baselineBatch before ∧
        Gathered protocol.guardrailBinding intent.contract.sampling candidateBatch after) ∧
      (∀ binding, ∀ answer ∈ answersOf binding new,
        ∃ sample, answer = .ok sample ∧ sample.quality = .valid) ∧
      (∀ binding sample other, .ok sample ∈ answersOf binding new →
        .ok other ∈ answersOf binding new → sample.schema = other.schema) ∧
      -- the samples of the contract's measurement have one fingerprint
      ∃ fingerprint, ∀ sample, .ok sample ∈ answersOf intent.contract.measurement new →
        sample.workloadFingerprint = some fingerprint := by
  obtain ⟨new, htrace, hnew⟩ := calls_evaluate clock protocol port context intent candidate s
  rw [hreturned] at htrace hnew
  obtain ⟨-, -, hevaluated⟩ := hnew
  obtain ⟨before, after, hsplit, hsystemBefore, hbefore, hsystemAfter, hafter, hothers, hcompared⟩ :=
    gathered_of_evaluated hevaluated
  obtain ⟨-, -, -, -, -, -, -, -, -, -, -, hdecision⟩ := hevaluated
  rw [hdecision] at himproved
  have hjustified := justified_of_improved himproved
  have hcomparable := hjustified.comparable
  rw [ComparedSides, if_pos hcomparable] at hcompared
  obtain ⟨hprimary, hguards, hinvariants, hcomparisons⟩ := hcompared
  simp only [VerdictKernel.schemasAreComparable, Bool.and_eq_true] at hcomparable
  obtain ⟨fingerprint, hbaselineFingerprint, hcandidateFingerprint⟩ := hjustified.fingerprint
  have hsystem := hsystemBefore.uniform hsplit hsystemAfter hjustified.systemBaseline_valid
    hjustified.systemCandidate_valid hcomparable.1
  have hmeasured := hbefore.uniform hsplit hafter hjustified.baseline_valid
    hjustified.candidate_valid hcomparable.2
  have huniform (binding : MeasurementBinding V) : ∃ schema, ∀ answer ∈ answersOf binding new,
      ∃ sample, answer = .ok sample ∧ sample.quality = .valid ∧ sample.schema = schema := by
    by_cases hguardrail : binding = protocol.guardrailBinding
    · subst hguardrail
      refine ⟨evidence.baselineSystemGuardrails.batch.schema, fun answer hanswer => ?_⟩
      obtain ⟨sample, rfl, hquality, hschema, -⟩ := hsystem answer hanswer
      exact ⟨sample, rfl, hquality, hschema⟩
    · by_cases hmeasurement : binding = intent.contract.measurement
      · subst hmeasurement
        refine ⟨evidence.baselineMeasurement.batch.schema, fun answer hanswer => ?_⟩
        obtain ⟨sample, rfl, hquality, hschema, -⟩ := hmeasured answer hanswer
        exact ⟨sample, rfl, hquality, hschema⟩
      · refine ⟨fun _ => none, ?_⟩
        rw [hothers binding hguardrail hmeasurement]
        nofun
  refine ⟨new, before, after, htrace, hsplit, ?_, ⟨_, _, evidence.decision.policyEvidence, hbefore,
    hafter, hprimary, hguards, hinvariants, hcomparisons, hjustified.primary_improved,
    hjustified.not_worse, hjustified.conclusive⟩, ⟨_, _, hsystemBefore, hsystemAfter⟩, ?_, ?_,
    fingerprint, ?_⟩
  · rw [← length_pos_iff, ← hprimary]
    exact length_pos_iff.mpr hjustified.primary_ne
  · intro binding answer hanswer
    obtain ⟨schema, hall⟩ := huniform binding
    obtain ⟨sample, rfl, hquality, -⟩ := hall answer hanswer
    exact ⟨sample, rfl, hquality⟩
  · intro binding sample other hsample hother
    obtain ⟨schema, hall⟩ := huniform binding
    obtain ⟨_, ⟨⟩, -, hschema⟩ := hall _ hsample
    obtain ⟨_, ⟨⟩, -, hschema'⟩ := hall _ hother
    exact hschema.trans hschema'.symm
  · intro sample hsample
    obtain ⟨_, ⟨⟩, -, -, hfingerprint⟩ := hmeasured _ hsample
    rcases hfingerprint with hfingerprint | hfingerprint
    · rw [hfingerprint, hbaselineFingerprint]
    · rw [hfingerprint, hcandidateFingerprint]

end Samples

namespace TwoSamples

/-- JSON with one object, the empty one, and integers for numbers. -/
local instance : JsonValue (Option ℤ) ℤ where
  asF64 value := value
  asBool _ := none
  asStr _ := none
  asArray _ := none
  asObject value := if value.isNone then some [] else none
  ofF64 := some
  ofBool _ := none
  ofNat n := some n
  ofStr _ := none
  ofArray _ := none
  ofObject _ := none

local instance : MetricNumber ℤ where
  two := 2
  hundred := 100
  epsilon := 0
  abs n := |n|
  max := max
  le a b := a ≤ b
  totalLe a b := a ≤ b
  isFinite _ := true
  display n := toString n

local instance {β : Type} : Serialize β := ⟨fun _ => .ok []⟩

local instance : Sha256 := ⟨fun _ => Vector.replicate 32 0⟩

def zeroDigest : Digest := ⟨"sha256:0000000000000000000000000000000000000000000000000000000000000000", by decide +kernel⟩

def clock : Clock Unit := ⟨fun s => (0, s), fun _ s => ((), s), fun a b => some (a + b)⟩

def provider : ProviderPin :=
  ⟨⟨"test.provider", testProvider_valid⟩, ⟨"1.0.0", version_valid⟩, .builtin, zeroDigest⟩

def capability (id : CapabilityId) : CapabilityMeta (Option ℤ) where
  id
  effect := .readOnly
  provider
  outputSchema := none
  role := .agentSelectable
  allowedPhases := [.commitPending]
  limits := ⟨1000, 65536⟩

def latencyId : CapabilityId := ⟨"test/measurement.latency.v1", by decide +kernel⟩

def thresholdId : CapabilityId := ⟨"test/comparison.threshold.v1", by decide +kernel⟩

def session : MeasurementSession (Option ℤ) := ⟨⟨"session", by decide +kernel⟩, none⟩

def batch (value : ℤ) : MetricBatch (Option ℤ) where
  startedAtNs := 0
  endedAtNs := 1
  quality := .valid
  workloadFingerprint := some "workload"
  metrics := (∅ : TreeMap String (MetricValue (Option ℤ))).insert "latency" ⟨some value, "ms", .gauge⟩
  provenance := none

def measurement (id : CapabilityId) : MeasurementProvider (Option ℤ) Unit where
  capabilityMeta := capability id
  validateSpecification _ s := (.ok (), s)
  openSession _ s := (.ok session, s)
  sample _ s := (.ok (batch 5), s)
  close session s := (.ok ⟨session.id, true, none⟩, s)

def policy : ComparisonPolicy (Option ℤ) Unit where
  capabilityMeta := capability thresholdId
  validateSpecification _ s := (.ok (), s)
  compare _ s := (.ok ⟨.improved, [], none⟩, s)

def protocol : AbEvaluationProtocol (Option ℤ) Unit where
  capabilities :=
    { generation := 1
      metadata := ((∅ : TreeMap CapabilityId (CapabilityMeta (Option ℤ))).insert latencyId
        (capability latencyId)).insert thresholdId (capability thresholdId)
      measurements := (∅ : TreeMap CapabilityId (MeasurementProvider (Option ℤ) Unit)).insert latencyId
        (measurement latencyId)
      comparisons := (∅ : TreeMap CapabilityId (ComparisonPolicy (Option ℤ) Unit)).insert thresholdId
        policy }
  guardrailMeasurement := measurement trustedGuardrailMeasurementId
  guardrailBinding := ⟨trustedGuardrailMeasurementId, none⟩
  evaluationTimeout := fromMillis 60000

def port : TransactionPort (Option ℤ) Unit :=
  ⟨fun _ => pure ⟨none, none⟩, fun _ => pure ⟨none, none⟩⟩

def contract : FrozenEvaluationContract (Option ℤ) where
  parts :=
    { id := ⟨"contract", by decide +kernel⟩
      measurement := ⟨latencyId, none⟩
      primary := [⟨thresholdId, none⟩]
      regressionGuards := []
      workloadInvariants := [⟨thresholdId, none⟩]
      sampling := ⟨0, 2, 10⟩
      capabilityGeneration := 1
      capabilityPins := [⟨thresholdId, provider⟩, ⟨latencyId, provider⟩] }
  digest := zeroDigest
  checked := by decide +kernel
  digest_eq := by decide +kernel

def context : InvocationContext :=
  ⟨⟨7⟩, ⟨"operation", by decide +kernel⟩⟩

def intent : FrozenEvaluationIntent (Option ℤ) where
  pin := ⟨context.episodeId, zeroDigest, zeroDigest⟩
  objective := ⟨"lower latency", by decide +kernel⟩
  contract
  contractDigest_eq := rfl
  intentDigest_eq := by decide +kernel

def candidate : Candidate where
  changeIds := [⟨"change/a", changeA_valid⟩]
  digest := zeroDigest
  nonempty := nofun
  nodup := by decide
  digest_eq := by decide +kernel

/-- Two samples on each side, all of them valid. -/
theorem improved_verdict_fails_closed_two_samples :
    ∃ evidence t, protocol.evaluate clock port context intent candidate ⟨(), []⟩ = (.ok evidence, t) ∧
      evidence.decision.verdict = .improved ∧
      (answersOf contract.measurement t.trace).length = 4 ∧
      ∀ answer ∈ answersOf contract.measurement t.trace,
        ∃ sample, answer = .ok sample ∧ sample.quality = .valid := by
  obtain ⟨evidence, t, hreturned, hrun⟩ := exists_of_returns
    (show returns (fun evidence t => evidence.decision.verdict = .improved &&
        (answersOf contract.measurement t.trace).length = 4)
      (protocol.evaluate clock port context intent candidate ⟨(), []⟩) = true by decide +kernel)
  simp only [Bool.and_eq_true, decide_eq_true_eq] at hrun
  obtain ⟨_, _, _, htrace, -, -, -, -, hvalid, -, -⟩ := improved_verdict_fails_closed clock protocol
    port context intent candidate evidence ⟨(), []⟩ t hreturned hrun.1
  rw [nil_append] at htrace
  rw [← htrace] at hvalid
  exact ⟨evidence, t, hreturned, hrun.1, hrun.2, hvalid contract.measurement⟩

end TwoSamples

end ScxAgent.Evaluation
