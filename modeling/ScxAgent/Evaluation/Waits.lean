import ScxAgent.ExceptRules
import ScxAgent.TraceCosts
import ScxAgent.Evaluation.FailClosed

/-!
# The waits of an evaluation

The only waits are the settling after each move of the transaction and the intervals between the
samples of a collection. A run that completes waits exactly as long as `ensure_schedule_fits`
computes, and a run that stops early no longer.
-/

namespace ScxAgent.Evaluation

open Std StepLogic TraceLogic List Nat AbEvaluationProtocol

section Events

variable {V : Type}

namespace Event

def isReplay : Event V → Bool
  | .replayed .. => true
  | _ => false

def waitNs : Event V → ℕ
  | .waited duration => duration
  | _ => 0

/-- The time that an event waits, and whether it is the move to the candidate's side. -/
def cost (e : Event V) : ℕ × ℕ := (e.waitNs, if e.isReplay then 1 else 0)

end Event

def waitedNs (l : List (Event V)) : ℕ := (l.map Event.waitNs).sum

/-- The waits while the baseline is restored and measured. -/
def baselineWaitNs (l : List (Event V)) : ℕ := waitedNs (l.takeWhile fun e => !e.isReplay)

/-- The waits from the replay of the candidate on. -/
def candidateWaitNs (l : List (Event V)) : ℕ := waitedNs (l.dropWhile fun e => !e.isReplay)

theorem waitedNs_append (l l' : List (Event V)) :
    waitedNs (l ++ l') = waitedNs l + waitedNs l' := by
  rw [waitedNs, map_append, List.sum_append, waitedNs, waitedNs]

theorem baselineWaitNs_add_candidateWaitNs (l : List (Event V)) :
    baselineWaitNs l + candidateWaitNs l = waitedNs l := by
  rw [baselineWaitNs, candidateWaitNs, ← waitedNs_append, takeWhile_append_dropWhile]

theorem spent_cost (l : List (Event V)) :
    spent Event.cost l = (waitedNs l, l.countP Event.isReplay) := by
  induction l with
  | nil => rfl
  | cons event l ih =>
    have hwaited : waitedNs (event :: l) = event.waitNs + waitedNs l := sum_cons
    rw [spent_cons, ih, hwaited, countP_cons, Event.cost, Prod.mk_add_mk, add_comm (ite _ _ _)]

variable {l : List (Event V)}

/-- Nothing of a list without a replay belongs to the candidate's side. -/
theorem sides_append (h : l.countP Event.isReplay = 0) (l' : List (Event V)) :
    baselineWaitNs (l ++ l') = waitedNs l + baselineWaitNs l' ∧
      candidateWaitNs (l ++ l') = candidateWaitNs l' := by
  have hnone : ∀ e ∈ l, (!e.isReplay) = true := by simpa using h
  constructor
  · rw [baselineWaitNs, takeWhile_append_of_pos hnone, waitedNs_append, baselineWaitNs]
  · rw [candidateWaitNs, dropWhile_append_of_pos hnone, candidateWaitNs]

/-- Everything after a replay belongs to the candidate's side. -/
theorem sides_append_of_replay (h : ∃ e ∈ l, e.isReplay = true) (l' : List (Event V)) :
    baselineWaitNs (l ++ l') = baselineWaitNs l ∧
      candidateWaitNs (l ++ l') = candidateWaitNs l + waitedNs l' := by
  induction l with
  | nil => simp at h
  | cons event l ih =>
    cases hevent : event.isReplay with
    | true =>
      constructor
      · simp [baselineWaitNs, hevent]
      · simp only [candidateWaitNs, cons_append, dropWhile_cons, hevent, Bool.not_true,
          Bool.false_eq_true, if_false]
        exact waitedNs_append (event :: l) l'
    | false =>
      obtain ⟨hbaseline, hcandidate⟩ := ih (by simpa [hevent] using h)
      have hone : [event].countP Event.isReplay = 0 := by simp [hevent]
      obtain ⟨hb, hc⟩ := sides_append hone (l ++ l')
      obtain ⟨hb', hc'⟩ := sides_append hone l
      rw [← singleton_append, append_assoc]
      exact ⟨by rw [hb, hb', hbaseline], by rw [hc, hc', hcandidate]⟩

end Events

/-- The program waits for the given time if it returns and for no longer if it stops, and it does
not replay the candidate. -/
abbrev Waits {V σ α : Type} (p : EvaluationM V σ α) (ns : ℕ) : Prop := Spends Event.cost p (ns, 0)

namespace Waits

variable {V σ α β : Type} {n m : ℕ}

theorem refuse (error : EvaluationError) (ns : ℕ) :
    Waits (Evaluation.refuse error : EvaluationM V σ α) ns :=
  Spends.free_bind (Emits.emit rfl) fun _ => .raise _ _

theorem orRefuse (r : Except EvaluationError α) :
    Waits (Evaluation.orRefuse r : EvaluationM V σ α) 0 := by
  cases r with
  | ok a => exact .pure a
  | error error => exact refuse error 0

theorem requireSome (found : Option α) (error : EvaluationError) :
    Waits (requireSome found error : EvaluationM V σ α) 0 := by
  cases found with
  | none => exact refuse error 0
  | some a => exact .pure a

/-- A check that stops the program or lets it go on. -/
theorem guarded {c : Prop} [Decidable c] {error : EvaluationError}
    {f : Unit → EvaluationM V σ α} (hf : ∀ u, Waits (f u) n) :
    Waits (if c then Evaluation.refuse error >>= f else f ()) n :=
  .ite ((refuse error 0).free_bind hf) (hf ())

theorem bind {p : EvaluationM V σ β} {f : β → EvaluationM V σ α} (hp : Waits p n)
    (hf : ∀ b, Waits (f b) m) : Waits (p >>= f) (n + m) :=
  Spends.bind hp hf

/-- A call of a provider. -/
theorem ask {call : σ → α × σ} {event : α → Event V} (h : ∀ a, (event a).cost = 0) :
    Waits (TraceLogic.ask call event : EvaluationM V σ α) 0 :=
  Spends.ask h

variable (clock : Clock σ) (deadline : EvaluationDeadline)

theorem check (stage : String) : Waits (deadline.check clock stage : EvaluationM V σ Unit) 0 :=
  (Spends.consult _).free_bind fun _ =>
    .ite ((Spends.consult _).free_bind fun _ => refuse _ _) (.pure _)

theorem ensureProviderCall (info : CapabilityMeta V) (stage : String) :
    Waits (deadline.ensureProviderCall clock info stage) 0 :=
  (check clock deadline stage).free_bind fun _ =>
    (Spends.consult _).free_bind fun _ => .ite (refuse _ _) (.pure _)

theorem settle (duration : ℕ) (stage : String) :
    Waits (deadline.settle clock duration stage : EvaluationM V σ Unit) duration := by
  refine (check clock deadline stage).free_bind fun _ => (Spends.consult _).free_bind fun _ => ?_
  refine guarded fun _ => ?_
  by_cases hzero : duration = 0
  · subst hzero
    exact check clock deadline stage
  · rw [if_pos hzero]
    have hwait : Waits (TraceLogic.ask (clock.sleep duration) fun _ => .waited duration :
        EvaluationM V σ Unit) duration := Spends.ask fun _ => rfl
    exact hwait.bind_free fun _ => check clock deadline stage

theorem within {deadline : Option EvaluationDeadline}
    {use : EvaluationDeadline → EvaluationM V σ Unit} (huse : ∀ deadline, Waits (use deadline) 0) :
    Waits (within deadline use) 0 := by
  cases deadline with
  | none => exact .pure _
  | some deadline => exact huse deadline

end Waits

section Sessions

variable {V F σ : Type} [JsonValue V F] [MetricNumber F] [Serialize (MetricBatch V)]
  [Serialize (CleanupReceipt V)] (clock : Clock σ) (provider : MeasurementProvider V σ)
  (binding : MeasurementBinding V) (context : InvocationContext) (session : MeasurementSession V)
  (plan : SamplingPlan) (deadline : EvaluationDeadline)

omit [JsonValue V F] [MetricNumber F] [Serialize (MetricBatch V)] [Serialize (CleanupReceipt V)] in
theorem Waits.ensureOutputLimit {β : Type} [Serialize β] (info : CapabilityMeta V) (value : β)
    (label : String) :
    Waits (Evaluation.ensureOutputLimit info value label : EvaluationM V σ Unit) 0 := by
  unfold Evaluation.ensureOutputLimit
  split
  · exact refuse _ _
  · exact .ite (refuse _ _) (.pure _)

omit [Serialize (CleanupReceipt V)] in
theorem waits_takeSample (number : ℕ) :
    Waits (takeSample clock provider binding context session deadline number) 0 := by
  refine (Waits.ensureProviderCall clock deadline _ _).free_bind fun _ => ?_
  refine (Waits.ask fun _ => rfl).free_bind fun answer => ?_
  refine (Waits.check clock deadline _).free_bind fun _ => ?_
  cases answer with
  | error error => exact Waits.refuse _ _
  | ok batch =>
    refine (Waits.ensureOutputLimit _ _ _).free_bind fun _ => ?_
    split
    · exact Waits.refuse _ _
    · exact .pure _

/-- The time between the samples of a loop with the given number of turns to go. -/
def intervalsNs (plan : SamplingPlan) (turns : ℕ) : ℕ :=
  (turns - 1) * fromMillis plan.sampleIntervalMs

omit [Serialize (CleanupReceipt V)] in
theorem waits_sampleRest (turns : ℕ) (samples : List (MetricBatch V)) :
    Waits (sampleRest clock provider binding context session plan deadline turns samples)
      (intervalsNs plan turns) := by
  induction turns generalizing samples with
  | zero =>
    rw [intervalsNs, Nat.zero_sub, Nat.zero_mul]
    exact .pure _
  | succ turns ih =>
    refine (waits_takeSample clock provider binding context session deadline _).free_bind
      fun batch => ?_
    dsimp only
    split_ifs with hwait
    · -- There is another turn, so one interval lies before it.
      have hintervals : intervalsNs plan (turns + 1) =
          fromMillis plan.sampleIntervalMs + intervalsNs plan turns := by
        obtain ⟨rest, rfl⟩ : ∃ rest, turns = rest + 1 := ⟨turns - 1, by omega⟩
        rw [intervalsNs, intervalsNs, Nat.add_sub_cancel, Nat.add_sub_cancel, Nat.succ_mul,
          Nat.add_comm]
      rw [hintervals]
      exact (Waits.settle clock deadline _ _).bind fun _ => ih _
    · have hintervals : intervalsNs plan (turns + 1) = intervalsNs plan turns := by
        rw [intervalsNs, intervalsNs, Nat.add_sub_cancel]
        by_cases hlast : turns = 0
        · rw [hlast]
        · have hzero : plan.sampleIntervalMs = 0 := by omega
          rw [hzero, fromMillis, zero_mul, mul_zero, mul_zero]
      rw [hintervals]
      exact ih _

omit [Serialize (MetricBatch V)] in
theorem Waits.confirmCleanup (samples : Except EvaluationError (List (MetricBatch V)))
    (answer : Except ProviderError (CleanupReceipt V)) :
    Waits (confirmCleanup provider binding session samples answer) 0 := by
  unfold Evaluation.confirmCleanup
  split
  · exact .ite (refuse _ _)
      (.ite ((ensureOutputLimit _ _ _).free_bind fun _ => .pure _) (refuse _ _))
  · exact refuse _ _

omit [Serialize (MetricBatch V)] in
/-- The end of a session, up to the samples that it was left with. -/
theorem waits_closeSession (samples : Except EvaluationError (List (MetricBatch V))) {n : ℕ × ℕ}
    (hsamples : ∀ taken, samples = .ok taken → n = 0) :
    Spends Event.cost (closeSession clock provider binding session samples plan deadline) n := by
  refine (Spends.attempt (Waits.ensureProviderCall clock deadline _ _)).free_bind fun admission => ?_
  refine (Waits.ask fun _ => rfl).free_bind fun answer => ?_
  refine (Spends.attempt (Waits.check clock deadline _)).free_bind fun budget => ?_
  refine (Waits.confirmCleanup provider binding session samples answer).free_bind fun cleanup => ?_
  refine (Spends.ofExcept admission).free_bind fun _ => ?_
  refine (Spends.ofExcept budget).free_bind fun _ => ?_
  cases samples with
  | error error =>
    have hraise : Spends Event.cost
        (ofExcept (.error error) : EvaluationM V σ (List (MetricBatch V))) n := .raise error n
    exact hraise.bind_free fun taken =>
      (Waits.orRefuse (aggregateSamples taken)).free_bind fun _ => .pure _
  | ok taken =>
    rw [hsamples taken rfl]
    exact (Spends.ofExcept (.ok taken)).free_bind fun samples =>
      (Waits.orRefuse (aggregateSamples samples)).free_bind fun _ => .pure _

theorem waits_runSession (openBudget : Except EvaluationError Unit) :
    Waits (runSession clock provider binding context session openBudget plan deadline)
      (intervalsNs plan plan.sampleCount) := by
  cases openBudget with
  | error error =>
    exact waits_closeSession clock provider binding session plan deadline (.error error) nofun
  | ok _ =>
    have hclose (samples : Except EvaluationError (List (MetricBatch V))) {n : ℕ × ℕ} :=
      waits_closeSession clock provider binding session plan deadline samples (n := n)
    have hrun := Spends.attempt_bind (m := 0)
      (f := fun samples => closeSession clock provider binding session samples plan deadline)
      (waits_sampleRest clock provider binding context session plan deadline plan.sampleCount [])
      (fun taken => hclose (.ok taken) fun _ _ => rfl) fun error _ => hclose (.error error) nofun
    rwa [add_zero] at hrun

theorem waits_collectMeasurement :
    Waits (collectMeasurement clock provider binding context plan deadline)
      (intervalsNs plan plan.sampleCount) := by
  refine (Waits.ensureProviderCall clock deadline _ _).free_bind fun _ => ?_
  refine (Waits.ask fun _ => rfl).free_bind fun opened => ?_
  refine (Spends.attempt (Waits.check clock deadline _)).free_bind fun openBudget => ?_
  cases opened with
  | ok session => exact waits_runSession clock provider binding context session plan deadline openBudget
  | error error => exact (Spends.ofExcept openBudget).free_bind fun _ => Waits.refuse _ _

end Sessions

section Programs

open AbEvaluationProtocol

variable {V F σ : Type} (clock : Clock σ) (protocol : AbEvaluationProtocol V σ)

theorem waits_validateComparison (deadline : Option EvaluationDeadline)
    (binding : ComparisonBinding V) :
    Waits (protocol.validateComparison clock deadline binding) 0 := by
  refine (Waits.requireSome _ _).free_bind fun policy => ?_
  refine (Waits.within fun _ => .ensureProviderCall clock _ _ _).free_bind fun _ => ?_
  refine (Waits.ask fun _ => rfl).free_bind fun validation => ?_
  refine (Waits.within fun _ => .check clock _ _).free_bind fun _ => ?_
  cases validation with
  | ok _ => exact .pure _
  | error error => exact Waits.refuse _ _

theorem waits_checkPin (pin : CapabilityBindingPin) :
    Waits (protocol.checkPin pin) 0 :=
  (Waits.requireSome _ _).free_bind fun _ => .ite (Waits.refuse _ _) (.pure _)

variable [JsonValue V F] [Sha256] [Serialize (ContractParts V)] (context : InvocationContext)
  (contract : FrozenEvaluationContract V)

theorem waits_validateContract (deadline : Option EvaluationDeadline) :
    Waits (protocol.validateContractWithDeadline clock contract deadline) 0 := by
  refine Waits.guarded fun _ => ?_
  refine (Spends.forM _ fun pin => waits_checkPin protocol pin).free_bind fun _ => ?_
  refine (Waits.requireSome _ _).free_bind fun measurement => ?_
  refine Waits.guarded fun _ => ?_
  refine (Waits.within fun _ => .ensureProviderCall clock _ _ _).free_bind fun _ => ?_
  refine (Waits.ask fun _ => rfl).free_bind fun validation => ?_
  refine (Waits.within fun _ => .check clock _ _).free_bind fun _ => ?_
  have hrest : Waits (do
      orRefuse (validateDeclaredMetricReferences contract measurement.capabilityMeta)
      contract.parts.comparisons.forM (protocol.validateComparison clock deadline)) 0 :=
    (Waits.orRefuse _).free_bind fun _ =>
      .forM _ fun binding => waits_validateComparison clock protocol deadline binding
  cases validation with
  | ok _ => exact hrest
  | error error => exact (Waits.refuse _ _).free_bind fun _ => hrest

section Comparisons

variable [Serialize (ComparisonEvidence V)] (baseline candidate : MetricBatch V)
  (deadline : EvaluationDeadline)

theorem waits_compareAll (bindings : List (ComparisonBinding V)) :
    Waits (protocol.compareAll clock context contract bindings baseline candidate deadline) 0 := by
  refine Spends.mapM _ fun binding => ?_
  refine (Waits.requireSome _ _).free_bind fun policy => ?_
  refine (Waits.ensureProviderCall clock deadline _ _).free_bind fun _ => ?_
  refine (Waits.ask fun _ => rfl).free_bind fun answer => ?_
  refine (Waits.check clock deadline _).free_bind fun _ => ?_
  cases answer with
  | error error => exact Waits.refuse _ _
  | ok evidence =>
    dsimp only
    split
    · exact Waits.refuse _ _
    · exact .ite (Waits.refuse _ _) (.pure _)

theorem waits_compareSides (comparable : Bool) :
    Waits (protocol.compareSides clock context contract comparable baseline candidate deadline) 0 := by
  have hcompare := waits_compareAll clock protocol context contract baseline candidate deadline
  cases comparable with
  | false => exact .pure _
  | true =>
    exact (hcompare _).free_bind fun _ => (hcompare _).free_bind fun _ =>
      (hcompare _).free_bind fun _ => .pure _

end Comparisons

variable [DecidableEq V]

theorem waits_prepareEvaluation [Serialize IntentDigestPayload] (intent : FrozenEvaluationIntent V) :
    Waits (protocol.prepareEvaluation clock context intent) 0 := by
  refine Waits.guarded fun _ => ?_
  have hstart : Waits (EvaluationDeadline.start clock protocol.evaluationTimeout :
      EvaluationM V σ EvaluationDeadline) 0 := by
    refine (Spends.consult _).free_bind fun startedAt => ?_
    split
    · exact Waits.refuse _ _
    · exact .pure _
  refine hstart.free_bind fun deadline => ?_
  refine (Waits.orRefuse _).free_bind fun _ => ?_
  refine (waits_validateContract clock protocol intent.contract (some deadline)).free_bind
    fun _ => ?_
  exact (Waits.requireSome _ _).free_bind fun _ => .pure _

/-- The measurements that are taken on one side. -/
def collectionsPerSide : ℕ :=
  if protocol.sharesMeasurement contract then 1 else 2

theorem waits_measureSide [MetricNumber F] [Serialize (MetricBatch V)] [Serialize (CleanupReceipt V)]
    (measurement : MeasurementProvider V σ) (deadline : EvaluationDeadline) (side : String) :
    Waits (protocol.measureSide clock context contract measurement deadline side)
      (collectionsPerSide protocol contract *
        intervalsNs contract.sampling contract.sampling.sampleCount) := by
  refine (Waits.orRefuse _).free_bind fun sided => ?_
  unfold collectionsPerSide
  have hguardrails := waits_collectMeasurement clock protocol.guardrailMeasurement
    protocol.guardrailBinding sided contract.sampling deadline
  split_ifs with hshared
  · rw [one_mul]
    exact hguardrails.bind_free fun guardrails => .pure _
  · rw [two_mul]
    refine hguardrails.bind fun guardrails => ?_
    exact (waits_collectMeasurement clock measurement contract.measurement sided contract.sampling
      deadline).bind_free fun _ => .pure _

/-- The waits of one side, from the move of the transaction to the last sample. -/
def sideWaitNs : ℕ :=
  fromMillis contract.sampling.settleMs + collectionsPerSide protocol contract *
    intervalsNs contract.sampling contract.sampling.sampleCount

end Programs

/-- The program waits for the given times before and after the replay if it returns, and for no
longer if it stops. -/
def WaitsOnSides {V σ α : Type} (p : EvaluationM V σ α) (baseline candidate : ℕ) : Prop :=
  Emits p
    (fun _ l => baselineWaitNs l = baseline ∧ candidateWaitNs l = candidate ∧
      ∃ e ∈ l, e.isReplay = true)
    fun _ l => baselineWaitNs l ≤ baseline ∧ candidateWaitNs l ≤ candidate

namespace WaitsOnSides

variable {V σ α β : Type} {n m k : ℕ} {f : β → EvaluationM V σ α} {p : EvaluationM V σ β}

/-- The baseline's side comes first. -/
theorem before (hp : Waits p n) (hf : ∀ b, WaitsOnSides (f b) m k) :
    WaitsOnSides (p >>= f) (n + m) k := by
  refine Emits.bind (P := fun _ l => waitedNs l = n ∧ l.countP Event.isReplay = 0) ?_ ?_
  · refine hp.conseq (fun _ l hl => ?_) fun _ l hl => ?_
    · rwa [spent_cost, Prod.mk.injEq] at hl
    · rw [spent_cost, Prod.mk_le_mk, le_zero] at hl
      obtain ⟨hbaseline, hcandidate⟩ := sides_append hl.2 []
      rw [append_nil] at hbaseline hcandidate
      rw [hbaseline, hcandidate]
      exact ⟨by simpa [baselineWaitNs, waitedNs] using hl.1.trans (le_add_right n m),
        zero_le k⟩
  · rintro b l ⟨rfl, hnone⟩
    refine (hf b).conseq (fun _ l' hl' => ?_) fun _ l' hl' => ?_
    · obtain ⟨hbaseline, hcandidate, e, he, hreplay⟩ := hl'
      rw [(sides_append hnone l').1, (sides_append hnone l').2, hbaseline]
      exact ⟨rfl, hcandidate, e, mem_append_right l he, hreplay⟩
    · rw [(sides_append hnone l').1, (sides_append hnone l').2]
      exact ⟨Nat.add_le_add_left hl'.1 _, hl'.2⟩

/-- The candidate's side goes on after the replay. -/
theorem after (hp : WaitsOnSides p n m) (hf : ∀ b, Waits (f b) k) :
    WaitsOnSides (p >>= f) n (m + k) := by
  refine Emits.bind (P := fun _ l => baselineWaitNs l = n ∧ candidateWaitNs l = m ∧
    ∃ e ∈ l, e.isReplay = true) ?_ ?_
  · refine hp.conseq (fun _ _ hl => hl) fun _ l hl => ?_
    exact ⟨hl.1, hl.2.trans (le_add_right m k)⟩
  · rintro b l ⟨hbaseline, hcandidate, e, he, hreplay⟩
    refine (hf b).conseq (fun _ l' hl' => ?_) fun _ l' hl' => ?_
    · rw [spent_cost, Prod.mk.injEq] at hl'
      obtain ⟨hleft, hright⟩ := sides_append_of_replay ⟨e, he, hreplay⟩ l'
      rw [hleft, hright, hbaseline, hcandidate, hl'.1]
      exact ⟨rfl, rfl, e, mem_append_left l' he, hreplay⟩
    · rw [spent_cost, Prod.mk_le_mk] at hl'
      obtain ⟨hleft, hright⟩ := sides_append_of_replay ⟨e, he, hreplay⟩ l'
      rw [hleft, hright, hbaseline, hcandidate]
      exact ⟨le_rfl, Nat.add_le_add_left hl'.1 m⟩

end WaitsOnSides

section Moves

open AbEvaluationProtocol

variable {V σ : Type} (clock : Clock σ) (port : TransactionPort V σ)
  (deadline : EvaluationDeadline) (plan : SamplingPlan) (candidate : List ChangeId)

/-- A move of the transaction, once it was made. -/
theorem waits_settled (answer : Except String (TransactionStepEvidence V)) (after failure settling : String) :
    Waits (do
      deadline.check clock after
      match answer with
      | .error error => refuse ⟨.transaction, s!"{failure}: {error}"⟩
      | .ok evidence =>
        deadline.settle clock (fromMillis plan.settleMs) settling
        pure evidence : EvaluationM V σ (TransactionStepEvidence V)) (fromMillis plan.settleMs) := by
  refine (Waits.check clock deadline after).free_bind fun _ => ?_
  cases answer with
  | error error => exact Waits.refuse _ _
  | ok evidence =>
    exact (Waits.settle clock deadline (fromMillis plan.settleMs) settling).bind_free fun _ =>
      .pure _

theorem waits_restoreSide :
    Waits (restoreSide clock port deadline plan candidate) (fromMillis plan.settleMs) := by
  have hrestore : Waits (observe (port.restoreBaseline candidate) (.restored candidate) :
      EvaluationM V σ _) 0 := Spends.observe fun _ => rfl
  refine (Waits.check clock deadline _).free_bind fun _ => ?_
  exact hrestore.free_bind fun answer => waits_settled clock deadline plan answer _ _ _

theorem waitsOnSides_replaySide :
    WaitsOnSides (replaySide clock port deadline plan candidate) 0 (fromMillis plan.settleMs) := by
  have hreplay : WaitsOnSides (observe (port.replayCandidate candidate) (.replayed candidate) :
      EvaluationM V σ _) 0 0 :=
    Emits.observe (fun answer => ⟨rfl, rfl, _, mem_singleton_self _, rfl⟩) ⟨le_rfl, le_rfl⟩
      ⟨le_rfl, le_rfl⟩
  have hsettled := hreplay.after fun answer => waits_settled clock deadline plan answer
    "after replaying the candidate" "failed to replay evaluation candidate"
    "while settling the candidate"
  rw [zero_add] at hsettled
  exact WaitsOnSides.before (m := 0) (Waits.check clock deadline _) fun _ => hsettled

end Moves

section Evaluation

open AbEvaluationProtocol

variable {V F σ : Type} [JsonValue V F] [MetricNumber F] [DecidableEq V] [Sha256]
  [Serialize (ContractParts V)] [Serialize (MetricBatch V)] [Serialize (CleanupReceipt V)]
  [Serialize (ComparisonEvidence V)] [Serialize IntentDigestPayload] (clock : Clock σ)
  (protocol : AbEvaluationProtocol V σ) (port : TransactionPort V σ) (context : InvocationContext)
  (intent : FrozenEvaluationIntent V) (candidate : Candidate)

theorem waitsOnSides_evaluate :
    WaitsOnSides (protocol.evaluate clock port context intent candidate)
      (sideWaitNs protocol intent.contract) (sideWaitNs protocol intent.contract) := by
  have hmeasure := waits_measureSide clock protocol context intent.contract
  suffices hsides : WaitsOnSides (protocol.evaluate clock port context intent candidate)
      (0 + (fromMillis intent.contract.sampling.settleMs + (collectionsPerSide protocol intent.contract *
        intervalsNs intent.contract.sampling intent.contract.sampling.sampleCount + 0)))
      (sideWaitNs protocol intent.contract) by
    rwa [zero_add, add_zero] at hsides
  refine .before (waits_prepareEvaluation clock protocol context intent) ?_
  rintro ⟨deadline, measurement⟩
  refine .before (waits_restoreSide clock port deadline _ _) fun _ => ?_
  refine .before (hmeasure measurement deadline "baseline") ?_
  rintro ⟨baselineGuardrails, baselineMeasured⟩
  refine .after (waitsOnSides_replaySide clock port deadline _ _) fun _ => ?_
  refine Spends.bind_free (hmeasure measurement deadline "candidate") ?_
  rintro ⟨candidateGuardrails, candidateMeasured⟩
  have hcheck (stage : String) := Waits.check (V := V) clock deadline stage
  refine (hcheck _).free_bind fun _ => ?_
  refine (waits_compareSides clock protocol context intent.contract _ _ deadline _).free_bind
    fun _ => ?_
  exact (hcheck _).free_bind fun _ => (hcheck _).free_bind fun _ => .pure _

end Evaluation

/-! ## The schedule of a contract -/

theorem SamplingPlan.bounds_of_validate {plan : SamplingPlan} (h : plan.validate = .ok ()) :
    (1 ≤ plan.sampleCount ∧ plan.sampleCount ≤ 30) ∧ plan.settleMs ≤ 60000 ∧
      plan.sampleIntervalMs ≤ 60000 ∧
      plan.settleMs + (plan.sampleCount - 1) * plan.sampleIntervalMs ≤ 300000 := by
  dsimp only [SamplingPlan.validate] at h
  obtain ⟨hcount, h⟩ := ExceptRules.of_guard_eq_ok h
  obtain ⟨hsettle, h⟩ := ExceptRules.of_guard_eq_ok h
  obtain ⟨hinterval, h⟩ := ExceptRules.of_guard_eq_ok h
  split at h
  next => cases h
  next hscheduled =>
    unfold saturate64 at hscheduled
    omega

section Schedule

open AbEvaluationProtocol

variable {V F σ : Type} [JsonValue V F]

theorem ContractParts.sampling_validate {parts : ContractParts V} (h : parts.check = .ok ()) :
    parts.sampling.validate = .ok () := by
  dsimp only [ContractParts.check] at h
  obtain ⟨-, h⟩ := ExceptRules.of_guard_eq_ok h
  obtain ⟨-, h⟩ := ExceptRules.of_guard_eq_ok h
  obtain ⟨-, h⟩ := ExceptRules.of_guard_eq_ok h
  cases hvalidate : parts.sampling.validate with
  | ok _ => rfl
  | error e =>
    rw [hvalidate] at h
    cases h

variable [Sha256] [Serialize (ContractParts V)] (contract : FrozenEvaluationContract V)

theorem sampling_bounds :
    1 ≤ contract.sampling.sampleCount ∧ contract.sampling.settleMs ≤ 60000 ∧
      (contract.sampling.sampleCount - 1) * contract.sampling.sampleIntervalMs ≤ 300000 := by
  obtain ⟨⟨hcount, -⟩, hsettle, -, hschedule⟩ :=
    SamplingPlan.bounds_of_validate (ContractParts.sampling_validate contract.checked)
  exact ⟨hcount, hsettle, (le_add_left _ _).trans hschedule⟩

variable [DecidableEq V]

/-- `collections_per_side` of `ensure_schedule_fits`. -/
def scheduledCollections : ℕ :=
  if contract.measurement.capabilityId = trustedGuardrailMeasurementId ∧
      contract.measurement.specification = emptyObject then 1
  else 2

/-- A product or a sum in `u128`. -/
def checked128 (n : ℕ) : Option ℕ := if n < 2 ^ 128 then some n else none

/-- The milliseconds of `ensure_schedule_fits`, or `none` if an operation leaves its type. -/
def checkedScheduledMs : Option ℕ := do
  let turns ← if 1 ≤ contract.sampling.sampleCount then some (contract.sampling.sampleCount - 1)
    else none
  let intervalsPerCollection ← checked128 (turns * contract.sampling.sampleIntervalMs)
  let settles ← checked128 (contract.sampling.settleMs * 2)
  let collections ← checked128 (intervalsPerCollection * scheduledCollections contract)
  let intervals ← checked128 (collections * 2)
  checked128 (settles + intervals)

/-- The waits of one side in milliseconds. -/
def sideMs : ℕ :=
  contract.sampling.settleMs + scheduledCollections contract *
    ((contract.sampling.sampleCount - 1) * contract.sampling.sampleIntervalMs)

/-- No operation of the schedule leaves its type, and it is the waits of two sides. -/
theorem checkedScheduledMs_eq :
    checkedScheduledMs contract = some (2 * sideMs contract) := by
  obtain ⟨hcount, hsettle, hintervals⟩ := sampling_bounds contract
  have hcollections : scheduledCollections contract ≤ 2 := by
    unfold scheduledCollections
    split_ifs <;> omega
  have hfits {n : ℕ} (hn : n ≤ 3000000) : checked128 n = some n := if_pos (by omega)
  have hproduct := mul_le_mul hintervals hcollections
  unfold checkedScheduledMs sideMs
  rw [if_pos hcount]
  simp (disch := omega) only [hfits, Option.bind_eq_bind, Option.bind_some]
  congr 1
  ring

theorem ensureScheduleFits_iff (evaluationTimeout : ℕ) :
    ensureScheduleFits contract evaluationTimeout = .ok () ↔
      2 * sideMs contract ≤ asMillis evaluationTimeout := by
  have hchecked {scheduledMs budget : ℕ} {error : EvaluationError} :
      (if scheduledMs > budget then Except.error error else Except.ok ()) = Except.ok () ↔
        scheduledMs ≤ budget := by
    split_ifs with hexceeded
    · simpa using hexceeded
    · simpa using hexceeded
  have hscheduled : contract.sampling.settleMs * 2 + (contract.sampling.sampleCount - 1) *
      contract.sampling.sampleIntervalMs * scheduledCollections contract * 2 = 2 * sideMs contract := by
    unfold sideMs
    ring
  rw [← hscheduled]
  exact hchecked

/-- One side waits for five minutes at most if the guardrail measurement is the only one, or if two
collections of samples fit. -/
def SidesFit : Prop :=
  contract.measurement = ⟨trustedGuardrailMeasurementId, emptyObject⟩ ∨
    contract.sampling.settleMs +
      2 * ((contract.sampling.sampleCount - 1) * contract.sampling.sampleIntervalMs) ≤ 300000

theorem sidesFit_iff :
    SidesFit contract ↔ fromMillis (sideMs contract) ≤ fromMillis 300000 := by
  obtain ⟨-, -, -, hschedule⟩ :=
    SamplingPlan.bounds_of_validate (ContractParts.sampling_validate contract.checked)
  have hschedule : contract.sampling.settleMs +
      (contract.sampling.sampleCount - 1) * contract.sampling.sampleIntervalMs ≤ 300000 := hschedule
  have hmillis : fromMillis (sideMs contract) ≤ fromMillis 300000 ↔ sideMs contract ≤ 300000 := by
    unfold fromMillis
    omega
  rw [hmillis, SidesFit, MeasurementBinding.ext_iff, sideMs, scheduledCollections]
  split_ifs with hguardrail
  · rw [one_mul]
    exact ⟨fun _ => hschedule, fun _ => .inl hguardrail⟩
  · exact or_iff_right hguardrail

variable {protocol : AbEvaluationProtocol V σ}

theorem sideWaitNs_eq
    (hbinding : protocol.guardrailBinding = ⟨trustedGuardrailMeasurementId, emptyObject⟩) :
    sideWaitNs protocol contract = fromMillis (sideMs contract) := by
  have hshares : collectionsPerSide protocol contract = scheduledCollections contract := by
    simp only [collectionsPerSide, sharesMeasurement, hbinding, scheduledCollections]
  unfold sideWaitNs sideMs intervalsNs fromMillis
  rw [hshares]
  ring

variable {evaluationTimeout : ℕ} {capabilities : CapabilitySnapshot V σ}

omit [Sha256] [Serialize (ContractParts V)] [DecidableEq V] in
/-- Every protocol measures its guardrails with the trusted measurement. -/
theorem guardrailBinding_of_new {s t : Traced σ (Event V)}
    (h : new capabilities evaluationTimeout s = (.ok protocol, t)) :
    protocol.guardrailBinding = ⟨trustedGuardrailMeasurementId, emptyObject⟩ := by
  have hrefused {α : Type} {error : EvaluationError} {a : α} {s t : Traced σ (Event V)}
      (h : refuse error s = (.ok a, t)) : False := by cases h
  have hguard {α : Type} {c : Prop} [Decidable c] {error : EvaluationError}
      {f : Unit → EvaluationM V σ α} {a : α} {s t : Traced σ (Event V)}
      (h : (if c then refuse error >>= f else f ()) s = (.ok a, t)) : f () s = (.ok a, t) := by
    split at h
    · obtain ⟨_, _, hrefuse, -⟩ := of_bind_ok h
      exact (hrefused hrefuse).elim
    · exact h
  dsimp only [new] at h
  obtain h := hguard h
  obtain ⟨info, u, -, h⟩ := of_bind_ok h
  obtain h := hguard h
  obtain ⟨measurement, u, -, h⟩ := of_bind_ok h
  obtain ⟨validation, u, -, h⟩ := of_bind_ok h
  cases validation with
  | error error => exact (hrefused h).elim
  | ok _ =>
    cases h
    rfl

variable [MetricNumber F] [Serialize (MetricBatch V)] [Serialize (CleanupReceipt V)]
  [Serialize (ComparisonEvidence V)] [Serialize IntentDigestPayload]

/-- A complete evaluation waits for the time of a side before and after the replay, and no
evaluation waits longer on either side. -/
theorem waits_of_evaluate {s₀ t₀ : Traced σ (Event V)}
    (hnew : new capabilities evaluationTimeout s₀ = (.ok protocol, t₀))
    (clock : Clock σ) (port : TransactionPort V σ) (context : InvocationContext)
    (intent : FrozenEvaluationIntent V) (candidate : Candidate) (s : Traced σ (Event V)) :
    ∃ new, (protocol.evaluate clock port context intent candidate s).2.trace = s.trace ++ new ∧
      (baselineWaitNs new ≤ fromMillis (sideMs intent.contract) ∧
        candidateWaitNs new ≤ fromMillis (sideMs intent.contract)) ∧
      ∀ evidence, (protocol.evaluate clock port context intent candidate s).1 = .ok evidence →
        baselineWaitNs new = fromMillis (sideMs intent.contract) ∧
          candidateWaitNs new = fromMillis (sideMs intent.contract) := by
  obtain ⟨new, htrace, hok, herror⟩ :=
    (waitsOnSides_evaluate clock protocol port context intent candidate).run s
  rw [sideWaitNs_eq _ (guardrailBinding_of_new hnew)] at hok herror
  refine ⟨new, htrace, ?_, fun evidence hevidence => ?_⟩
  · cases hresult : (protocol.evaluate clock port context intent candidate s).1 with
    | error halt => exact herror halt hresult
    | ok evidence =>
      obtain ⟨hbaseline, hcandidate, -⟩ := hok evidence hresult
      exact ⟨hbaseline.le, hcandidate.le⟩
  · obtain ⟨hbaseline, hcandidate, -⟩ := hok evidence hevidence
    exact ⟨hbaseline, hcandidate⟩

/-- The schedule that is checked against the budget is the time that a complete evaluation waits,
and no evaluation waits longer. -/
theorem checked_schedule_is_exact {capabilities : CapabilitySnapshot V σ} {evaluationTimeout : ℕ}
    {protocol : AbEvaluationProtocol V σ} {s₀ t₀ : Traced σ (Event V)}
    (hnew : AbEvaluationProtocol.new capabilities evaluationTimeout s₀ = (.ok protocol, t₀))
    (intent : FrozenEvaluationIntent V) :
    ∃ scheduledMs, checkedScheduledMs intent.contract = some scheduledMs ∧
      (∀ timeout, ensureScheduleFits intent.contract timeout = .ok () ↔
        scheduledMs ≤ asMillis timeout) ∧
      ∀ (clock : Clock σ) (port : TransactionPort V σ) (context : InvocationContext)
        (candidate : Candidate) (s : Traced σ (Event V)),
        ∃ new, (protocol.evaluate clock port context intent candidate s).2.trace = s.trace ++ new ∧
          waitedNs new ≤ fromMillis scheduledMs ∧
          ∀ evidence, (protocol.evaluate clock port context intent candidate s).1 = .ok evidence →
            waitedNs new = fromMillis scheduledMs := by
  refine ⟨2 * sideMs intent.contract, checkedScheduledMs_eq _, ensureScheduleFits_iff _, ?_⟩
  intro clock port context candidate s
  have hdouble : fromMillis (2 * sideMs intent.contract) =
      fromMillis (sideMs intent.contract) + fromMillis (sideMs intent.contract) := by
    rw [Nat.two_mul, fromMillis, fromMillis, Nat.add_mul]
  obtain ⟨new, htrace, hle, hcomplete⟩ :=
    waits_of_evaluate hnew clock port context intent candidate s
  refine ⟨new, htrace, ?_, fun evidence hevidence => ?_⟩
  · rw [← baselineWaitNs_add_candidateWaitNs, hdouble]
    exact Nat.add_le_add hle.1 hle.2
  · obtain ⟨hbaseline, hcandidate⟩ := hcomplete evidence hevidence
    rw [← baselineWaitNs_add_candidateWaitNs, hbaseline, hcandidate, hdouble]

end Schedule

namespace SixSamples

open AbEvaluationProtocol TwoSamples

attribute [local instance] TwoSamples.instJsonValueOptionInt TwoSamples.instMetricNumberInt
  TwoSamples.instSha256 TwoSamples.instSerialize

/-- The capabilities of the two samples, and the trusted measurement. -/
def capabilities : CapabilitySnapshot (Option ℤ) Unit :=
  { TwoSamples.protocol.capabilities with
    metadata := TwoSamples.protocol.capabilities.metadata.insert trustedGuardrailMeasurementId
      (capability trustedGuardrailMeasurementId)
    measurements := TwoSamples.protocol.capabilities.measurements.insert
      trustedGuardrailMeasurementId (measurement trustedGuardrailMeasurementId) }

/-- Six samples, one each minute. -/
def contract : FrozenEvaluationContract (Option ℤ) where
  parts := { TwoSamples.contract.parts with sampling := ⟨0, 6, 60000⟩ }
  digest := zeroDigest
  checked := by decide +kernel
  digest_eq := by decide +kernel

def intent : FrozenEvaluationIntent (Option ℤ) where
  pin := TwoSamples.intent.pin
  objective := TwoSamples.intent.objective
  contract
  contractDigest_eq := rfl
  intentDigest_eq := by decide +kernel

/-- The protocol within half an hour, and a complete evaluation. -/
theorem exists_complete : ∃ protocol t₀ evidence t,
    new capabilities (fromMillis 1800000) ⟨(), []⟩ = (.ok protocol, t₀) ∧
      protocol.evaluate clock port context intent candidate ⟨(), []⟩ = (.ok evidence, t) ∧
      baselineWaitNs t.trace = fromMillis 600000 ∧ candidateWaitNs t.trace = fromMillis 600000 := by
  obtain ⟨protocol, t₀, hnew, hrun⟩ := exists_of_returns
    (show returns (fun protocol _ => returns
        (fun _ t => baselineWaitNs t.trace = fromMillis 600000 &&
          candidateWaitNs t.trace = fromMillis 600000)
        (protocol.evaluate clock port context intent candidate ⟨(), []⟩))
      (new capabilities (fromMillis 1800000) ⟨(), []⟩) = true by decide +kernel)
  obtain ⟨evidence, t, hreturned, hwaits⟩ := exists_of_returns hrun
  simp only [Bool.and_eq_true, decide_eq_true_eq] at hwaits
  exact ⟨protocol, t₀, evidence, t, hnew, hreturned, hwaits⟩

theorem checked_schedule_is_exact_six_samples :
    ∃ protocol t₀ evidence t,
      AbEvaluationProtocol.new capabilities (fromMillis 1800000) ⟨(), []⟩ = (.ok protocol, t₀) ∧
      protocol.evaluate clock port context intent candidate ⟨(), []⟩ = (.ok evidence, t) ∧
      checkedScheduledMs contract = some 1200000 ∧ waitedNs t.trace = fromMillis 1200000 := by
  obtain ⟨protocol, t₀, evidence, t, hnew, hreturned, -⟩ := exists_complete
  obtain ⟨scheduledMs, hchecked, -, hrun⟩ := checked_schedule_is_exact hnew intent
  have hscheduled : checkedScheduledMs intent.contract = some 1200000 := by decide +kernel
  rw [hscheduled, Option.some.injEq] at hchecked
  obtain ⟨new, htrace, -, hwaited⟩ := hrun clock port context candidate ⟨(), []⟩
  rw [hreturned, nil_append] at htrace
  refine ⟨protocol, t₀, evidence, t, hnew, hreturned, hscheduled, ?_⟩
  rw [htrace, hchecked]
  exact hwaited evidence (by rw [hreturned])

end SixSamples

end ScxAgent.Evaluation
