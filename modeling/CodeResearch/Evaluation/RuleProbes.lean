import CodeResearch.Evaluation.Directions

/-!
# Probes of a single rule

A probe compares two runs with one case and one metric, the one that a rule is about, so
the rule alone decides the verdict. Every blocking rule that does not follow the direction
of its metric fails on some probe.
-/
namespace CodeResearch.Evaluation

open ControlPlane (Timestamp)

variable {K : Type}

section Probe

variable (rule : GateRule K)

def probeMetric (value : Option K) : MetricResult K where
  metricResultId := ""
  evaluationRunId := ""
  metricDefinitionId := rule.metricDefinitionId
  split := "all"
  subgroup := rule.subgroupFilter
  value
  numerator := none
  denominator := rule.minSampleCount
  sampleCount := rule.minSampleCount
  complete := true
  incompleteReasonCodes := []
  computedAt := 0

def probeRecord : EvaluationRun where
  runId := ""
  planId := ""
  datasetVersionId := ""
  subjectId := ""
  mode := .deterministicFixture
  status := .completed
  fingerprint := ⟨"", "", "", "", "", "", "", "", .deterministicFixture, "", 0⟩
  runFingerprintHash := ""
  environmentId := ""
  trialGroupId := none
  repeatIndex := none
  repeatCount := none
  temperature := none
  seed := none
  attemptNumber := 1
  retryOfRunId := none
  caseCounts := []
  complete := true
  provenance := ⟨"", "", "", "", "", 0⟩
  createdAt := 0
  updatedAt := 0

def probeCase : CaseResult where
  resultId := ""
  evaluationRunId := ""
  caseId := "case"
  component := .index
  executionStatus := .completed
  evaluationOutcome := some .passed
  complete := true
  incompleteReasonCodes := []
  executionErrorCode := none
  qualityFailureCodes := []
  traceId := none
  outputArtifactRefIds := []
  finishedAt := none

def probeRun (value : Option K) : ComparedRun K where
  run := probeRecord
  environment := ⟨"", ""⟩
  caseResults := [probeCase]
  metrics := [probeMetric rule value]

def probeConfig : RegressionGateConfig K where
  gateConfigVersion := ""
  hardRules := []
  qualityRules := [rule]
  performanceRules := []

def probeInput : PipelineInput where
  ids := ⟨fun _ _ _ => "", fun _ _ => ""⟩
  metricNames := id
  baselineBindingId := ""
  comparedAt := 0
  evaluatedAt := 0

theorem pairedMetrics_probe (b c : Option K) :
    pairedMetrics (probeRun rule b) (probeRun rule c) =
      [(probeMetric rule b, probeMetric rule c)] := by
  have hkey : metricKey (probeMetric rule c) = metricKey (probeMetric rule b) := rfl
  have hunder : ∀ v, metricUnder (probeRun rule v).metrics (metricKey (probeMetric rule b)) =
      some (probeMetric rule v) := by
    intro v
    have hv : metricKey (probeMetric rule v) = metricKey (probeMetric rule b) := rfl
    simp [metricUnder, probeRun, hv]
  have hsorted : sorted (((probeRun rule b).metrics.map metricKey).filter fun key =>
      key ∈ (probeRun rule c).metrics.map metricKey) = [metricKey (probeMetric rule b)] := by
    simp [probeRun, sorted, hkey]
  unfold pairedMetrics
  rw [hsorted, List.filterMap_cons]
  simp [hunder]

theorem comparable_probe (b c : Option K) (names : String → String)
    (pair : MetricResult K × MetricResult K) :
    Comparable (probeRun rule b) (probeRun rule c) names pair := fun _ => rfl

theorem compatibility_probe (b c : Option K) (names : String → String) :
    compatibility (probeRun rule b) (probeRun rule c) names ≠ .incompatible := by
  have hcommon : commonCases (probeRun rule b) (probeRun rule c) ≠ [] := by
    have hids : ∀ v, (probeRun rule v).caseIds = ["case"] := fun _ => rfl
    simp [commonCases, hids, sortedTexts]
  have hreasons : incompatibilityReasons (probeRun rule b) (probeRun rule c) = [] := by
    simp [incompatibilityReasons, fingerprintFields, probeRun]
  unfold compatibility
  dsimp only
  rw [hreasons, if_neg]
  · split_ifs <;> decide
  · simp [hcommon, pairedMetrics_probe, comparable_probe]

theorem lookup_of_nodup {items : List (String × String)} (h : (items.map Prod.fst).Nodup)
    {item : String × String} (hitem : item ∈ items) : items.lookup item.1 = some item.2 := by
  induction items with
  | nil => cases hitem
  | cons first items ih =>
    rw [List.map_cons, List.nodup_cons] at h
    rw [List.lookup_cons]
    rcases List.mem_cons.mp hitem with rfl | hitem
    · simp
    · have hne : (item.1 == first.1) = false := by
        rw [beq_eq_false_iff_ne]
        intro heq
        exact h.1 (heq ▸ List.mem_map_of_mem hitem)
      rw [hne]
      exact ih h.2 hitem

variable [Field K] [LinearOrder K]

theorem comparedRows_probe (b c : Option K) :
    comparedRows probeInput (probeRun rule b) (probeRun rule c) =
      [metricDelta (probeMetric rule b) (probeMetric rule c)] := by
  have hdeltas : comparedDeltas (probeRun rule b) (probeRun rule c) probeInput.metricNames =
      [metricDelta (probeMetric rule b) (probeMetric rule c)] := by
    unfold comparedDeltas
    rw [pairedMetrics_probe]
    simp [comparable_probe]
  unfold comparedRows
  rw [hdeltas]
  by_cases hsub : (metricDelta (probeMetric rule b) (probeMetric rule c)).subgroup = [] <;>
    simp [hsub]

theorem judged_probe (b c : Option K) :
    Judged probeInput (probeRun rule b) (probeRun rule c) rule
      (metricDelta (probeMetric rule b) (probeMetric rule c)) := by
  refine ⟨compatibility_probe rule b c _, ?_, ?_⟩
  · rw [comparedRows_probe, GateRule.row]
    apply List.find?_cons_of_pos
    exact decide_eq_true ⟨rfl, fun item hitem => lookup_of_nodup rule.nodup hitem⟩
  · exact ⟨by simp [metricDelta, probeMetric], rfl⟩

/-- The rule alone decides the verdict of its probe. -/
theorem verdict_probe (hblock : rule.severity = .block) (b c : Option K) :
    (pipeline probeInput (probeRun rule b) (probeRun rule c) (probeConfig rule)).verdict =
      if rule.Passes (metricDelta (probeMetric rule b) (probeMetric rule c)) then .passed
      else .blocked := by
  have hjudged := judged_probe rule b c
  have hresults : ruleResults (probeConfig rule)
      (comparedRows probeInput (probeRun rule b) (probeRun rule c)) =
      [judgedResult rule (metricDelta (probeMetric rule b) (probeMetric rule c))] := by
    simp only [ruleResults, probeConfig, List.map_nil, List.nil_append, List.map_cons,
      List.append_nil, evaluateRule, hjudged.2.1, if_pos hjudged.2.2]
  rw [pipeline_verdict, if_neg hjudged.1, hresults]
  unfold gateVerdict judgedResult
  by_cases hpasses : rule.Passes (metricDelta (probeMetric rule b) (probeMetric rule c)) <;>
    simp [hpasses, hblock]

end Probe

section Misaligned

variable [Field K] [LinearOrder K]

def RuleComparison.Admits (comparison : RuleComparison) (θ b v : K) : Prop :=
  match comparison with
  | .equalZero => v = 0
  | .minValue => θ ≤ v
  | .maxValue => v ≤ θ
  | .maxAbsoluteDrop => -|θ| ≤ v - b
  | .maxRelativeDrop => if b = 0 then v = 0 else -|θ| ≤ (v - b) / |b|

def Direction.Exceeds (d : Direction) (comparison : RuleComparison) (θ b v : K) : Prop :=
  match comparison with
  | .equalZero => d.Better 0 v
  | .minValue | .maxValue => d.Better θ v
  | .maxAbsoluteDrop => |θ| < d.loss b v
  | .maxRelativeDrop => |θ| * |b| < d.loss b v

section Arithmetic

variable [IsStrictOrderedRing K]

/-- A comparison that is monotone in a direction and sharp is one of the four. -/
theorem aligned_of_monotone (comparison : RuleComparison) (d : Direction) (θ : K)
    (hmono : ∀ b v v' : K, d.Better v' v → comparison.Admits θ b v → comparison.Admits θ b v')
    (hsharp : ∀ b v : K, d.Exceeds comparison θ b v → ¬ comparison.Admits θ b v) :
    (comparison, d) ∈ [(RuleComparison.equalZero, Direction.zeroRequired),
      (.minValue, .higherIsBetter), (.maxValue, .lowerIsBetter),
      (.maxAbsoluteDrop, .higherIsBetter)] := by
  have hθ := abs_nonneg θ
  have hle := le_abs_self θ
  have hge := neg_abs_le θ
  have habs : |(|θ| + 1)| = |θ| + 1 := abs_of_nonneg (by linarith)
  have habs2 : |(|θ| + 2)| = |θ| + 2 := abs_of_nonneg (by linarith)
  cases comparison <;> cases d <;>
    simp only [RuleComparison.Admits, Direction.Exceeds, Direction.Better, Direction.loss]
      at hmono hsharp
  case equalZero.higherIsBetter => exact absurd (hmono 0 0 1 one_pos rfl) one_ne_zero
  case equalZero.lowerIsBetter =>
    exact absurd (hmono 0 0 (-1) (by linarith) rfl) (neg_ne_zero.mpr one_ne_zero)
  case equalZero.zeroRequired => simp
  case minValue.higherIsBetter => simp
  case minValue.lowerIsBetter => exact absurd (by linarith) (hsharp 0 (θ + 1) (by linarith))
  case minValue.zeroRequired =>
    exact absurd (by linarith) (hsharp 0 (|θ| + 1) (by rw [habs]; linarith))
  case maxValue.higherIsBetter => exact absurd (by linarith) (hsharp 0 (θ - 1) (by linarith))
  case maxValue.lowerIsBetter => simp
  case maxValue.zeroRequired =>
    exact absurd (by linarith) (hsharp 0 (-(|θ| + 1)) (by rw [abs_neg, habs]; linarith))
  case maxAbsoluteDrop.higherIsBetter => simp
  case maxAbsoluteDrop.lowerIsBetter =>
    exact absurd (by linarith) (hsharp 0 (|θ| + 1) (by linarith))
  case maxAbsoluteDrop.zeroRequired =>
    exact absurd (by linarith) (hsharp 0 (|θ| + 1) (by rw [habs, abs_zero]; linarith))
  case maxRelativeDrop.higherIsBetter =>
    -- a candidate that rises from a baseline of zero
    have hone := hmono 0 0 1 one_pos (by rw [if_pos rfl])
    rw [if_pos rfl] at hone
    exact absurd hone one_ne_zero
  case maxRelativeDrop.lowerIsBetter =>
    refine absurd ?_ (hsharp 1 (|θ| + 2) (by rw [abs_one]; linarith))
    rw [if_neg one_ne_zero, abs_one, div_one]
    linarith
  case maxRelativeDrop.zeroRequired =>
    refine absurd ?_ (hsharp 1 (|θ| + 2) (by rw [habs2, abs_one]; linarith))
    rw [if_neg one_ne_zero, abs_one, div_one]
    linarith

end Arithmetic

variable {direction : String → Option Direction} {rule : GateRule K} {d : Direction}

theorem passes_probe_iff (b v : K) :
    rule.Passes (metricDelta (probeMetric rule (some b)) (probeMetric rule (some v))) ↔
      rule.comparison.Admits rule.threshold b v := by
  unfold GateRule.Passes RuleComparison.Admits
  cases rule.comparison with
  | equalZero => exact Option.some_inj
  | minValue | maxValue => simp [metricDelta, probeMetric]
  | maxAbsoluteDrop => simp [metricDelta, probeMetric, absoluteDelta]
  | maxRelativeDrop =>
    by_cases hb : b = 0
    · simp [metricDelta, probeMetric, hb]
    · simp [metricDelta, probeMetric, hb, relativeDelta]

theorem exceeded_probe (hd : direction rule.metricDefinitionId = some d) (b v : K)
    (h : d.Exceeds rule.comparison rule.threshold b v) : rule.Exceeded direction
      (metricDelta (probeMetric rule (some b)) (probeMetric rule (some v))) := by
  refine ⟨d, v, hd, rfl, ?_⟩
  unfold Direction.Exceeds at h
  cases hcmp : rule.comparison <;> rw [hcmp] at h
  · exact h
  · exact h
  · exact h
  · exact ⟨b, rfl, h⟩
  · exact ⟨b, rfl, h⟩

/-- A probe whose value gets better does not go from passed to blocked. -/
theorem DirectionSound.admits (h : DirectionSound direction (probeConfig rule))
    (hblock : rule.severity = .block) (hd : direction rule.metricDefinitionId = some d) (b v v' : K)
    (hbetter : d.Better v' v) (hadmits : rule.comparison.Admits rule.threshold b v) :
    rule.comparison.Admits rule.threshold b v' := by
  rw [← passes_probe_iff] at hadmits ⊢
  by_contra hfails
  have hone : OneImproves direction (probeRun rule (some v)).metrics
      [probeMetric rule (some v')] :=
    ⟨[], probeMetric rule (some v), [], d, v, v', rfl, rfl, hd, rfl, hbetter⟩
  apply h.monotone probeInput (probeRun rule (some b)) (probeRun rule (some v)) _ hone
  · rw [verdict_probe rule hblock, if_pos hadmits]
  · rw [show ({ probeRun rule (some v) with metrics := [probeMetric rule (some v')] } :
      ComparedRun K) = probeRun rule (some v') from rfl, verdict_probe rule hblock, if_neg hfails]

theorem DirectionSound.not_admits (h : DirectionSound direction (probeConfig rule))
    (hblock : rule.severity = .block) (hd : direction rule.metricDefinitionId = some d) (b v : K)
    (hexceeds : d.Exceeds rule.comparison rule.threshold b v) :
    ¬ rule.comparison.Admits rule.threshold b v := by
  rw [← passes_probe_iff]
  intro hpasses
  have hverdict := h.exceeded probeInput (probeRun rule (some b)) (probeRun rule (some v)) rule
    (by simp [RegressionGateConfig.rules, probeConfig]) hblock _ (judged_probe rule _ _)
    (exceeded_probe hd b v hexceeds)
  rw [verdict_probe rule hblock, if_pos hpasses] at hverdict
  cases hverdict

theorem aligned_of_sound [IsStrictOrderedRing K] (h : DirectionSound direction (probeConfig rule)) :
    rule.Aligned direction :=
  fun hblock _ hd => aligned_of_monotone _ _ rule.threshold (h.admits hblock hd)
    (h.not_admits hblock hd)

end Misaligned

/-- The configurations that can be made of a set of rules are all direction-aware and
monotone exactly when the blocking rules of the set follow the direction of their metric. -/
theorem directionSound_iff_aligned [Field K] [LinearOrder K] [IsStrictOrderedRing K]
    (direction : String → Option Direction) (allowed : GateRule K → Prop) :
    (∀ config : RegressionGateConfig K, (∀ rule ∈ config.rules, allowed rule) →
        DirectionSound direction config) ↔ ∀ rule, allowed rule → rule.Aligned direction := by
  constructor
  · intro h rule hrule
    apply aligned_of_sound
    apply h
    intro other hother
    obtain rfl : other = rule := by
      simpa [RegressionGateConfig.rules, probeConfig] using hother
    exact hrule
  · intro h config hconfig
    exact directionSound_of_aligned fun rule hrule => h rule (hconfig rule hrule)

theorem directionSound_iff_aligned_rat :
    (∀ config : RegressionGateConfig ℚ,
        (∀ rule ∈ config.rules, rule.comparison = .maxAbsoluteDrop) →
        DirectionSound (fun _ => some .higherIsBetter) config) ↔
      ∀ rule : GateRule ℚ, rule.comparison = .maxAbsoluteDrop →
        rule.Aligned fun _ => some .higherIsBetter :=
  directionSound_iff_aligned (fun _ => some .higherIsBetter) fun rule =>
    rule.comparison = .maxAbsoluteDrop

def latencyRule : GateRule ℚ where
  ruleId := "latency"
  metricDefinitionId := "latency_ms"
  scope := .overall
  subgroupFilter := []
  comparison := .maxAbsoluteDrop
  threshold := 5
  incompletePolicy := .block
  severity := .block
  nodup := by simp
  scope_consistent := by simp

/-- A latency that drops from 100 to 90 is blocked, and one that does not drop is passed. -/
theorem lower_latency_is_blocked : ¬ ∀ config : RegressionGateConfig ℚ,
    DirectionSound (fun _ => some .lowerIsBetter) config := by
  intro h
  have hadmits := (h (probeConfig latencyRule)).admits rfl rfl 100 100 90
    (by norm_num [Direction.Better]) (by norm_num [latencyRule, RuleComparison.Admits])
  norm_num [latencyRule, RuleComparison.Admits] at hadmits

end CodeResearch.Evaluation
