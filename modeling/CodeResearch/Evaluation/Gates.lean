import CodeResearch.Evaluation.Plans

/-!
# Comparisons and regression gates

`compare_runs` pairs the metrics of two runs by definition and subgroup and takes signed
differences. `RegressionGateEngine.evaluate` judges one row for each rule by one of five
comparisons. The scope of a comparison is computed from the case results, its differences
from the metrics of the whole runs.
-/
namespace CodeResearch.Evaluation

open ControlPlane (Timestamp)

inductive Compatibility
  | compatible | partiallyCompatible | incompatible
  deriving DecidableEq

structure ComparisonScope where
  commonCaseIds : List String
  excludedBaselineCaseIds : List String
  excludedCandidateCaseIds : List String
  comparableMetricDefinitionIds : List String
  incompatibleMetricDefinitionIds : List String
  compatibility : Compatibility
  incompatibilityReasons : List String
  deriving DecidableEq

structure MetricDelta (K : Type) where
  metricDefinitionId : String
  subgroup : List (String × String)
  baselineValue : Option K
  candidateValue : Option K
  absoluteDelta : Option K
  relativeDelta : Option K
  numerator : Option K
  denominator : ℕ
  sampleCount : ℕ
  complete : Bool
  deriving DecidableEq

inductive ComparisonStatus
  | pending | ready | invalid
  deriving DecidableEq

structure RegressionComparison (K : Type) where
  comparisonId : String
  baselineBindingId : String
  baselineRunId : String
  candidateRunId : String
  baselineSubjectId : String
  candidateSubjectId : String
  scope : ComparisonScope
  metricDeltas : List (MetricDelta K)
  subgroupDeltas : List (MetricDelta K)
  status : ComparisonStatus
  createdAt : Timestamp
  deriving DecidableEq

/-- `stable_id` of comparisons and gates. -/
structure GateIds where
  comparisonId : String → String → ComparisonScope → String
  gateId : String → String → String

/-- `PERFORMANCE_TERMS`. -/
def performanceTerms : List String :=
  ["latency", "token", "cost", "overhead", "throughput", "calls"]

/-- `_metric_key`, as the texts that Python compares one by one. -/
def metricKey {K : Type} (m : MetricResult K) : List String :=
  m.metricDefinitionId :: (m.subgroup.insertionSort fun a b => [a.1, a.2] ≤ [b.1, b.2]).flatMap
    fun item => [item.1, item.2]

def metricUnder {K : Type} (metrics : List (MetricResult K)) (key : List String) :
    Option (MetricResult K) :=
  metrics.reverse.find? fun m => metricKey m = key

/-- The keys of a set in order. -/
def sorted (l : List (List String)) : List (List String) := l.dedup.insertionSort (· ≤ ·)

/-- `sorted` of a set of texts. -/
def sortedTexts (l : List String) : List String := l.dedup.insertionSort (· ≤ ·)

/-- One side of a comparison. -/
structure ComparedRun (K : Type) where
  run : EvaluationRun
  environment : ExecutionEnvironment
  caseResults : List CaseResult
  metrics : List (MetricResult K)

def ComparedRun.caseIds {K : Type} (side : ComparedRun K) : List String :=
  side.caseResults.map CaseResult.caseId

section Compare

variable {K : Type} (baseline candidate : ComparedRun K)

/-- `sorted(baseline_case_ids & candidate_case_ids)`. -/
def commonCases : List String :=
  sortedTexts (baseline.caseIds.filter fun id => id ∈ candidate.caseIds)

def fingerprintFields (f : RunFingerprint) : List (String × String) :=
  [("case_set_hash", f.caseSetHash), ("gold_hash", f.goldHash), ("fixture_hash", f.fixtureHash),
    ("adapter_major_hash", f.adapterMajorHash),
    ("metric_definition_hash", f.metricDefinitionHash)]

def incompatibilityReasons : List String :=
  (if baseline.run.datasetVersionId = candidate.run.datasetVersionId then []
    else ["dataset_version_mismatch"]) ++
  (((fingerprintFields baseline.run.fingerprint).zip
      (fingerprintFields candidate.run.fingerprint)).filterMap fun (a, b) =>
    if a.2 = b.2 then none else some (a.1 ++ "_mismatch")) ++
  (if baseline.run.mode = candidate.run.mode then [] else ["evaluation_mode_mismatch"]) ++
  if baseline.environment.environmentHash = candidate.environment.environmentHash then []
    else ["execution_environment_mismatch"]

variable (metricNames : String → String)

def PerformanceMetric (id : String) : Prop :=
  ∃ term ∈ performanceTerms, contains term (metricNames id) = true

instance (id : String) : Decidable (PerformanceMetric metricNames id) :=
  inferInstanceAs (Decidable (∃ _ ∈ _, _))

def pairedMetrics : List (MetricResult K × MetricResult K) :=
  (sorted ((baseline.metrics.map metricKey).filter fun key =>
    key ∈ candidate.metrics.map metricKey)).filterMap fun key => do
      let b ← metricUnder baseline.metrics key
      let c ← metricUnder candidate.metrics key
      return (b, c)

def Comparable (pair : MetricResult K × MetricResult K) : Prop :=
  PerformanceMetric metricNames pair.1.metricDefinitionId →
    baseline.environment.environmentHash = candidate.environment.environmentHash

instance (pair : MetricResult K × MetricResult K) :
    Decidable (Comparable baseline candidate metricNames pair) :=
  inferInstanceAs (Decidable (_ → _))

section Field

variable [Field K] [LinearOrder K]

/-- `candidate.value - baseline.value`. -/
def absoluteDelta (b c : Option K) : Option K := do
  let b ← b
  let c ← c
  return c - b

/-- The difference relative to the baseline; from a baseline of zero only zero has one. -/
def relativeDelta (b c : Option K) : Option K := do
  let b ← b
  let c ← c
  if b = 0 then if c = 0 then some 0 else none else some ((c - b) / |b|)

def metricDelta (b c : MetricResult K) : MetricDelta K where
  metricDefinitionId := b.metricDefinitionId
  subgroup := b.subgroup
  baselineValue := b.value
  candidateValue := c.value
  absoluteDelta := absoluteDelta b.value c.value
  relativeDelta := relativeDelta b.value c.value
  numerator := c.numerator
  denominator := c.denominator
  sampleCount := min b.sampleCount c.sampleCount
  complete := b.complete && c.complete

def comparedDeltas : List (MetricDelta K) :=
  ((pairedMetrics baseline candidate).filter fun pair =>
    Comparable baseline candidate metricNames pair).map fun (b, c) => metricDelta b c

def compatibility : Compatibility :=
  let reasons := incompatibilityReasons baseline candidate
  if commonCases baseline candidate = [] ∨
      (pairedMetrics baseline candidate).filter
        (fun pair => Comparable baseline candidate metricNames pair) = [] ∨
      ∃ reason ∈ reasons, reason ∈ ["gold_hash_mismatch", "fixture_hash_mismatch",
        "adapter_major_hash_mismatch", "metric_definition_hash_mismatch"] then .incompatible
  else if reasons ≠ [] ∨ ¬ (baseline.caseIds.toFinset = candidate.caseIds.toFinset) ∨
      ∃ pair ∈ pairedMetrics baseline candidate,
        ¬ Comparable baseline candidate metricNames pair then .partiallyCompatible
  else .compatible

def comparisonScope : ComparisonScope where
  commonCaseIds := commonCases baseline candidate
  excludedBaselineCaseIds := sortedTexts
    (baseline.caseIds.filter fun id => id ∉ commonCases baseline candidate)
  excludedCandidateCaseIds := sortedTexts
    (candidate.caseIds.filter fun id => id ∉ commonCases baseline candidate)
  comparableMetricDefinitionIds := sortedTexts
    (((pairedMetrics baseline candidate).filter fun pair =>
      Comparable baseline candidate metricNames pair).map fun pair => pair.1.metricDefinitionId)
  incompatibleMetricDefinitionIds := sortedTexts
    (((pairedMetrics baseline candidate).filter fun pair =>
      ¬ Comparable baseline candidate metricNames pair).map fun pair => pair.1.metricDefinitionId)
  compatibility := compatibility baseline candidate metricNames
  incompatibilityReasons := sortedTexts (incompatibilityReasons baseline candidate)

/-- `compare_runs`. -/
def compareRuns (ids : GateIds) (baselineBindingId : String) (now : Timestamp) :
    RegressionComparison K where
  comparisonId := ids.comparisonId baseline.run.runId candidate.run.runId
    (comparisonScope baseline candidate metricNames)
  baselineBindingId
  baselineRunId := baseline.run.runId
  candidateRunId := candidate.run.runId
  baselineSubjectId := baseline.run.subjectId
  candidateSubjectId := candidate.run.subjectId
  scope := comparisonScope baseline candidate metricNames
  metricDeltas := (comparedDeltas baseline candidate metricNames).filter fun d => d.subgroup = []
  subgroupDeltas := (comparedDeltas baseline candidate metricNames).filter fun d => d.subgroup ≠ []
  status := if compatibility baseline candidate metricNames = .incompatible then .invalid else .ready
  createdAt := now

end Field

end Compare

inductive RuleScope
  | overall | split | source | repo | pair | tag | type
  deriving DecidableEq

def RuleScope.name : RuleScope → String
  | overall => "overall"
  | split => "split"
  | source => "source"
  | repo => "repo"
  | pair => "pair"
  | tag => "tag"
  | type => "type"

inductive RuleComparison
  | equalZero | minValue | maxValue | maxAbsoluteDrop | maxRelativeDrop
  deriving DecidableEq

inductive IncompletePolicy
  | block | warning | ignore
  deriving DecidableEq

inductive RuleSeverity
  | warning | block
  deriving DecidableEq

/-- A rule whose subgroup filter is a dictionary that freezes the scope of the rule. -/
structure GateRule (K : Type) where
  ruleId : String
  metricDefinitionId : String
  scope : RuleScope
  subgroupFilter : List (String × String)
  comparison : RuleComparison
  threshold : K
  minSampleCount : ℕ := 1
  incompletePolicy : IncompletePolicy
  severity : RuleSeverity
  nodup : (subgroupFilter.map Prod.fst).Nodup
  scope_consistent : if scope = .overall then subgroupFilter = []
    else scope.name ∈ subgroupFilter.map Prod.fst
  deriving DecidableEq

structure RegressionGateConfig (K : Type) where
  gateConfigVersion : String
  hardRules : List (GateRule K)
  qualityRules : List (GateRule K)
  performanceRules : List (GateRule K)
  minimumLiveRepeatCount : Option ℕ := none

def RegressionGateConfig.rules {K : Type} (config : RegressionGateConfig K) : List (GateRule K) :=
  config.hardRules ++ config.qualityRules ++ config.performanceRules

inductive RuleVerdict
  | passed | warning | blocked | indeterminate
  deriving DecidableEq

structure GateRuleResult (K : Type) where
  ruleId : String
  verdict : RuleVerdict
  numerator : Option K
  denominator : Option ℕ
  sampleCount : ℕ
  baselineValue : Option K
  candidateValue : Option K
  absoluteDelta : Option K
  relativeDelta : Option K
  reasonCodes : List String
  deriving DecidableEq

inductive GateVerdict
  | passed | blocked | indeterminate
  deriving DecidableEq

structure RegressionGate (K : Type) where
  gateId : String
  comparisonId : String
  gateConfigVersion : String
  hardInvariants : List (GateRuleResult K)
  qualityRules : List (GateRuleResult K)
  performanceRules : List (GateRuleResult K)
  verdict : GateVerdict
  reasonCodes : List String
  evaluatedAt : Timestamp
  deriving DecidableEq

section Gate

variable {K : Type}

def GateRule.Selects (rule : GateRule K) (row : MetricDelta K) : Prop :=
  row.metricDefinitionId = rule.metricDefinitionId ∧
    ∀ item ∈ rule.subgroupFilter, row.subgroup.lookup item.1 = some item.2

instance (rule : GateRule K) (row : MetricDelta K) : Decidable (rule.Selects row) :=
  inferInstanceAs (Decidable (_ ∧ _))

def GateRule.row (rule : GateRule K) (deltas : List (MetricDelta K)) : Option (MetricDelta K) :=
  deltas.find? fun row => rule.Selects row

def GateRule.Judges (rule : GateRule K) (row : MetricDelta K) : Prop :=
  rule.minSampleCount ≤ row.sampleCount ∧ row.complete = true

instance (rule : GateRule K) (row : MetricDelta K) : Decidable (rule.Judges row) :=
  inferInstanceAs (Decidable (_ ∧ _))

/-- `_incomplete`. -/
def incompleteResult (rule : GateRule K) (reason : String) (hard : Bool)
    (row : Option (MetricDelta K)) : GateRuleResult K where
  ruleId := rule.ruleId
  verdict :=
    if hard = true ∧ rule.incompletePolicy ≠ .ignore then .blocked
    else match rule.incompletePolicy with
      | .block => .blocked
      | .warning => .warning
      | .ignore => .passed
  sampleCount := (row.map MetricDelta.sampleCount).getD 0
  numerator := row.bind MetricDelta.numerator
  denominator := row.map MetricDelta.denominator
  baselineValue := row.bind MetricDelta.baselineValue
  candidateValue := row.bind MetricDelta.candidateValue
  absoluteDelta := row.bind MetricDelta.absoluteDelta
  relativeDelta := row.bind MetricDelta.relativeDelta
  reasonCodes := [reason]

variable [Field K] [LinearOrder K]

/-- `_passes`. -/
def GateRule.Passes (rule : GateRule K) (row : MetricDelta K) : Prop :=
  match rule.comparison with
  | .equalZero => row.candidateValue = some 0
  | .minValue => ∃ v ∈ row.candidateValue, rule.threshold ≤ v
  | .maxValue => ∃ v ∈ row.candidateValue, v ≤ rule.threshold
  | .maxAbsoluteDrop => row.candidateValue ≠ none ∧
    ∃ d ∈ row.absoluteDelta, -|rule.threshold| ≤ d
  | .maxRelativeDrop => row.candidateValue ≠ none ∧
    if row.baselineValue = some 0 then row.candidateValue = some 0
    else ∃ d ∈ row.relativeDelta, -|rule.threshold| ≤ d

instance decidablePasses (rule : GateRule K) (row : MetricDelta K) :
    Decidable (rule.Passes row) := by
  unfold GateRule.Passes
  split <;> infer_instance

def judgedResult (rule : GateRule K) (row : MetricDelta K) : GateRuleResult K where
  ruleId := rule.ruleId
  verdict :=
    if rule.Passes row then .passed else if rule.severity = .block then .blocked else .warning
  sampleCount := row.sampleCount
  numerator := row.numerator
  denominator := some row.denominator
  baselineValue := row.baselineValue
  candidateValue := row.candidateValue
  absoluteDelta := row.absoluteDelta
  relativeDelta := row.relativeDelta
  reasonCodes := if rule.Passes row then [] else ["gate_rule_threshold_failed"]

/-- `_evaluate_rule`. -/
def evaluateRule (rule : GateRule K) (deltas : List (MetricDelta K)) (hard : Bool) :
    GateRuleResult K :=
  match rule.row deltas with
  | none => incompleteResult rule "gate_metric_missing" hard none
  | some row =>
    if rule.Judges row then judgedResult rule row
    else incompleteResult rule "gate_input_incomplete" hard (some row)

def ruleResults (config : RegressionGateConfig K) (deltas : List (MetricDelta K)) :
    List (GateRuleResult K) :=
  (config.hardRules.map fun rule => evaluateRule rule deltas true) ++
    (config.qualityRules.map fun rule => evaluateRule rule deltas false) ++
    config.performanceRules.map fun rule => evaluateRule rule deltas false

def gateVerdict (results : List (GateRuleResult K)) : GateVerdict :=
  if ∃ result ∈ results, result.verdict = .blocked then .blocked
  else if ∃ result ∈ results, result.verdict = .indeterminate then .indeterminate
  else .passed

/-- `RegressionGateEngine.evaluate`. -/
def evaluateGate (ids : GateIds) (comparison : RegressionComparison K)
    (config : RegressionGateConfig K) (now : Timestamp) : RegressionGate K :=
  let gateId := ids.gateId comparison.comparisonId config.gateConfigVersion
  if comparison.scope.compatibility = .incompatible then
    { gateId
      comparisonId := comparison.comparisonId
      gateConfigVersion := config.gateConfigVersion
      hardInvariants := []
      qualityRules := []
      performanceRules := []
      verdict := .indeterminate
      reasonCodes := ["comparison_incompatible"]
      evaluatedAt := now }
  else
    let deltas := comparison.metricDeltas ++ comparison.subgroupDeltas
    let results := ruleResults config deltas
    { gateId
      comparisonId := comparison.comparisonId
      gateConfigVersion := config.gateConfigVersion
      hardInvariants := config.hardRules.map fun rule => evaluateRule rule deltas true
      qualityRules := config.qualityRules.map fun rule => evaluateRule rule deltas false
      performanceRules := config.performanceRules.map fun rule => evaluateRule rule deltas false
      verdict := gateVerdict results
      reasonCodes := sortedTexts (results.flatMap GateRuleResult.reasonCodes)
      evaluatedAt := now }

end Gate

end CodeResearch.Evaluation
