import CodeResearch.Evaluation.BadCases
import Mathlib.Algebra.BigOperators.Group.List.Basic
import Mathlib.Algebra.Order.Field.Basic
import Mathlib.Data.Finset.Card

/-!
# The metric engine

`MetricEngine.compute` groups the case results of a run by component, split, source,
repository and tag, and computes the metrics of each group. Scores are exact numbers of
an ordered field; the discount of a rank, `1 / log2 (rank + 1)`, is given.
-/
namespace CodeResearch.Evaluation

open ControlPlane (Timestamp)

structure IndexGold where
  requiredEntityIds : List String
  requiredEdgeIds : List String
  requiredEvidenceIds : List String
  requiredChunkIds : List String
  deriving DecidableEq

structure RetrievalGold where
  requiredEntityIds : List String
  requiredChunkIds : List String
  requiredPaths : List (List String)
  deriving DecidableEq

structure AgentGold where
  expectedRoute : String
  requiredTools : List String
  forbiddenTools : List String
  requiredEvidenceIds : List String
  maxToolCalls : ℕ
  deriving DecidableEq

structure AlignmentSelection where
  codeEntityId : String
  relationType : String
  deriving DecidableEq

structure AlignmentGold where
  goldSelections : List AlignmentSelection
  alignable : Bool
  noImplementationExpected : Bool
  requiredPaperEvidenceIds : List String
  requiredCodeEvidenceIds : List String
  deriving DecidableEq

structure AnswerGold where
  requiredAnswerPoints : List String
  allowedCitationSets : List (List String)
  deriving DecidableEq

inductive Gold
  | index (gold : IndexGold)
  | retrieval (gold : RetrievalGold)
  | agent (gold : AgentGold)
  | alignment (gold : AlignmentGold)
  | answer (gold : AnswerGold)
  | observability
  deriving DecidableEq

structure IndexOutcome where
  entityIds : List String
  edgeIds : List String
  evidenceIds : List String
  chunkIds : List String
  deriving DecidableEq

structure RetrievalOutcome where
  rankedEntityIds : List String
  rankedChunkIds : List String
  graphPaths : List (List String)
  fallbackReasonCodes : List String
  deriving DecidableEq

structure AgentOutcome where
  route : String
  /-- the `tool_name` of each call -/
  tools : List String
  evidenceIds : List String
  deriving DecidableEq

structure AlignmentOutcome (K : Type) where
  candidateIds : List String
  selections : List AlignmentSelection
  decisionStatus : String
  paperEvidenceIds : List String
  codeEvidenceIds : List String
  candidateProbabilities : List (String × K)
  deriving DecidableEq

structure AnswerOutcome where
  answerPointIds : List String
  /-- whether each claim is `supported` -/
  claims : List Bool
  citationIds : List String
  deriving DecidableEq

structure ObservabilityOutcome where
  complete : Bool
  integrityFlags : List String
  dropCount : ℕ
  missingSpanCount : ℕ
  deriving DecidableEq

/-- The typed outcome of a case, `EvaluationOutcome` in the schemas. -/
inductive CaseOutcome (K : Type)
  | index (outcome : IndexOutcome)
  | retrieval (outcome : RetrievalOutcome)
  | agent (outcome : AgentOutcome)
  | alignment (outcome : AlignmentOutcome K)
  | answer (outcome : AnswerOutcome)
  | observability (outcome : ObservabilityOutcome)
  deriving DecidableEq

/-- A case with the fields that the metrics read. -/
structure ScoredCase extends EvaluationCase where
  split : String
  source : String
  repoId : String
  tags : List String
  gold : Gold
  deriving DecidableEq

/-- A case result with the fields that the metrics read. -/
structure ScoredResult (K : Type) extends CaseResult where
  outcome : Option (CaseOutcome K)
  latencyMs : Option K
  deriving DecidableEq

abbrev Row (K : Type) := ScoredCase × ScoredResult K

/-- A value that `_values` yields. Each of them has a denominator. -/
structure MetricValue (K : Type) where
  name : String
  value : Option K
  numerator : Option K
  denominator : ℕ
  complete : Bool
  reasons : List String
  deriving DecidableEq

section Values

variable {K : Type} [Field K]

/-- `_ratio`. -/
def ratio (numerator denominator : ℕ) : Option K :=
  if denominator = 0 then none else some ((numerator : K) / denominator)

/-- `_mean`. -/
def mean (values : List K) : Option K :=
  if values = [] then none else some (values.sum / values.length)

def coverage {α : Type} [DecidableEq α] (found gold : Finset α) : K :=
  if gold = ∅ then 1 else ((found ∩ gold).card : K) / gold.card

/-- `_recall`. -/
def recallAt (ranking : List String) (gold : Finset String) (k : ℕ) : K :=
  coverage (ranking.take k).toFinset gold

/-- `_set_recall`. -/
def setRecall (found gold : List String) : K := coverage found.toFinset gold.toFinset

/-- `_reciprocal_rank`. -/
def reciprocalRank (ranking : List String) (gold : Finset String) : K :=
  if ranking.findIdx (· ∈ gold) < ranking.length then
    1 / ((ranking.findIdx (· ∈ gold) + 1 : ℕ) : K)
  else 0

/-- `_ndcg`, with the discount of each rank. -/
def ndcg (discount : ℕ → K) (ranking : List String) (gold : Finset String) (k : ℕ) : K :=
  if gold = ∅ then 1
  else
    ((ranking.take k).zipIdx 1 |>.map fun (item, rank) =>
        if item ∈ gold then discount rank else 0).sum /
      ((List.range' 1 (min gold.card k)).map discount).sum

/-- `_f1`. -/
def f1 {α : Type} [DecidableEq α] (found gold : Finset α) : K :=
  if found = ∅ ∧ gold = ∅ then 1
  else
    let precision : K := ((found ∩ gold).card : K) / found.card
    let sensitivity : K := ((found ∩ gold).card : K) / gold.card
    2 * precision * sensitivity / (precision + sensitivity)

/-- `_ece`, with ten bins in the call. -/
def ece [LinearOrder K] (predictions : List (K × Bool)) (bins : ℕ) : Option K :=
  if predictions = [] then none
  else some <| ((List.range bins).map fun i : ℕ =>
    let lower : K := (i : K) / bins
    let upper : K := ((i : K) + 1) / bins
    let members := predictions.filter fun p =>
      lower ≤ p.1 ∧ if i = bins - 1 then p.1 ≤ upper else p.1 < upper
    let confidence : K := (members.map Prod.fst).sum / members.length
    let accuracy : K := ((members.countP fun p => p.2) : K) / members.length
    if members = [] then 0
    else (members.length : K) / predictions.length * |confidence - accuracy|).sum

def evaluable (rows : List (Row K)) : List (Row K) :=
  rows.filter fun row => row.2.executionStatus = .completed ∧
    row.2.evaluationOutcome ∈ [some EvaluationOutcome.passed, some .failed]

def groupComplete (rows : List (Row K)) : Bool :=
  (evaluable rows).length = rows.length ∧ ∀ row ∈ rows, row.2.complete

def groupReasons (rows : List (Row K)) : List String :=
  if groupComplete rows then [] else ["incomplete_or_not_evaluable_case"]

section Yields

variable (rows : List (Row K))

def meanValue (name : String) (values : List K) : MetricValue K :=
  ⟨name, mean values, some values.sum, values.length, groupComplete rows, groupReasons rows⟩

def ratioValue (name : String) (numerator denominator : ℕ) : MetricValue K :=
  ⟨name, ratio numerator denominator, some numerator, denominator, groupComplete rows,
    groupReasons rows⟩

def countValue (name : String) (count : ℕ) : MetricValue K :=
  ⟨name, some count, some count, rows.length, groupComplete rows, groupReasons rows⟩

def calibrationValue (name : String) (value : Option K) (labels : ℕ) : MetricValue K :=
  ⟨name, value, none, labels, groupComplete rows && decide (labels ≠ 0),
    if groupReasons rows = [] then if labels = 0 then ["no_probability_labels"] else []
    else groupReasons rows⟩

def passRate (name : String) : MetricValue K :=
  ratioValue rows name
    ((evaluable rows).countP fun row => row.2.evaluationOutcome = some .passed)
    (evaluable rows).length

/-- `_values` for `index`. -/
def indexValues : List (MetricValue K) :=
  let scored := (evaluable rows).filterMap fun row => match row.1.gold, row.2.outcome with
    | .index gold, some (.index outcome) => some (gold, outcome)
    | _, _ => none
  [passRate rows "case_pass_rate",
    meanValue rows "entity_recall" (scored.map fun (gold, outcome) =>
      setRecall outcome.entityIds gold.requiredEntityIds),
    meanValue rows "edge_recall" (scored.map fun (gold, outcome) =>
      setRecall outcome.edgeIds gold.requiredEdgeIds),
    meanValue rows "evidence_recall" (scored.map fun (gold, outcome) =>
      setRecall outcome.evidenceIds gold.requiredEvidenceIds),
    meanValue rows "chunk_recall" (scored.map fun (gold, outcome) =>
      setRecall outcome.chunkIds gold.requiredChunkIds)]

/-- `_values` for `agent`. -/
def agentValues : List (MetricValue K) :=
  let scored := (evaluable rows).filterMap fun row => match row.1.gold, row.2.outcome with
    | .agent gold, some (.agent outcome) => some (gold, outcome)
    | _, _ => none
  let denominator := (evaluable rows).length
  [passRate rows "task_success",
    countValue rows "invalid_tool_call"
      (rows.countP fun row => "agent_forbidden_tool" ∈ row.2.qualityFailureCodes),
    ratioValue rows "route_accuracy"
      (scored.countP fun (gold, outcome) => outcome.route = gold.expectedRoute) denominator,
    ratioValue rows "tool_selection_accuracy"
      (scored.countP fun (gold, outcome) => (∀ tool ∈ gold.requiredTools, tool ∈ outcome.tools) ∧
        ∀ tool ∈ gold.forbiddenTools, tool ∉ outcome.tools) denominator,
    ratioValue rows "evidence_sufficiency"
      (scored.countP fun (gold, outcome) =>
        ∀ id ∈ gold.requiredEvidenceIds, id ∈ outcome.evidenceIds) denominator,
    ratioValue rows "budget_compliance"
      (scored.countP fun (gold, outcome) => outcome.tools.length ≤ gold.maxToolCalls) denominator]

/-- `_values` for `answer`. -/
def answerValues : List (MetricValue K) :=
  let scored := (evaluable rows).filterMap fun row => match row.1.gold, row.2.outcome with
    | .answer gold, some (.answer outcome) => some (gold, outcome)
    | _, _ => none
  let coverages : List K := scored.map fun (gold, outcome) =>
    setRecall outcome.answerPointIds gold.requiredAnswerPoints
  [passRate rows "case_pass_rate",
    meanValue rows "claim_coverage" coverages,
    meanValue rows "answer_completeness" coverages,
    ratioValue rows "supported_claim_rate"
      (scored.map fun (_, outcome) => outcome.claims.countP id).sum
      (scored.map fun (_, outcome) => outcome.claims.length).sum,
    ratioValue rows "citation_validity"
      (scored.map fun (gold, outcome) =>
        if gold.allowedCitationSets.flatten = [] then outcome.citationIds.length
        else outcome.citationIds.countP (· ∈ gold.allowedCitationSets.flatten)).sum
      (scored.map fun (_, outcome) => outcome.citationIds.length).sum]

/-- `_values` for `retrieval`. -/
def retrievalValues (discount : ℕ → K) : List (MetricValue K) :=
  let scored := (evaluable rows).filterMap fun row => match row.1.gold, row.2.outcome with
    | .retrieval gold, some (.retrieval outcome) => some (gold, outcome, row.2.latencyMs)
    | _, _ => none
  let ranking := fun outcome : RetrievalOutcome => outcome.rankedEntityIds ++ outcome.rankedChunkIds
  let required := fun gold : RetrievalGold =>
    (gold.requiredEntityIds ++ gold.requiredChunkIds).toFinset
  let recalls := fun (name : String) (k : ℕ) => meanValue rows name
    (scored.map fun (gold, outcome, _) => recallAt (ranking outcome) (required gold) k)
  [recalls "recall_at_1" 1, recalls "recall_at_5" 5, recalls "recall_at_10" 10,
    recalls "recall_at_20" 20,
    meanValue rows "mrr" (scored.map fun (gold, outcome, _) =>
      reciprocalRank (ranking outcome) (required gold)),
    meanValue rows "ndcg_at_10" (scored.map fun (gold, outcome, _) =>
      ndcg discount (ranking outcome) (required gold) 10),
    ratioValue rows "empty_rate" (scored.countP fun (_, outcome, _) => ranking outcome = [])
      (evaluable rows).length,
    meanValue rows "graph_path_recall" (scored.map fun (gold, outcome, _) =>
      coverage outcome.graphPaths.toFinset gold.requiredPaths.toFinset),
    ratioValue rows "fallback_rate"
      (scored.countP fun (_, outcome, _) => outcome.fallbackReasonCodes ≠ [])
      (evaluable rows).length,
    meanValue rows "latency_ms" (scored.filterMap fun (_, _, latencyMs) => latencyMs)]

/-- `_values` for `alignment`. -/
def alignmentValues [LinearOrder K] : List (MetricValue K) :=
  let scored := (evaluable rows).filterMap fun row => match row.1.gold, row.2.outcome with
    | .alignment gold, some (.alignment outcome) => some (gold, outcome)
    | _, _ => none
  let goldIds := fun gold : AlignmentGold =>
    (gold.goldSelections.map AlignmentSelection.codeEntityId).toFinset
  let exactly := fun (gold : AlignmentGold) (outcome : AlignmentOutcome K) =>
    outcome.selections.toFinset = gold.goldSelections.toFinset
  let accepted := scored.filter fun (_, outcome) => outcome.decisionStatus = "accepted"
  let abstained := scored.filter fun (_, outcome) =>
    outcome.decisionStatus ∈ ["abstained", "needs_review"]
  let unimplemented := scored.filter fun (_, outcome) =>
    outcome.decisionStatus = "no_implementation"
  let predictions := scored.flatMap fun (gold, outcome) =>
    outcome.candidateProbabilities.map fun (id, probability) =>
      (probability, decide (id ∈ goldIds gold))
  [meanValue rows "candidate_recall_at_20" (scored.map fun (gold, outcome) =>
      recallAt outcome.candidateIds (goldIds gold) 20),
    meanValue rows "pair_f1" (scored.map fun (gold, outcome) =>
      f1 outcome.selections.toFinset gold.goldSelections.toFinset),
    meanValue rows "exact_set" (scored.map fun (gold, outcome) =>
      if exactly gold outcome then 1 else 0),
    ratioValue rows "selective_accuracy"
      (accepted.countP fun (gold, outcome) => exactly gold outcome) accepted.length,
    ratioValue rows "coverage" accepted.length (evaluable rows).length,
    ratioValue rows "abstention_accuracy" (abstained.countP fun (gold, _) => !gold.alignable)
      abstained.length,
    ratioValue rows "no_implementation_accuracy"
      (unimplemented.countP fun (gold, _) => gold.noImplementationExpected) unimplemented.length,
    meanValue rows "evidence_recall" (scored.map fun (gold, outcome) =>
      coverage (outcome.paperEvidenceIds ++ outcome.codeEvidenceIds).toFinset
        (gold.requiredPaperEvidenceIds ++ gold.requiredCodeEvidenceIds).toFinset),
    calibrationValue rows "brier" (mean (predictions.map fun (probability, label) =>
      (probability - if label then 1 else 0) ^ 2)) predictions.length,
    calibrationValue rows "ece" (ece predictions 10) predictions.length]

/-- `_values` for `observability`. -/
def observabilityValues : List (MetricValue K) :=
  let outcomes := (evaluable rows).filterMap fun row => match row.2.outcome with
    | some (.observability outcome) => some outcome
    | _ => none
  let secretLeaks := rows.countP fun row =>
    "observability_forbidden_attribute" ∈ row.2.qualityFailureCodes
  [ratioValue rows "trace_completeness" (outcomes.countP fun o => o.complete) outcomes.length,
    ratioValue rows "integrity_flag_rate" (outcomes.countP fun o => o.integrityFlags ≠ [])
      outcomes.length,
    meanValue rows "missing_span_rate" (outcomes.map fun o => (o.missingSpanCount : K)),
    ratioValue rows "link_validity"
      (rows.countP fun row => "observability_link_missing" ∉ row.2.qualityFailureCodes) rows.length,
    ratioValue rows "redaction_validity" (rows.length - secretLeaks) rows.length,
    meanValue rows "drop_rate" (outcomes.map fun o => (o.dropCount : K)),
    countValue rows "secret_leak" secretLeaks]

/-- `_values`. -/
def groupValues [LinearOrder K] (discount : ℕ → K) : Component → List (MetricValue K)
  | .index => indexValues rows
  | .agent => agentValues rows
  | .answer => answerValues rows
  | .retrieval => retrievalValues rows discount
  | .alignment => alignmentValues rows
  | .observability => observabilityValues rows

end Yields

end Values

/-- `default_metric_definitions`, by component and name. -/
def metricNames : Component → List String
  | .index => ["case_pass_rate", "entity_recall", "edge_recall", "evidence_recall", "chunk_recall"]
  | .retrieval => ["recall_at_1", "recall_at_5", "recall_at_10", "recall_at_20", "mrr",
      "ndcg_at_10", "empty_rate", "graph_path_recall", "fallback_rate", "latency_ms"]
  | .agent => ["task_success", "route_accuracy", "tool_selection_accuracy",
      "evidence_sufficiency", "budget_compliance", "invalid_tool_call"]
  | .alignment => ["candidate_recall_at_20", "pair_f1", "exact_set", "selective_accuracy",
      "coverage", "abstention_accuracy", "no_implementation_accuracy", "evidence_recall", "brier",
      "ece"]
  | .answer => ["case_pass_rate", "claim_coverage", "supported_claim_rate", "citation_validity",
      "answer_completeness"]
  | .observability => ["trace_completeness", "integrity_flag_rate", "missing_span_rate",
      "link_validity", "redaction_validity", "drop_rate", "secret_leak", "recorder_overhead_ms"]

structure MetricResult (K : Type) where
  metricResultId : String
  evaluationRunId : String
  metricDefinitionId : String
  split : String
  /-- the frozen key and its value, nothing for all -/
  subgroup : List (String × String)
  value : Option K
  numerator : Option K
  denominator : ℕ
  sampleCount : ℕ
  complete : Bool
  incompleteReasonCodes : List String
  computedAt : Timestamp
  deriving DecidableEq

/-- `stable_id` on what identifies a metric, its result and the result of a case. -/
structure MetricIds where
  metricDefinitionId : Component → String → String
  metricResultId : String → String → List (String × String) → String
  resultId : String → String → String

abbrev GroupKey := Component × List (String × String)

def groupKeys (case : ScoredCase) (component : Component) : List GroupKey :=
  [(component, []), (component, [("split", case.split)]),
    (component, [("source", case.source)]), (component, [("repo", case.repoId)])] ++
    case.tags.map fun tag => (component, [("tag", tag)])

section Compute

variable {K : Type} (cases : List ScoredCase) (results : List (ScoredResult K))

def groupEntries : List (GroupKey × Row K) :=
  results.flatMap fun result =>
    match cases.find? fun case => case.caseId = result.caseId with
    | none => []
    | some case => (groupKeys case result.component).map fun key => (key, case, result)

def groupOrder : List GroupKey :=
  ((groupEntries cases results).map Prod.fst).reverse.dedup.reverse

def groupRows (key : GroupKey) : List (Row K) :=
  ((groupEntries cases results).filter fun entry => entry.1 = key).map Prod.snd

def computedAt (clock : Timestamp) : Timestamp :=
  (results.filterMap fun result => result.finishedAt).max?.getD clock

variable [Field K] [LinearOrder K]

def metricResult (ids : MetricIds) (runId : String) (key : GroupKey) (computedAt : Timestamp)
    (v : MetricValue K) : Option (MetricResult K) :=
  if v.name ∈ metricNames key.1 then
    let definitionId := ids.metricDefinitionId key.1 v.name
    some
      { metricResultId := ids.metricResultId runId definitionId key.2
        evaluationRunId := runId
        metricDefinitionId := definitionId
        split := (key.2.lookup "split").getD "all"
        subgroup := key.2
        value := v.value
        numerator := v.numerator
        denominator := v.denominator
        sampleCount := v.denominator
        complete := v.complete
        incompleteReasonCodes := v.reasons
        computedAt }
  else none

/-- `MetricEngine.compute`. -/
def computeMetrics (ids : MetricIds) (discount : ℕ → K) (runId : String) (clock : Timestamp) :
    List (MetricResult K) :=
  (groupOrder cases results).flatMap fun key =>
    (groupValues (groupRows cases results key) discount key.1).filterMap
      (metricResult ids runId key (computedAt results clock))

end Compute

end CodeResearch.Evaluation
