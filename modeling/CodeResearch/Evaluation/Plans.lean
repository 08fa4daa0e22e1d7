import CodeResearch.Evaluation.Metrics
import CodeResearch.Library.Text
import Mathlib.Data.Rat.Encodable
import Mathlib.Tactic.DeriveCountable

/-!
# Evaluation plans and runs

`prepare_run` resolves a request against the catalog, looks for a run with the same
fingerprint, and otherwise plans and stores a run of its own. The fingerprint, the plan
and the run are identified by digests of different parts of the request.
-/
namespace CodeResearch.Evaluation

open ControlPlane (JobError Timestamp)
open DomainJobs (evaluationError EvaluationStatus runTransitions)

inductive Direction
  | higherIsBetter | lowerIsBetter | zeroRequired
  deriving DecidableEq

inductive Aggregation
  | count | ratio | mean | macroMean | percentile | calibration
  deriving DecidableEq

structure MetricDefinition where
  metricDefinitionId : String
  name : String
  component : Component
  direction : Direction
  aggregation : Aggregation
  deriving DecidableEq

/-- The table of `default_metric_definitions`. -/
def metricSpecs : List (Component × String × Direction × Aggregation) :=
  [(.index, "case_pass_rate", .higherIsBetter, .ratio),
    (.index, "entity_recall", .higherIsBetter, .mean),
    (.index, "edge_recall", .higherIsBetter, .mean),
    (.index, "evidence_recall", .higherIsBetter, .mean),
    (.index, "chunk_recall", .higherIsBetter, .mean),
    (.retrieval, "recall_at_1", .higherIsBetter, .mean),
    (.retrieval, "recall_at_5", .higherIsBetter, .mean),
    (.retrieval, "recall_at_10", .higherIsBetter, .mean),
    (.retrieval, "recall_at_20", .higherIsBetter, .mean),
    (.retrieval, "mrr", .higherIsBetter, .mean),
    (.retrieval, "ndcg_at_10", .higherIsBetter, .mean),
    (.retrieval, "empty_rate", .lowerIsBetter, .ratio),
    (.retrieval, "graph_path_recall", .higherIsBetter, .mean),
    (.retrieval, "fallback_rate", .lowerIsBetter, .ratio),
    (.retrieval, "latency_ms", .lowerIsBetter, .mean),
    (.agent, "task_success", .higherIsBetter, .ratio),
    (.agent, "route_accuracy", .higherIsBetter, .ratio),
    (.agent, "tool_selection_accuracy", .higherIsBetter, .ratio),
    (.agent, "evidence_sufficiency", .higherIsBetter, .ratio),
    (.agent, "budget_compliance", .higherIsBetter, .ratio),
    (.agent, "invalid_tool_call", .zeroRequired, .count),
    (.alignment, "candidate_recall_at_20", .higherIsBetter, .mean),
    (.alignment, "pair_f1", .higherIsBetter, .mean),
    (.alignment, "exact_set", .higherIsBetter, .ratio),
    (.alignment, "selective_accuracy", .higherIsBetter, .ratio),
    (.alignment, "coverage", .higherIsBetter, .ratio),
    (.alignment, "abstention_accuracy", .higherIsBetter, .ratio),
    (.alignment, "no_implementation_accuracy", .higherIsBetter, .ratio),
    (.alignment, "evidence_recall", .higherIsBetter, .mean),
    (.alignment, "brier", .lowerIsBetter, .calibration),
    (.alignment, "ece", .lowerIsBetter, .calibration),
    (.answer, "case_pass_rate", .higherIsBetter, .ratio),
    (.answer, "claim_coverage", .higherIsBetter, .mean),
    (.answer, "supported_claim_rate", .higherIsBetter, .ratio),
    (.answer, "citation_validity", .higherIsBetter, .ratio),
    (.answer, "answer_completeness", .higherIsBetter, .mean),
    (.observability, "trace_completeness", .higherIsBetter, .ratio),
    (.observability, "integrity_flag_rate", .lowerIsBetter, .ratio),
    (.observability, "missing_span_rate", .lowerIsBetter, .mean),
    (.observability, "link_validity", .higherIsBetter, .ratio),
    (.observability, "redaction_validity", .higherIsBetter, .ratio),
    (.observability, "drop_rate", .lowerIsBetter, .mean),
    (.observability, "secret_leak", .zeroRequired, .count),
    (.observability, "recorder_overhead_ms", .lowerIsBetter, .percentile)]

/-- `default_metric_definitions`. -/
def defaultMetricDefinitions (ids : MetricIds) : List MetricDefinition :=
  metricSpecs.map fun (component, name, direction, aggregation) =>
    ⟨ids.metricDefinitionId component name, name, component, direction, aggregation⟩

inductive EvaluationMode
  | offlineRecompute | deterministicFixture | liveExperiment
  deriving DecidableEq

structure ProviderBudget where
  maxRequests : ℕ
  maxTokens : ℕ
  maxEstimatedCost : Option ℚ
  currency : Option String
  deriving DecidableEq

structure LiveTrialSpec where
  trialGroupId : String
  repeatCount : ℕ
  temperature : Option ℚ
  seed : Option ℤ
  seedSupported : Bool
  deriving DecidableEq

/-- `EvaluationRunCreateRequest`. -/
structure RunRequest where
  datasetVersionId : String
  subjectId : String
  environmentId : String
  mode : EvaluationMode
  components : List Component
  caseIds : List String := []
  adapterVersions : List (Component × String) := []
  metricDefinitionIds : List String := []
  baselineBindingId : Option String := none
  gateConfigVersion : Option String := none
  caseConcurrency : ℕ := 1
  providerConcurrency : ℕ := 0
  providerBudget : Option ProviderBudget := none
  externalModelConsent : Bool := false
  randomSeed : ℤ := 0
  liveTrial : Option LiveTrialSpec := none
  retryOfRunId : Option String := none
  deriving DecidableEq

/-- `fingerprint_payload`. -/
structure RunFingerprint where
  datasetVersionId : String
  caseSetHash : String
  goldHash : String
  subjectId : String
  metricDefinitionHash : String
  adapterProfileHash : String
  adapterMajorHash : String
  fixtureHash : String
  executionMode : EvaluationMode
  environmentHash : String
  randomSeed : ℤ
  deriving DecidableEq

/-- `plan_payload`. -/
structure PlanPayload where
  datasetVersionId : String
  subjectId : String
  mode : EvaluationMode
  caseIds : List String
  adapterVersions : List (Component × String)
  metricDefinitionIds : List String
  baselineBindingId : Option String
  gateConfigVersion : Option String
  caseConcurrency : ℕ
  providerConcurrency : ℕ
  randomSeed : ℤ
  liveTrial : Option LiveTrialSpec
  deriving DecidableEq

structure EvaluationProvenance where
  subjectId : String
  datasetVersionId : String
  fixtureVersion : String
  adapterProfileHash : String
  metricDefinitionHash : String
  createdAt : Timestamp
  deriving DecidableEq

structure EvaluationPlan extends PlanPayload where
  planId : String
  components : List Component
  frozenConfigHash : String
  providerBudget : Option ProviderBudget
  externalModelConsent : Bool
  provenance : EvaluationProvenance
  deriving DecidableEq

structure EvaluationRun where
  runId : String
  planId : String
  datasetVersionId : String
  subjectId : String
  mode : EvaluationMode
  status : EvaluationStatus := .queued
  fingerprint : RunFingerprint
  runFingerprintHash : String
  environmentId : String
  trialGroupId : Option String
  repeatIndex : Option ℕ
  repeatCount : Option ℕ
  temperature : Option ℚ
  seed : Option ℤ
  attemptNumber : ℕ
  retryOfRunId : Option String
  cancelRequested : Bool := false
  caseCounts : List (String × ℕ)
  complete : Bool := false
  incompleteReasonCodes : List String := []
  errorCode : Option String := none
  provenance : EvaluationProvenance
  createdAt : Timestamp
  updatedAt : Timestamp
  finishedAt : Option Timestamp := none
  deriving DecidableEq

/-- `stable_hash` and `stable_id`; payloads that differ have digests that differ. -/
structure PlanIds extends MetricIds where
  caseSetHash : List String → String
  metricDefinitionHash : List MetricDefinition → String
  adapterProfileHash : List (Component × String) → String
  adapterMajorHash : List (Component × String) → String
  runFingerprintHash : RunFingerprint → String
  planId : PlanPayload → String
  frozenConfigHash : PlanPayload → String
  runId : String → ℕ → Option String → Option ℕ → String
  metricDefinitionId_injective : Function.Injective fun p : Component × String =>
    metricDefinitionId p.1 p.2
  metricResultId_injective : Function.Injective fun p : String × String × List (String × String) =>
    metricResultId p.1 p.2.1 p.2.2
  caseSetHash_injective : Function.Injective caseSetHash
  metricDefinitionHash_injective : Function.Injective metricDefinitionHash
  adapterProfileHash_injective : Function.Injective adapterProfileHash
  runFingerprintHash_injective : Function.Injective runFingerprintHash
  planId_injective : Function.Injective planId
  runId_injective : Function.Injective fun p : String × ℕ × Option String × Option ℕ =>
    runId p.1 p.2.1 p.2.2.1 p.2.2.2

deriving instance Countable for Component
deriving instance Countable for Direction
deriving instance Countable for Aggregation
deriving instance Countable for EvaluationMode
deriving instance Countable for MetricDefinition
deriving instance Countable for LiveTrialSpec
deriving instance Countable for RunFingerprint
deriving instance Countable for PlanPayload

theorem exists_planIds : Nonempty PlanIds := by
  obtain ⟨metricDefinitionId, hdefinition⟩ := exists_digest (Component × String)
  obtain ⟨metricResultId, hresult⟩ := exists_digest (String × String × List (String × String))
  obtain ⟨caseSetHash, hcases⟩ := exists_digest (List String)
  obtain ⟨metricDefinitionHash, hmetrics⟩ := exists_digest (List MetricDefinition)
  obtain ⟨adapterHash, hadapters⟩ := exists_digest (List (Component × String))
  obtain ⟨runFingerprintHash, hfingerprint⟩ := exists_digest RunFingerprint
  obtain ⟨planId, hplan⟩ := exists_digest PlanPayload
  obtain ⟨runId, hrun⟩ := exists_digest (String × ℕ × Option String × Option ℕ)
  exact ⟨{
    metricDefinitionId := fun component name => metricDefinitionId (component, name)
    metricResultId := fun runId definitionId subgroup =>
      metricResultId (runId, definitionId, subgroup)
    resultId := fun runId caseId => runId ++ caseId
    caseSetHash, metricDefinitionHash
    adapterProfileHash := adapterHash
    adapterMajorHash := adapterHash
    runFingerprintHash, planId
    frozenConfigHash := planId
    runId := fun hash attempt parent index => runId (hash, attempt, parent, index)
    metricDefinitionId_injective := hdefinition
    metricResultId_injective := hresult
    caseSetHash_injective := hcases
    metricDefinitionHash_injective := hmetrics
    adapterProfileHash_injective := hadapters
    runFingerprintHash_injective := hfingerprint
    planId_injective := hplan
    runId_injective := hrun }⟩

structure DatasetVersion where
  datasetVersionId : String
  frozen : Bool
  goldHash : String
  fixtureHash : String
  deriving DecidableEq

inductive SubjectType
  | codeCommit | worktreePatch | configuration | promptProfile | modelProfile | combined
  deriving DecidableEq

/-- A subject; `content` is the text of the other fields that its hash covers. -/
structure EvaluationSubject where
  subjectId : String
  subjectType : SubjectType
  worktreePatchHash : Option String
  content : String
  subjectHash : String
  deriving DecidableEq

structure ExecutionEnvironment where
  environmentId : String
  environmentHash : String
  deriving DecidableEq

structure DatasetCase extends ScoredCase where
  datasetVersionId : String
  fixtureVersion : String
  deriving DecidableEq

/-- What the requests refer to. The rows are immutable once their dataset is frozen. -/
structure Catalog where
  versions : Table DatasetVersion.datasetVersionId
  subjects : Table EvaluationSubject.subjectId
  environments : Table ExecutionEnvironment.environmentId
  cases : Table fun case : DatasetCase => case.caseId

structure PlanStore extends Catalog where
  definitions : Table MetricDefinition.metricDefinitionId := .empty
  plans : Table EvaluationPlan.planId := .empty
  runs : Table EvaluationRun.runId := .empty

namespace PlanStore

/-- `list_cases`. -/
def listCases (s : Catalog) (versionId : String) (caseIds : List String) :
    Except JobError (List DatasetCase) := do
  let items := (s.cases.rows.filter fun case => case.datasetVersionId = versionId).insertionSort
    fun a b => a.caseId ≤ b.caseId
  let found := if caseIds = [] then items else items.filter fun case => case.caseId ∈ caseIds
  ensure (∀ id ∈ caseIds, id ∈ found.map fun case => case.caseId)
    (evaluationError "evaluation_case_not_found" "")
  return found

/-- `save_metric_definition`. -/
def saveMetricDefinition (d : MetricDefinition) (s : PlanStore) : Except JobError PlanStore :=
  (BadCaseStore.immutableJson "evaluation_metric_definition_immutable" d s.definitions).map
    fun definitions => { s with definitions }

/-- `ORDER BY attempt_number DESC, created_at DESC`. -/
def Newer (a b : EvaluationRun) : Prop :=
  b.attemptNumber < a.attemptNumber ∨
    b.attemptNumber = a.attemptNumber ∧ b.createdAt < a.createdAt

instance (a b : EvaluationRun) : Decidable (Newer a b) := inferInstanceAs (Decidable (_ ∨ _))

/-- `find_reusable_run`. -/
def findReusableRun (hash : String) (s : PlanStore) : Option EvaluationRun :=
  let found := s.runs.rows.filter fun r => r.runFingerprintHash = hash ∧
    r.status ∈ [EvaluationStatus.queued, .preparing, .running, .aggregating, .comparing,
      .completed]
  found.foldl (fun best r => if ∀ b ∈ best, Newer r b then some r else best) none

/-- `get_plan` or `save_plan` of a plan that was just computed. -/
def storePlan (plan : EvaluationPlan) (s : PlanStore) : Except JobError PlanStore :=
  match s.plans.find? plan.planId with
  | some stored =>
    if stored.frozenConfigHash = plan.frozenConfigHash then .ok s
    else .error (evaluationError "evaluation_plan_conflict" plan.planId)
  | none => (orError (.other none "IntegrityError") (s.plans.insert plan)).map fun plans =>
    { s with plans }

/-- `save_run`. -/
def saveRun (run : EvaluationRun) (s : PlanStore) : Except JobError PlanStore :=
  match s.runs.insert run with
  | some runs => .ok { s with runs }
  | none =>
    if s.runs.find? run.runId = some run then .ok s
    else .error (evaluationError "evaluation_run_conflict"
      "UNIQUE constraint failed: evaluation_runs.run_id")

end PlanStore

def Component.all : List Component :=
  [.agent, .alignment, .answer, .index, .observability, .retrieval]

def adapterVersion : String := "1.0.0"

def RunRequest.adapters (request : RunRequest) : List (Component × String) :=
  (Component.all.filter fun c => c ∈ request.components).map fun c =>
    (c, (request.adapterVersions.lookup c).getD adapterVersion)

/-- What a request names in the catalog. -/
structure Resolved where
  version : DatasetVersion
  subject : EvaluationSubject
  environment : ExecutionEnvironment
  cases : List DatasetCase

/-- The readings of `prepare_run` before it writes. -/
def RunRequest.resolve (request : RunRequest) (s : Catalog) : Except JobError Resolved := do
  let version ← orError
    (evaluationError "evaluation_dataset_version_not_found" request.datasetVersionId)
    (s.versions.find? request.datasetVersionId)
  ensure (version.frozen = true) (evaluationError "dataset_not_frozen" request.datasetVersionId)
  let subject ← orError (evaluationError "evaluation_subject_not_found" request.subjectId)
    (s.subjects.find? request.subjectId)
  let environment ← orError
    (evaluationError "evaluation_environment_not_found" request.environmentId)
    (s.environments.find? request.environmentId)
  let listed ← PlanStore.listCases s request.datasetVersionId request.caseIds
  let cases := listed.filter fun case => case.component ∈ request.components
  ensure (cases ≠ []) (evaluationError "evaluation_case_not_found" "")
  return { version, subject, environment, cases }

section Preparation

variable (ids : PlanIds) (request : RunRequest) (r : Resolved)

def RunRequest.definitions : List MetricDefinition :=
  (defaultMetricDefinitions ids.toMetricIds).filter fun d => d.component ∈ request.components ∧
    (request.metricDefinitionIds = [] ∨ d.metricDefinitionId ∈ request.metricDefinitionIds)

def RunRequest.fingerprint : RunFingerprint where
  datasetVersionId := r.version.datasetVersionId
  caseSetHash := ids.caseSetHash (r.cases.map fun case => case.caseId)
  goldHash := r.version.goldHash
  subjectId := r.subject.subjectId
  metricDefinitionHash := ids.metricDefinitionHash (request.definitions ids)
  adapterProfileHash := ids.adapterProfileHash request.adapters
  adapterMajorHash := ids.adapterMajorHash
    (request.adapters.map fun (c, version) => (c, (version.splitOn ".").headD version))
  fixtureHash := r.version.fixtureHash
  executionMode := request.mode
  environmentHash := r.environment.environmentHash
  randomSeed := request.randomSeed

def RunRequest.planPayload : PlanPayload where
  datasetVersionId := r.version.datasetVersionId
  subjectId := r.subject.subjectId
  mode := request.mode
  caseIds := r.cases.map fun case => case.caseId
  adapterVersions := request.adapters
  metricDefinitionIds := (request.definitions ids).map MetricDefinition.metricDefinitionId
  baselineBindingId := request.baselineBindingId
  gateConfigVersion := request.gateConfigVersion
  caseConcurrency := request.caseConcurrency
  providerConcurrency := request.providerConcurrency
  randomSeed := request.randomSeed
  liveTrial := request.liveTrial

def RunRequest.provenance (now : Timestamp) : EvaluationProvenance where
  subjectId := r.subject.subjectId
  datasetVersionId := r.version.datasetVersionId
  fixtureVersion := (r.cases.head?.map fun case => case.fixtureVersion).getD ""
  adapterProfileHash := ids.adapterProfileHash request.adapters
  metricDefinitionHash := ids.metricDefinitionHash (request.definitions ids)
  createdAt := now

def RunRequest.plan (now : Timestamp) : EvaluationPlan where
  toPlanPayload := request.planPayload ids r
  planId := ids.planId (request.planPayload ids r)
  components := request.components
  frozenConfigHash := ids.frozenConfigHash (request.planPayload ids r)
  providerBudget := request.providerBudget
  externalModelConsent := request.externalModelConsent
  provenance := request.provenance ids r now

/-- `EvaluationPlan.live_requirements`. -/
def RunRequest.LiveRequirements : Prop :=
  if request.mode = .liveExperiment then
    request.externalModelConsent = true ∧ request.providerBudget ≠ none ∧ request.liveTrial ≠ none
  else request.liveTrial = none

instance : Decidable request.LiveRequirements := by
  unfold RunRequest.LiveRequirements
  infer_instance

def RunRequest.repeatIndex (index : Option ℕ) : Option ℕ :=
  if request.liveTrial = none then none else index

def RunRequest.run (attempt : ℕ) (index : Option ℕ) (now : Timestamp) : EvaluationRun where
  runId := ids.runId (ids.runFingerprintHash (request.fingerprint ids r)) attempt
    request.retryOfRunId (request.repeatIndex index)
  planId := (request.plan ids r now).planId
  datasetVersionId := r.version.datasetVersionId
  subjectId := r.subject.subjectId
  mode := request.mode
  fingerprint := request.fingerprint ids r
  runFingerprintHash := ids.runFingerprintHash (request.fingerprint ids r)
  environmentId := r.environment.environmentId
  trialGroupId := request.liveTrial.map LiveTrialSpec.trialGroupId
  repeatIndex := request.repeatIndex index
  repeatCount := request.liveTrial.map LiveTrialSpec.repeatCount
  temperature := request.liveTrial.bind LiveTrialSpec.temperature
  seed := match request.liveTrial with
    | some trial => trial.seed
    | none => some request.randomSeed
  attemptNumber := attempt
  retryOfRunId := request.retryOfRunId
  caseCounts := [("total", r.cases.length), ("completed", 0), ("failed", 0)]
  provenance := request.provenance ids r now
  createdAt := now
  updatedAt := now

def RunRequest.attempt (s : PlanStore) : Except JobError ℕ :=
  match request.retryOfRunId.filter (· ≠ "") with
  | none => .ok 1
  | some parentId => do
    let parent ← orError (evaluationError "evaluation_run_not_found" parentId)
      (s.runs.find? parentId)
    ensure (parent.status ∈ [EvaluationStatus.failed, .cancelled, .partialResult])
      (evaluationError "evaluation_retry_not_allowed" "")
    return parent.attemptNumber + 1

def RunRequest.reusable (s : PlanStore) : Option EvaluationRun :=
  if request.retryOfRunId = none ∧ request.liveTrial = none then
    s.findReusableRun (ids.runFingerprintHash (request.fingerprint ids r))
  else none

/-- `prepare_run` after it saved the metric definitions. -/
def prepareResolved (index : Option ℕ) (now : Timestamp) : Exec JobError PlanStore EvaluationRun := do
  match ← Exec.query fun s => .ok (request.reusable ids r s) with
  | some run => return run
  | none =>
    let attempt ← Exec.query request.attempt
    Exec.check request.LiveRequirements (.other none "ValidationError")
    let run := request.run ids r attempt index now
    Exec.command (PlanStore.storePlan (request.plan ids r now))
    Exec.command (PlanStore.saveRun run)
    return run

end Preparation

/-- `EvaluationService.prepare_run`. -/
def prepareRun (ids : PlanIds) (request : RunRequest) (index : Option ℕ) (now : Timestamp) :
    Exec JobError PlanStore EvaluationRun := do
  let r ← Exec.query fun s => request.resolve s.toCatalog
  (request.definitions ids).forM fun d => Exec.command (PlanStore.saveMetricDefinition d)
  prepareResolved ids request r index now

end CodeResearch.Evaluation
