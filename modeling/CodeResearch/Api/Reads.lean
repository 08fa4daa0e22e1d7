import CodeResearch.Api.Submissions

/-!
# Reading jobs, artifacts and evaluations

The endpoints under a project of a workspace that read. Jobs and artifacts are stored
under a workspace, and the endpoints compare it with the one of their path. The
evaluation store is one for all workspaces: its tables have no such column, and the
endpoints ask only whether the caller owns the workspace of the path.
-/
namespace CodeResearch.Api

open Artifacts (ArtifactKind ArtifactStatus ArtifactRecord World StoreConfig Bytes)
open ControlPlane (Timestamp JobRecord JobAttempt Store)

/-- A row of the evaluation store with the column by which its table is listed. -/
structure EvaluationRow where
  rowId : String
  /-- `created_at`, `updated_at`, `promoted_at` or the `rowid` of a comparison -/
  listedBy : Timestamp
  json : String
  deriving DecidableEq

structure BadCaseRow extends EvaluationRow where
  status : String
  deriving DecidableEq

/-- The tables of the evaluation store that the endpoints read. -/
structure EvaluationTables where
  runs : Table EvaluationRow.rowId
  datasets : Table EvaluationRow.rowId
  baselineBindings : Table EvaluationRow.rowId
  comparisons : Table EvaluationRow.rowId
  badCases : Table fun r : BadCaseRow => r.rowId

structure ReadState extends ApiState where
  evaluation : EvaluationTables

structure ReadConfig where
  store : StoreConfig
  evaluationApiEnabled : Bool
  evaluationEnabled : Bool

/-- A `limit` that the evaluation endpoints accept. -/
abbrev PageLimit := { n : ℕ // 1 ≤ n ∧ n ≤ 500 }

inductive Endpoint
  | listJobs (limit : ℤ)
  | getJob (jobId : String)
  | listJobAttempts (jobId : String)
  | listArtifacts (limit : ℤ)
  | getArtifact (artifactId : String)
  | downloadArtifact (artifactId : String)
  | listEvaluationRuns (limit : PageLimit) (offset : ℕ)
  | listEvaluationDatasets
  | listEvaluationBaselines
  | listEvaluationComparisons (limit : PageLimit)
  | listEvaluationBadCases (status : Option String) (limit : PageLimit) (offset : ℕ)

def Endpoint.ReadsEvaluation : Endpoint → Prop
  | .listEvaluationRuns .. | .listEvaluationDatasets | .listEvaluationBaselines
  | .listEvaluationComparisons _ | .listEvaluationBadCases .. => True
  | _ => False

/-- A request of an authenticated user. -/
structure ReadCall where
  userId : String
  workspaceId : String
  projectId : String
  now : Timestamp
  endpoint : Endpoint

/-- An artifact as the endpoints show it, without its storage key. -/
structure PublicArtifact where
  artifactId : String
  workspaceId : String
  projectId : String
  kind : ArtifactKind
  status : ArtifactStatus
  contentHash : String
  sizeBytes : ℕ
  mediaType : String
  errorCode : Option String
  createdAt : Timestamp
  updatedAt : Timestamp
  deriving DecidableEq

/-- `_public_artifact`. -/
def publicArtifact (r : ArtifactRecord) : PublicArtifact where
  artifactId := r.artifactId
  workspaceId := r.workspaceId
  projectId := r.projectId
  kind := r.kind
  status := r.status
  contentHash := r.contentHash
  sizeBytes := r.sizeBytes
  mediaType := r.mediaType
  errorCode := r.errorCode
  createdAt := r.createdAt
  updatedAt := r.updatedAt

inductive Response
  | jobs (items : List JobRecord)
  | job (job : JobRecord)
  | attempts (items : List JobAttempt)
  | artifacts (items : List PublicArtifact)
  | artifact (artifact : PublicArtifact)
  | content (mediaType filename contentHash : String) (contentLength : ℕ) (body : Bytes)
  | evaluations (items : List String)
  | badCases (items : List String) (total : ℕ)
  deriving DecidableEq

/-- `ORDER BY column DESC`. -/
def latestFirst {ρ : Type} (column : ρ → ℕ) (rows : List ρ) : List ρ :=
  rows.insertionSort fun a b => column b ≤ column a

/-- The limit of the listings of jobs and artifacts. -/
def bounded (limit : ℤ) : ℕ := (max 1 (min limit 200)).toNat

/-- `list_jobs` of the store. -/
def storedJobs (s : Store) (workspaceId projectId : String) (limit : ℕ) : List JobRecord :=
  (latestFirst JobRecord.createdAt <| s.jobs.rows.filter fun j =>
    j.workspaceId = workspaceId ∧ j.projectId = some projectId).take limit

/-- `list_attempts`. -/
def storedAttempts (s : Store) (jobId : String) : List JobAttempt :=
  (s.attempts.rows.filter fun a => a.jobId = jobId).insertionSort fun a b =>
    a.attemptNumber ≤ b.attemptNumber

/-- `list_artifacts` of the store. -/
def storedArtifacts (w : World) (workspaceId projectId : String) (limit : ℤ) :
    List ArtifactRecord :=
  (latestFirst ArtifactRecord.createdAt <| w.records.rows.filter fun r =>
    r.workspaceId = workspaceId ∧ r.projectId = projectId).take (bounded limit)

namespace EvaluationTables

/-- `list_runs`. -/
def listRuns (e : EvaluationTables) (limit offset : ℕ) : List String :=
  (((latestFirst EvaluationRow.listedBy e.runs.rows).drop offset).take limit).map
    EvaluationRow.json

/-- `list_datasets`. -/
def listDatasets (e : EvaluationTables) : List String :=
  (latestFirst EvaluationRow.listedBy e.datasets.rows).map EvaluationRow.json

/-- `list_baseline_bindings`. -/
def listBaselineBindings (e : EvaluationTables) : List String :=
  (latestFirst EvaluationRow.listedBy e.baselineBindings.rows).map EvaluationRow.json

/-- `list_comparisons`. -/
def listComparisons (e : EvaluationTables) (limit : ℕ) : List String :=
  ((latestFirst EvaluationRow.listedBy e.comparisons.rows).take limit).map EvaluationRow.json

/-- `list_bad_cases`; an empty status is as none. -/
def listBadCases (e : EvaluationTables) (status : Option String) : List String :=
  (latestFirst (fun r => r.listedBy) <| e.badCases.rows.filter fun r =>
    ∀ text ∈ status, text ≠ "" → r.status = text).map fun r => r.json

end EvaluationTables

section Config

variable (cfg : ReadConfig)

namespace ReadCall

variable (call : ReadCall)

/-- The check of a permission whose denial is answered as something that is missing. -/
def authorize (permission : Permission) (errorCode : String) (s : ReadState) :
    Except ApiError Unit := do
  let context ← s.directory.accessContext call.userId call.workspaceId (some call.projectId)
    call.now
  match require context permission with
  | .ok _ => .ok ()
  | .error _ => .error (.http 404 errorCode)

/-- `_require_workspace_owner`. -/
def requireWorkspaceOwner (s : ReadState) : Except ApiError Unit := do
  let context ← s.directory.accessContext call.userId call.workspaceId (some call.projectId)
    call.now
  ensure (context.workspaceRole = .owner) (.http 404 "resource_not_found")

/-- `_evaluation_store`. -/
def evaluationStore (s : ReadState) : Except ApiError EvaluationTables := do
  ensure (cfg.evaluationApiEnabled = true) (.http 503 "evaluation_api_disabled")
  ensure (cfg.evaluationEnabled = true) (.http 503 "evaluation_disabled")
  return s.evaluation

def readableJob (jobId : String) (s : ReadState) : Except ApiError JobRecord := do
  call.authorize .resultRead "job_not_found" s
  let job ← orError (.http 404 "job_not_found") (s.jobs.jobs.find? jobId)
  ensure (job.workspaceId = call.workspaceId ∧ job.projectId = some call.projectId)
    (.http 404 "job_not_found")
  return job

/-- `_scoped_readable_artifact`. -/
def scopedReadableArtifact (artifactId : String) (s : ReadState) :
    Except ApiError ArtifactRecord := do
  call.authorize .artifactRead "artifact_not_found" s
  let artifact ← orError (.http 404 "artifact_not_found") (s.artifacts.records.find? artifactId)
  ensure (artifact.workspaceId = call.workspaceId ∧ artifact.projectId = call.projectId)
    (.http 404 "artifact_not_found")
  return artifact

/-- `list_jobs`. -/
def listJobs (limit : ℤ) (s : ReadState) : Except ApiError Response := do
  call.authorize .resultRead "resource_not_found" s
  return .jobs (storedJobs s.jobs call.workspaceId call.projectId (bounded limit))

/-- `get_job`. -/
def getJob (jobId : String) (s : ReadState) : Except ApiError Response := do
  let job ← call.readableJob jobId s
  return .job job

/-- `list_job_attempts`. -/
def listJobAttempts (jobId : String) (s : ReadState) : Except ApiError Response := do
  let _ ← call.readableJob jobId s
  return .attempts (storedAttempts s.jobs jobId)

/-- `list_artifacts`. -/
def listArtifacts (limit : ℤ) (s : ReadState) : Except ApiError Response := do
  call.authorize .artifactRead "resource_not_found" s
  return .artifacts
    ((storedArtifacts s.artifacts call.workspaceId call.projectId limit).map publicArtifact)

/-- `get_artifact`. -/
def getArtifact (artifactId : String) (s : ReadState) : Except ApiError Response := do
  let artifact ← call.scopedReadableArtifact artifactId s
  return .artifact (publicArtifact artifact)

/-- `download_artifact`. The blob that is missing is an error that is not caught. -/
def downloadArtifact (artifactId : String) (s : ReadState) : Except ApiError Response := do
  let artifact ← call.scopedReadableArtifact artifactId s
  ensure (artifact.status = .available) (.http 409 "artifact_not_available")
  match cfg.store.resolve artifact.storageKey with
  | .error _ => .error (.http 404 "artifact_not_found")
  | .ok path =>
    let body ← orError .other (s.artifacts.files path)
    return .content artifact.mediaType artifact.artifactId artifact.contentHash
      artifact.sizeBytes body

def readEvaluation (read : EvaluationTables → Response) (s : ReadState) :
    Except ApiError Response := do
  call.requireWorkspaceOwner s
  let store ← evaluationStore cfg s
  return read store

/-- `list_evaluation_runs_v2`. -/
def listEvaluationRuns (limit : PageLimit) (offset : ℕ) : ReadState → Except ApiError Response :=
  call.readEvaluation cfg fun e => .evaluations (e.listRuns limit offset)

/-- `list_evaluation_datasets_v2`. -/
def listEvaluationDatasets : ReadState → Except ApiError Response :=
  call.readEvaluation cfg fun e => .evaluations e.listDatasets

/-- `list_evaluation_baselines_v2`. -/
def listEvaluationBaselines : ReadState → Except ApiError Response :=
  call.readEvaluation cfg fun e => .evaluations e.listBaselineBindings

/-- `list_evaluation_comparisons_v2`. -/
def listEvaluationComparisons (limit : PageLimit) : ReadState → Except ApiError Response :=
  call.readEvaluation cfg fun e => .evaluations (e.listComparisons limit)

/-- `list_evaluation_bad_cases_v2`. -/
def listEvaluationBadCases (status : Option String) (limit : PageLimit) (offset : ℕ) :
    ReadState → Except ApiError Response :=
  call.readEvaluation cfg fun e => .badCases (((e.listBadCases status).drop offset).take limit)
    (e.listBadCases status).length

def respond : ReadState → Except ApiError Response :=
  match call.endpoint with
  | .listJobs limit => call.listJobs limit
  | .getJob jobId => call.getJob jobId
  | .listJobAttempts jobId => call.listJobAttempts jobId
  | .listArtifacts limit => call.listArtifacts limit
  | .getArtifact artifactId => call.getArtifact artifactId
  | .downloadArtifact artifactId => call.downloadArtifact cfg artifactId
  | .listEvaluationRuns limit offset => call.listEvaluationRuns cfg limit offset
  | .listEvaluationDatasets => call.listEvaluationDatasets cfg
  | .listEvaluationBaselines => call.listEvaluationBaselines cfg
  | .listEvaluationComparisons limit => call.listEvaluationComparisons cfg limit
  | .listEvaluationBadCases status limit offset =>
    call.listEvaluationBadCases cfg status limit offset

end ReadCall

end Config

end CodeResearch.Api
