import CodeResearch.Api.Directory
import CodeResearch.Artifacts.Publish
import CodeResearch.ControlPlane.Operations

/-!
# Submitting jobs and uploading artifacts

The endpoints check the caller's access to the project of their path, and store what
they accept under the names of the path. The other endpoints that write create
workspaces and projects, or act on jobs that are stored, as the workers do.
-/
namespace CodeResearch.Api

open Artifacts (ArtifactKind ArtifactRecord World StoreConfig UploadRequest Env Site)
open ControlPlane (Timestamp JobType JobIds CreatedJob StoreError Store createJob replayJob commit
  requestCancel createManualRetry)

/-- The value of an artifact id in a payload; a missing one may be `null`. -/
inductive PayloadId
  | missing | text (artifactId : String) | other
  deriving DecidableEq

structure JobCreateRequest where
  /-- `none` is a text that names no job type -/
  jobType : Option JobType
  repositoryArtifactId : PayloadId
  paperArtifactId : PayloadId
  /-- the rest of the payload -/
  payload : String
  idempotencyKey : String
  deriving DecidableEq

structure ArtifactExecutionRef where
  artifactId : String
  expectedContentHash : String
  expectedKind : ArtifactKind
  deriving DecidableEq

structure ApiConfig where
  stableHash : String → String
  store : StoreConfig
  /-- the payload with its references, as the text that is stored -/
  payloadText : JobCreateRequest → Option ArtifactExecutionRef → Option ArtifactExecutionRef →
    String
  queueName : JobType → String

structure ApiState where
  directory : Directory
  jobs : Store
  artifacts : World

/-- A call of `submit_job`, with the identifiers and the time it draws. -/
structure SubmitCall where
  userId : String
  workspaceId : String
  projectId : String
  body : JobCreateRequest
  /-- whether the backend accepts jobs -/
  accepting : Bool
  ids : JobIds
  now : Timestamp

/-- A call of `upload_artifact`. -/
structure UploadCall where
  userId : String
  req : UploadRequest
  env : Env Site
  now : Timestamp

namespace Directory

def authorize (d : Directory) (userId workspaceId projectId : String) (permission : Permission)
    (now : Timestamp) : Except ApiError Unit := do
  let context ← d.accessContext userId workspaceId (some projectId) now
  match require context permission with
  | .ok _ => .ok ()
  | .error _ => .error (.http 403 "access_denied")

def AdmittedAbove (d : Directory) (userId workspaceId projectId : String)
    (permission : Permission) (now : Timestamp) : Prop :=
  ∃ context, d.accessContext userId workspaceId (some projectId) now = .ok context ∧
    context.GrantedAbove permission

end Directory

def projectArtifact (w : World) (workspaceId projectId artifactId : String)
    (kind : ArtifactKind) : Except ApiError ArtifactExecutionRef := do
  let r ← orError (.http 404 "artifact_not_found") (w.records.find? artifactId)
  ensure (r.workspaceId = workspaceId ∧ r.projectId = projectId ∧ r.status = .available ∧
    r.kind = kind) (.http 409 "artifact_not_available")
  return ⟨r.artifactId, r.contentHash, r.kind⟩

def references (w : World) (workspaceId projectId : String) (body : JobCreateRequest) :
    Except ApiError (Option ArtifactExecutionRef × Option ArtifactExecutionRef) :=
  if body.jobType ∈ [some JobType.analysis, some .indexing] then do
    let repository ← match body.repositoryArtifactId with
      | .text artifactId => projectArtifact w workspaceId projectId artifactId .repositoryZip
      | .missing | .other => .error (.http 400 "repository_artifact_required")
    let paper ← match body.paperArtifactId with
      | .text artifactId =>
        (projectArtifact w workspaceId projectId artifactId .paperPdf).map some
      | .missing => .ok none
      | .other => .error (.http 400 "paper_artifact_invalid")
    return (some repository, paper)
  else .ok (none, none)

/-- What `submit_job` makes of an error of the store. -/
def ofStoreError : StoreError → ApiError
  | .controlPlane code => .http 400 code
  | .validation => .http 400 "invalid_job_request"
  | .integrity | .missingRow => .other

section Config

variable (cfg : ApiConfig)

/-- The arguments of `create_job`. -/
def SubmitCall.submission (call : SubmitCall) (jobType : JobType) (requestJson : String) :
    ControlPlane.JobSubmission where
  workspaceId := call.workspaceId
  projectId := some call.projectId
  jobType := jobType
  queueName := cfg.queueName jobType
  requestJson := requestJson
  idempotencyKey := call.body.idempotencyKey
  actorIdHash := call.userId
  domainRunId := none
  retryOfJobId := none
  maxAttempts := 3
  taskSchemaVersion := 2

/-- `runtime.jobs.submit`. A job type that is none is met by the record of a new job. -/
def SubmitCall.create (call : SubmitCall) (requestJson : String) (s : Store) :
    Except StoreError CreatedJob × Store :=
  if call.accepting = false then (.error (.controlPlane "job_backend_shutting_down"), s)
  else match call.body.jobType with
    | some jobType =>
      createJob cfg.stableHash (call.submission cfg jobType requestJson) call.ids call.now s
    | none => commit s <|
      match s.findIdempotent call.workspaceId (cfg.stableHash call.body.idempotencyKey) with
      | some job => replayJob job (cfg.stableHash requestJson) s
      | none => .error .validation

/-- The checks of `submit_job`, with the references of the payload. -/
def SubmitCall.check (call : SubmitCall) (s : ApiState) :
    Except ApiError (Option ArtifactExecutionRef × Option ArtifactExecutionRef) := do
  s.directory.authorize call.userId call.workspaceId call.projectId
    (permissionForJobType call.body.jobType) call.now
  ensure (call.body.jobType ≠ some .backup) (.http 409 "local_full_backup_unavailable")
  ensure (call.body.jobType ≠ some .restore) (.http 409 "local_live_restore_unsupported")
  references s.artifacts call.workspaceId call.projectId call.body

namespace ApiState

/-- `submit_job`. -/
def submitJob (call : SubmitCall) (s : ApiState) : Except ApiError CreatedJob × ApiState :=
  match call.check s with
  | .error e => (.error e, s)
  | .ok (repository, paper) =>
    match call.create cfg (cfg.payloadText call.body repository paper) s.jobs with
    | (.ok created, jobs) => (.ok created, { s with jobs })
    | (.error e, jobs) => (.error (ofStoreError e), { s with jobs })

/-- `upload_artifact`, with `uploadArtifact` for what follows the check. -/
def uploadArtifact (call : UploadCall) (s : ApiState) : ApiState :=
  match s.directory.authorize call.userId call.req.workspaceId call.req.projectId
    .artifactCreate call.now with
  | .error _ => s
  | .ok _ => { s with
      artifacts := ((Artifacts.uploadArtifact cfg.store call.env call.req).runOn s.artifacts).2 }

/-- The job of a path that cancels or retries it, if the caller may do so. -/
def scopedJob (userId workspaceId projectId jobId : String) (permission : Permission)
    (now : Timestamp) (s : ApiState) : Option ControlPlane.JobRecord :=
  match s.directory.authorize userId workspaceId projectId permission now with
  | .error _ => none
  | .ok _ => (s.jobs.jobs.find? jobId).filter fun job =>
      job.workspaceId = workspaceId ∧ job.projectId = some projectId

/-- `cancel_job`. -/
def cancelJob (userId workspaceId projectId jobId : String) (now : Timestamp) (s : ApiState) :
    ApiState :=
  match s.scopedJob userId workspaceId projectId jobId .jobCancel now with
  | none => s
  | some job =>
    if job.status.Terminal then s else { s with jobs := (requestCancel jobId now s.jobs).2 }

/-- `retry_job`. -/
def retryJob (userId workspaceId projectId jobId manualHex : String) (ids : JobIds)
    (now : Timestamp) (s : ApiState) : ApiState :=
  match s.scopedJob userId workspaceId projectId jobId .jobRetry now with
  | none => s
  | some _ =>
    { s with jobs := (createManualRetry cfg.stableHash jobId manualHex ids now s.jobs).2 }

def Worked (s : ApiState) (jobs : Store) : Prop :=
  ∀ j ∈ jobs.jobs.rows, ∃ old ∈ s.jobs.jobs.rows, old.jobId = j.jobId ∧
    old.workspaceId = j.workspaceId ∧ old.projectId = j.projectId

instance (s : ApiState) (jobs : Store) : Decidable (s.Worked jobs) :=
  inferInstanceAs (Decidable (∀ j ∈ jobs.jobs.rows, _))

/-- An operation on the directory, which keeps it if it raises. -/
def onDirectory (s : ApiState) (f : Directory → Except ApiError Directory) : ApiState :=
  match f s.directory with
  | .ok directory => { s with directory }
  | .error _ => s

/-- `create_project`, whose caller has to manage projects. -/
def createProject (userId workspaceId name hex : String) (now : Timestamp) (d : Directory) :
    Except ApiError Directory := do
  let context ← d.accessContext userId workspaceId none now
  require context .projectManage
  d.createProject ("project_" ++ hex) workspaceId name userId

inductive Label
  | createWorkspace (userId name hex : String)
  | createProject (userId workspaceId name hex : String) (now : Timestamp)
  | createLocalSession (userId workspaceHex projectHex : String)
  | submitJob (call : SubmitCall)
  | uploadArtifact (call : UploadCall)
  | cancelJob (userId workspaceId projectId jobId : String) (now : Timestamp)
  | retryJob (userId workspaceId projectId jobId manualHex : String) (ids : JobIds)
      (now : Timestamp)
  /-- the workers move jobs on, without new ones -/
  | work (jobs : Store)

def step (s : ApiState) : Label → Option ApiState
  | .createWorkspace userId name hex =>
    some (s.onDirectory (Directory.createWorkspace ("ws_" ++ hex) name userId))
  | .createProject userId workspaceId name hex now =>
    some (s.onDirectory (createProject userId workspaceId name hex now))
  | .createLocalSession userId workspaceHex projectHex =>
    some { s with
      directory := s.directory.ensureLocalDefaultScope userId workspaceHex projectHex }
  | .submitJob call => some (s.submitJob cfg call).2
  | .uploadArtifact call => some (s.uploadArtifact cfg call)
  | .cancelJob userId workspaceId projectId jobId now =>
    some (s.cancelJob userId workspaceId projectId jobId now)
  | .retryJob userId workspaceId projectId jobId manualHex ids now =>
    some (s.retryJob cfg userId workspaceId projectId jobId manualHex ids now)
  | .work jobs => if s.Worked jobs then some { s with jobs } else none

def machine : Machine ApiState Label := ⟨step cfg⟩

/-- No workspace, job or artifact yet. -/
def init (grants : List ProjectAccessGrant) : ApiState :=
  ⟨.ofGrants grants, .empty, ⟨.empty, fun _ => none⟩⟩

end ApiState

end Config

end CodeResearch.Api
