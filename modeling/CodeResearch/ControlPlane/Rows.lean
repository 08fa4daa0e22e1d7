import CodeResearch.Artifacts.Store
import CodeResearch.ControlPlane.Outbox

/-!
# Rows with columns and a JSON record

Every table of jobs, attempts, outbox events and artifacts keeps a record as JSON
next to the columns that queries select by. Each statement writes its own columns.
Reading a record validates it again; a copy of a record is written unvalidated.
-/
namespace CodeResearch.ControlPlane

open Artifacts (ArtifactRecord ArtifactStatus artifactTransitions)

/-- `^[0-9a-f]{64}$`. -/
def IsDigest (text : String) : Prop :=
  text.length = 64 ∧ ∀ c ∈ text.toList, c ∈ "0123456789abcdef".toList

instance (text : String) : Decidable (IsDigest text) :=
  @instDecidableAnd _ _ inferInstance (List.decidableBAll _ _)

/-- `^[a-zA-Z0-9/_\-.]+$`. -/
def IsStorageKey (text : String) : Prop :=
  text ≠ "" ∧ ∀ c ∈ text.toList, c.isAlphanum ∨ c ∈ ['/', '_', '-', '.']

instance (text : String) : Decidable (IsStorageKey text) :=
  @instDecidableAnd _ _ inferInstance (List.decidableBAll _ _)

structure JobRecord.Accepted (j : JobRecord) : Prop where
  valid : j.Valid
  idempotencyKeyHash : IsDigest j.idempotencyKeyHash
  requestHash : IsDigest j.requestHash

structure JobAttempt.Accepted (a : JobAttempt) : Prop where
  attemptNumber : 1 ≤ a.attemptNumber
  executionTokenHash : IsDigest a.executionTokenHash

structure OutboxEvent.Accepted (e : OutboxEvent) : Prop where
  attemptNumber : 1 ≤ e.attemptNumber
  taskSchemaVersion : 1 ≤ e.taskSchemaVersion
  requestHash : IsDigest e.requestHash
  messageDeduplicationKey : IsDigest e.messageDeduplicationKey

/-- The fields of an artifact record that its model constrains. -/
structure ArtifactAccepted (r : ArtifactRecord) : Prop where
  storageKey : IsStorageKey r.storageKey
  contentHash : IsDigest r.contentHash

theorem JobRecord.accepted_iff (j : JobRecord) :
    j.Accepted ↔ j.Valid ∧ IsDigest j.idempotencyKeyHash ∧ IsDigest j.requestHash :=
  ⟨fun ⟨a, b, c⟩ => ⟨a, b, c⟩, fun ⟨a, b, c⟩ => ⟨a, b, c⟩⟩

theorem JobAttempt.accepted_iff (a : JobAttempt) :
    a.Accepted ↔ 1 ≤ a.attemptNumber ∧ IsDigest a.executionTokenHash :=
  ⟨fun ⟨a, b⟩ => ⟨a, b⟩, fun ⟨a, b⟩ => ⟨a, b⟩⟩

theorem OutboxEvent.accepted_iff (e : OutboxEvent) :
    e.Accepted ↔ 1 ≤ e.attemptNumber ∧ 1 ≤ e.taskSchemaVersion ∧ IsDigest e.requestHash ∧
      IsDigest e.messageDeduplicationKey :=
  ⟨fun ⟨a, b, c, d⟩ => ⟨a, b, c, d⟩, fun ⟨a, b, c, d⟩ => ⟨a, b, c, d⟩⟩

theorem artifactAccepted_iff (r : ArtifactRecord) :
    ArtifactAccepted r ↔ IsStorageKey r.storageKey ∧ IsDigest r.contentHash :=
  ⟨fun ⟨a, b⟩ => ⟨a, b⟩, fun ⟨a, b⟩ => ⟨a, b⟩⟩

instance (j : JobRecord) : Decidable j.Accepted := decidable_of_iff' _ j.accepted_iff
instance (a : JobAttempt) : Decidable a.Accepted := decidable_of_iff' _ a.accepted_iff
instance (e : OutboxEvent) : Decidable e.Accepted := decidable_of_iff' _ e.accepted_iff
instance (r : ArtifactRecord) : Decidable (ArtifactAccepted r) :=
  decidable_of_iff' _ (artifactAccepted_iff r)

/-- `model_validate_json` of a stored record. -/
def load {ρ : Type} (Accepted : ρ → Prop) [DecidablePred Accepted] (json : ρ) :
    Except StoreError ρ :=
  if Accepted json then .ok json else .error .validation

structure JobRow where
  jobId : String
  workspaceId : String
  projectId : Option String
  jobType : JobType
  queueName : String
  status : JobStatus
  currentAttemptNumber : ℕ
  idempotencyKeyHash : String
  requestHash : String
  revision : ℕ
  jobJson : JobRecord
  createdAt : Timestamp
  updatedAt : Timestamp
  deriving DecidableEq

/-- `_insert_job`. -/
def JobRow.new (job : JobRecord) : JobRow where
  jobId := job.jobId
  workspaceId := job.workspaceId
  projectId := job.projectId
  jobType := job.jobType
  queueName := job.queueName
  status := job.status
  currentAttemptNumber := job.currentAttemptNumber
  idempotencyKeyHash := job.idempotencyKeyHash
  requestHash := job.requestHash
  revision := job.revision
  jobJson := job
  createdAt := job.createdAt
  updatedAt := job.updatedAt

/-- `_update_job`. -/
def JobRow.update (job : JobRecord) (row : JobRow) : JobRow :=
  { row with
    status := job.status
    currentAttemptNumber := job.currentAttemptNumber
    revision := job.revision
    jobJson := job
    updatedAt := job.updatedAt }

structure AttemptRow where
  attemptId : String
  jobId : String
  attemptNumber : ℕ
  status : AttemptStatus
  executionTokenHash : String
  attemptJson : JobAttempt
  createdAt : Timestamp
  updatedAt : Timestamp
  deriving DecidableEq

/-- `_insert_attempt`. -/
def AttemptRow.new (attempt : JobAttempt) : AttemptRow where
  attemptId := attempt.attemptId
  jobId := attempt.jobId
  attemptNumber := attempt.attemptNumber
  status := attempt.status
  executionTokenHash := attempt.executionTokenHash
  attemptJson := attempt
  createdAt := attempt.createdAt
  updatedAt := attempt.updatedAt

/-- `UPDATE job_attempts SET status=?,attempt_json=?,updated_at=?`. -/
def AttemptRow.update (status : AttemptStatus) (attempt : JobAttempt) (now : Timestamp)
    (row : AttemptRow) : AttemptRow :=
  { row with status := status, attemptJson := attempt, updatedAt := now }

/-- `UPDATE job_attempts SET attempt_json=?,updated_at=?`. -/
def AttemptRow.beat (attempt : JobAttempt) (now : Timestamp) (row : AttemptRow) : AttemptRow :=
  { row with attemptJson := attempt, updatedAt := now }

structure OutboxRow where
  outboxEventId : String
  jobId : String
  attemptId : String
  status : OutboxStatus
  messageDeduplicationKey : String
  claimTokenHash : Option String
  leaseOwnerHash : Option String
  leaseUntil : Option Timestamp
  publishAttempt : ℕ
  lastPublishErrorCode : Option String
  nextRetryAt : Option Timestamp
  outboxJson : OutboxEvent
  createdAt : Timestamp
  updatedAt : Timestamp
  deriving DecidableEq

/-- `_insert_outbox`. -/
def OutboxRow.new (event : OutboxEvent) : OutboxRow where
  outboxEventId := event.outboxEventId
  jobId := event.jobId
  attemptId := event.attemptId
  status := event.status
  messageDeduplicationKey := event.messageDeduplicationKey
  claimTokenHash := event.claimTokenHash
  leaseOwnerHash := event.leaseOwnerHash
  leaseUntil := event.leaseUntil
  publishAttempt := event.publishAttempt
  lastPublishErrorCode := event.lastPublishErrorCode
  nextRetryAt := event.nextRetryAt
  outboxJson := event
  createdAt := event.createdAt
  updatedAt := event.updatedAt

/-- The statement of `claim_outbox`. -/
def OutboxRow.claim (event : OutboxEvent) (leaseUntil now : Timestamp) (row : OutboxRow) :
    OutboxRow :=
  { row with
    status := .publishing
    claimTokenHash := event.claimTokenHash
    leaseOwnerHash := event.leaseOwnerHash
    leaseUntil := some leaseUntil
    publishAttempt := event.publishAttempt
    outboxJson := event
    updatedAt := now }

/-- The statement of `mark_outbox_published`. -/
def OutboxRow.publish (event : OutboxEvent) (now : Timestamp) (row : OutboxRow) : OutboxRow :=
  { row with
    status := .published
    claimTokenHash := none
    leaseOwnerHash := none
    leaseUntil := none
    outboxJson := event
    updatedAt := now }

/-- The statement of `mark_outbox_publish_failed`. -/
def OutboxRow.retryLater (event : OutboxEvent) (errorCode : String) (now : Timestamp)
    (row : OutboxRow) : OutboxRow :=
  { row with
    status := .pending
    claimTokenHash := none
    leaseOwnerHash := none
    leaseUntil := none
    lastPublishErrorCode := some errorCode
    nextRetryAt := event.nextRetryAt
    outboxJson := event
    updatedAt := now }

/-- The statement of `recover_incomplete_jobs` on an outbox event. -/
def OutboxRow.supersede (event : OutboxEvent) (now : Timestamp) (row : OutboxRow) : OutboxRow :=
  { row with
    status := .failed
    claimTokenHash := none
    leaseOwnerHash := none
    leaseUntil := none
    lastPublishErrorCode := some "attempt_superseded_on_restart"
    outboxJson := event
    updatedAt := now }

/-- The statement of `mark_outbox_consumed_local`. -/
def OutboxRow.consume (event : OutboxEvent) (now : Timestamp) (row : OutboxRow) : OutboxRow :=
  { row with status := .published, outboxJson := event, updatedAt := now }

structure ArtifactRow where
  artifactId : String
  workspaceId : String
  projectId : String
  status : ArtifactStatus
  storageKey : String
  contentHash : String
  artifactJson : ArtifactRecord
  deriving DecidableEq

/-- The `INSERT` of `save_artifact`. -/
def ArtifactRow.new (artifact : ArtifactRecord) : ArtifactRow where
  artifactId := artifact.artifactId
  workspaceId := artifact.workspaceId
  projectId := artifact.projectId
  status := artifact.status
  storageKey := artifact.storageKey
  contentHash := artifact.contentHash
  artifactJson := artifact

/-- The `UPDATE` of `save_artifact`; neither the workspace nor the project is written. -/
def ArtifactRow.update (artifact : ArtifactRecord) (row : ArtifactRow) : ArtifactRow :=
  { row with
    status := artifact.status
    storageKey := artifact.storageKey
    contentHash := artifact.contentHash
    artifactJson := artifact }

structure RowStore where
  jobs : Table JobRow.jobId
  requests : Table JobRequestRow.jobId
  attempts : Table AttemptRow.attemptId
  outbox : Table OutboxRow.outboxEventId
  domainRuns : Table DomainRunRow.domainRunId
  auditEvents : Table AuditEvent.auditEventId
  artifacts : Table ArtifactRow.artifactId

namespace RowStore

def empty : RowStore := ⟨.empty, .empty, .empty, .empty, .empty, .empty, .empty⟩

variable (r : RowStore)

/-- `SELECT job_json FROM jobs WHERE job_id=?`. -/
def readJob (jobId : String) (e : StoreError) : Except StoreError JobRecord := do
  let row ← orError e (r.jobs.find? jobId)
  load JobRecord.Accepted row.jobJson

/-- `SELECT attempt_json FROM job_attempts WHERE attempt_id=?`. -/
def readAttempt (attemptId : String) : Except StoreError JobAttempt := do
  let row ← orError (.controlPlane "attempt_not_found") (r.attempts.find? attemptId)
  load JobAttempt.Accepted row.attemptJson

/-- `SELECT outbox_json FROM outbox_events WHERE outbox_event_id=?`. -/
def readOutbox (eventId : String) : Except StoreError OutboxEvent := do
  let row ← orError (.controlPlane "outbox_not_found") (r.outbox.find? eventId)
  load OutboxEvent.Accepted row.outboxJson

/-- `_get_attempt_in`. -/
def getAttemptIn (jobId : String) (attemptNumber : ℕ) : Except StoreError JobAttempt := do
  let row ← orError .missingRow <| r.attempts.rows.find? fun a =>
    a.jobId = jobId ∧ a.attemptNumber = attemptNumber
  load JobAttempt.Accepted row.attemptJson

/-- `SELECT outbox_json FROM outbox_events WHERE attempt_id=?`. -/
def outboxForAttempt (attemptId : String) : Except StoreError (Option OutboxEvent) :=
  match r.outbox.rows.find? fun e => e.attemptId = attemptId with
  | some row => (load OutboxEvent.Accepted row.outboxJson).map some
  | none => .ok none

/-- `_get_job_request_in`. -/
def getJobRequestIn (jobId : String) : Except StoreError String :=
  (orError (.controlPlane "job_request_not_found") (r.requests.find? jobId)).map
    JobRequestRow.requestJson

def updateJob (j : JobRecord) : RowStore :=
  { r with
    jobs := r.jobs.updateWhere (fun row => row.jobId = j.jobId) (JobRow.update j) (fun _ => rfl) }

/-- The statement of an operation that moves the attempt to `status`. -/
def updateAttempt (status : AttemptStatus) (a : JobAttempt) (now : Timestamp) : RowStore :=
  { r with
    attempts := r.attempts.updateWhere (fun row => row.attemptId = a.attemptId)
      (AttemptRow.update status a now) (fun _ => rfl) }

/-- The statement of `heartbeat_attempt`. -/
def beatAttempt (a : JobAttempt) (now : Timestamp) : RowStore :=
  { r with
    attempts := r.attempts.updateWhere (fun row => row.attemptId = a.attemptId)
      (AttemptRow.beat a now) (fun _ => rfl) }

def updateOutbox (eventId : String) (w : OutboxRow → OutboxRow)
    (hw : ∀ row, (w row).outboxEventId = row.outboxEventId) : RowStore :=
  { r with outbox := r.outbox.updateWhere (fun row => row.outboxEventId = eventId) w hw }

def insertJob (j : JobRecord) : Except StoreError RowStore :=
  if r.jobs.rows.any fun row =>
      row.workspaceId = j.workspaceId ∧ row.idempotencyKeyHash = j.idempotencyKeyHash then
    .error .integrity
  else (orError .integrity (r.jobs.insert (.new j))).map fun t => { r with jobs := t }

def insertRequest (row : JobRequestRow) : Except StoreError RowStore :=
  (orError .integrity (r.requests.insert row)).map fun t => { r with requests := t }

def insertDomainRun (row : DomainRunRow) : Except StoreError RowStore :=
  (orError .integrity (r.domainRuns.insert row)).map fun t => { r with domainRuns := t }

def insertAuditEvent (row : AuditEvent) : Except StoreError RowStore :=
  (orError .integrity (r.auditEvents.insert row)).map fun t => { r with auditEvents := t }

def insertAttempt (a : JobAttempt) : Except StoreError RowStore :=
  if r.attempts.rows.any fun row => row.jobId = a.jobId ∧ row.attemptNumber = a.attemptNumber then
    .error .integrity
  else (orError .integrity (r.attempts.insert (.new a))).map fun t => { r with attempts := t }

def insertOutbox (e : OutboxEvent) : Except StoreError RowStore :=
  if r.outbox.rows.any fun row => row.messageDeduplicationKey = e.messageDeduplicationKey then
    .error .integrity
  else (orError .integrity (r.outbox.insert (.new e))).map fun t => { r with outbox := t }

end RowStore

end CodeResearch.ControlPlane
