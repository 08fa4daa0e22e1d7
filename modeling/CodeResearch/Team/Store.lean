import CodeResearch.Team.Rows

/-!
# `PostgresControlPlaneStore`

Each method is one transaction. Constructing a record and reading one from its JSON
validate it; the unique constraints refuse an insertion. Uniqueness violations are not
mapped to an error of the control plane.
-/
namespace CodeResearch.Team

open ControlPlane

/-- Two jobs whose rows the primary keys, the index `jobs_workspace_idempotency` or the
unique deduplication key do not admit together. -/
def JobRows.Clashes (r x : JobRows) : Prop :=
  (x.job.workspaceId = r.job.workspaceId ∧ x.job.idempotencyKeyHash = r.job.idempotencyKeyHash) ∨
    x.attempt.attemptId = r.attempt.attemptId ∨
    x.event.outboxEventId = r.event.outboxEventId ∨
    x.event.messageDeduplicationKey = r.event.messageDeduplicationKey

instance (r x : JobRows) : Decidable (r.Clashes x) :=
  inferInstanceAs (Decidable (_ ∨ _ ∨ _ ∨ _))

/-- The four insertions of `create_job`. -/
def Database.insert (db : Database) (r : JobRows) : Except StoreError Database :=
  if db.jobs.rows.any fun x => r.Clashes x then .error .integrity
  else (orError .integrity (db.jobs.insert r)).map fun t => { db with jobs := t }

/-- `SELECT job_json FROM jobs WHERE workspace_id=%s AND idempotency_key_hash=%s`. -/
def Database.findIdempotent (db : Database) (workspaceId idempotencyHash : String) :
    Option JobRows :=
  db.jobs.rows.find? fun r =>
    r.job.workspaceId = workspaceId ∧ r.job.idempotencyKeyHash = idempotencyHash

/-- The event that `create_job` builds from an `outbox_events` row. -/
def storedEvent (job : JobRecord) (attempt : JobAttempt) (row : OutboxRow) : OutboxEvent where
  outboxEventId := row.outboxEventId
  jobId := job.jobId
  attemptId := attempt.attemptId
  attemptNumber := attempt.attemptNumber
  taskSchemaVersion := job.taskSchemaVersion
  requestHash := job.requestHash
  messageDeduplicationKey := row.messageDeduplicationKey
  status := row.status
  claimTokenHash := none
  leaseOwnerHash := none
  leaseUntil := none
  publishAttempt := 0
  lastPublishErrorCode := none
  publishedMessageId := none
  nextRetryAt := none
  createdAt := job.createdAt
  updatedAt := row.updatedAt

/-- The branch of `create_job` that answers with the stored job. -/
def replayJob (r : JobRows) (requestJson requestHash : String) (db : Database) :
    Except StoreError CreatedJob := do
  let job ← load JobRecord.Accepted r.job.jobJson
  ensure (job.requestHash = requestHash) (.controlPlane "idempotency_key_conflict")
  ensure (r.attempt.attemptNumber = job.currentAttemptNumber) .missingRow
  let found ← orError .missingRow <|
    db.jobs.rows.find? fun x => x.attempt.attemptId = r.attempt.attemptJson.attemptId
  let attempt ← load JobAttempt.Accepted r.attempt.attemptJson
  let event ← load OutboxEvent.Accepted (storedEvent job attempt found.event)
  return ⟨job, attempt, event, "", requestJson⟩

/-- The payload that `create_job` builds. -/
def newPayload (job : JobRecord) (attempt : JobAttempt) : Envelope where
  jobId := job.jobId
  attemptId := attempt.attemptId
  attemptNumber := attempt.attemptNumber
  jobType := job.jobType
  requestHash := job.requestHash
  taskSchemaVersion := job.taskSchemaVersion

/-- The rows that `create_job` inserts. -/
def newRows (job : JobRecord) (attempt : JobAttempt) (event : OutboxEvent) (requestJson : String)
    (now : Timestamp) : JobRows where
  job :=
    { jobId := job.jobId
      workspaceId := job.workspaceId
      projectId := job.projectId
      jobType := job.jobType
      domainRunId := job.domainRunId.getD ""
      queueName := job.queueName
      status := job.status
      taskSchemaVersion := job.taskSchemaVersion
      idempotencyKeyHash := job.idempotencyKeyHash
      requestHash := job.requestHash
      currentAttemptNumber := 1
      executionTokenHash := none
      workerIdHash := none
      jobJson := job
      createdAt := now
      updatedAt := now }
  request := newRequest job requestJson now
  attempt :=
    { attemptId := attempt.attemptId
      workspaceId := job.workspaceId
      projectId := job.projectId
      attemptNumber := 1
      status := attempt.status
      executionTokenHash := attempt.executionTokenHash
      workerIdHash := none
      taskSchemaVersion := job.taskSchemaVersion
      attemptJson := attempt }
  event :=
    { outboxEventId := event.outboxEventId
      status := .pending
      taskSchemaVersion := job.taskSchemaVersion
      messageDeduplicationKey := event.messageDeduplicationKey
      claimTokenHash := none
      leaseOwnerHash := none
      leaseUntil := none
      publishAttempt := 0
      publishedMessageId := none
      nextRetryAt := none
      payload := newPayload job attempt
      updatedAt := now }

section Hashing

variable (stableHash : String → String)

/-- The branch of `create_job` that inserts. -/
def insertNewJob (sub : JobSubmission) (ids : JobIds) (now : Timestamp) (db : Database) :
    Except StoreError (CreatedJob × Database) := do
  let job ← load JobRecord.Accepted (newJob stableHash sub ids now)
  let attempt ← load JobAttempt.Accepted (newAttempt stableHash job.jobId 1 ids.toAttemptIds now)
  let event ← load OutboxEvent.Accepted (newOutbox stableHash job attempt ids.toAttemptIds now)
  let db ← db.insert (newRows job attempt event sub.requestJson now)
  return (⟨job, attempt, event, ids.token, sub.requestJson⟩, db)

def createJob (sub : JobSubmission) (ids : JobIds) (now : Timestamp) (db : Database) :
    Except StoreError CreatedJob × Database :=
  transact db <|
    match db.findIdempotent sub.workspaceId (stableHash sub.idempotencyKey) with
    | some r => (replayJob r sub.requestJson (stableHash sub.requestJson) db).map (·, db)
    | none => insertNewJob stableHash sub ids now db

def getJob (jobId : String) (db : Database) : Except StoreError JobRecord := do
  let r ← orError (.controlPlane "job_not_found") (db.jobs.find? jobId)
  load JobRecord.Accepted r.job.jobJson

/-- `JOB_TRANSITIONS` is not consulted, and the copy is not validated. -/
def requestCancel (jobId : String) (now : Timestamp) (db : Database) :
    Except StoreError JobRecord × Database :=
  transact db do
    let r ← orError (.controlPlane "job_not_found") (db.jobs.find? jobId)
    let job ← load JobRecord.Accepted r.job.jobJson
    if job.status.Terminal then return (job, db)
    else
      let updated := job.cancel now
      return (updated, db.update (r.writeJob updated now))

def createManualRetry (jobId manualHex : String) (ids : JobIds) (now : Timestamp)
    (db : Database) : Except StoreError CreatedJob × Database :=
  match getJob jobId db with
  | .error e => (.error e, db)
  | .ok job =>
    if ¬ job.status.Terminal then
      (.error (.controlPlane "manual_retry_requires_terminal_job"), db)
    else match db.jobs.find? jobId with
      | none => (.error (.controlPlane "job_request_not_found"), db)
      | some r => createJob stableHash
          { workspaceId := job.workspaceId
            projectId := job.projectId
            jobType := job.jobType
            queueName := job.queueName
            requestJson := r.request.requestJson
            idempotencyKey := s!"manual-retry:{jobId}:{manualHex}"
            actorIdHash := "system"
            domainRunId := none
            retryOfJobId := some jobId
            maxAttempts := job.maxAttempts
            taskSchemaVersion := job.taskSchemaVersion } ids now db

end Hashing

end CodeResearch.Team
