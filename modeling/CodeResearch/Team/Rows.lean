import CodeResearch.ControlPlane.Rows

/-!
# Rows of the Team schema

`create_job` inserts one row into each of `jobs`, `job_requests`, `job_attempts` and
`outbox_events`, and no other statement inserts into them or deletes from them. The four
rows of a job reference one another and are kept together here. The functions of the
scheduler write columns alone, the Python transactions write columns and the JSON records.
-/
namespace CodeResearch.Team

open ControlPlane

/-- The `payload` of an outbox event, which the dispatcher sends as a message. -/
structure Envelope where
  jobId : String
  attemptId : String
  attemptNumber : ℕ
  jobType : JobType
  requestHash : String
  taskSchemaVersion : ℕ
  deriving DecidableEq

/-- A row of `jobs`. -/
structure JobRow where
  jobId : String
  workspaceId : String
  projectId : Option String
  jobType : JobType
  domainRunId : String
  queueName : String
  status : JobStatus
  taskSchemaVersion : ℕ
  idempotencyKeyHash : String
  requestHash : String
  currentAttemptNumber : ℕ
  executionTokenHash : Option String
  workerIdHash : Option String
  jobJson : JobRecord
  createdAt : Timestamp
  updatedAt : Timestamp
  deriving DecidableEq

/-- A row of `job_attempts`. -/
structure AttemptRow where
  attemptId : String
  workspaceId : String
  projectId : Option String
  attemptNumber : ℕ
  status : AttemptStatus
  executionTokenHash : String
  workerIdHash : Option String
  taskSchemaVersion : ℕ
  attemptJson : JobAttempt
  deriving DecidableEq

/-- A row of `outbox_events`. -/
structure OutboxRow where
  outboxEventId : String
  status : OutboxStatus
  taskSchemaVersion : ℕ
  messageDeduplicationKey : String
  claimTokenHash : Option String
  leaseOwnerHash : Option String
  leaseUntil : Option Timestamp
  publishAttempt : ℕ
  publishedMessageId : Option String
  nextRetryAt : Option Timestamp
  payload : Envelope
  updatedAt : Timestamp
  deriving DecidableEq

/-- A row of `worker_registry`. -/
structure WorkerRow where
  workerIdHash : String
  minTaskSchemaVersion : ℕ
  maxTaskSchemaVersion : ℕ
  queueNames : List String
  heartbeatAt : Timestamp
  deriving DecidableEq

/-- The rows that belong to one job. -/
structure JobRows where
  job : JobRow
  request : JobRequestRow
  attempt : AttemptRow
  event : OutboxRow
  deriving DecidableEq

def JobRows.jobId (r : JobRows) : String := r.job.jobId

structure Database where
  jobs : Table JobRows.jobId
  workers : Table WorkerRow.workerIdHash

def Database.empty : Database := ⟨.empty, .empty⟩

def Database.update (db : Database) (r : JobRows) : Database :=
  { db with jobs := db.jobs.replace r }

@[simp] theorem Database.update_jobs (db : Database) (r : JobRows) :
    (db.update r).jobs = db.jobs.replace r := rfl

/-- `UPDATE jobs SET status, job_json, updated_at`. -/
def JobRow.write (job : JobRecord) (now : Timestamp) (row : JobRow) : JobRow :=
  { row with status := job.status, jobJson := job, updatedAt := now }

/-- `UPDATE job_attempts SET status, attempt_json`. -/
def AttemptRow.write (attempt : JobAttempt) (row : AttemptRow) : AttemptRow :=
  { row with status := attempt.status, attemptJson := attempt }

/-- The update of `jobs` in `claim_next_job`. -/
def JobRow.claim (workerIdHash executionTokenHash : String) (now : Timestamp) (row : JobRow) :
    JobRow :=
  { row with
    status := .running
    workerIdHash := some workerIdHash
    executionTokenHash := some executionTokenHash
    updatedAt := now }

/-- The update of `job_attempts` in `claim_next_job`. -/
def AttemptRow.claim (workerIdHash executionTokenHash : String) (row : AttemptRow) : AttemptRow :=
  { row with
    status := .claimed
    workerIdHash := some workerIdHash
    executionTokenHash := executionTokenHash }

/-- The update of `outbox_events` in `claim_outbox_batch`. -/
def OutboxRow.claim (claimTokenHash leaseOwnerHash : String) (now : Timestamp)
    (row : OutboxRow) : OutboxRow :=
  { row with
    status := .publishing
    claimTokenHash := some claimTokenHash
    leaseOwnerHash := some leaseOwnerHash
    leaseUntil := some (now + 30000000)
    publishAttempt := row.publishAttempt + 1
    updatedAt := now }

/-- The update of `outbox_events` in `acknowledge_outbox_publish`. -/
def OutboxRow.publish (messageId : String) (now : Timestamp) (row : OutboxRow) : OutboxRow :=
  { row with
    status := .published
    claimTokenHash := none
    leaseOwnerHash := none
    leaseUntil := none
    publishedMessageId := some messageId
    updatedAt := now }

/-- The update of `jobs` in `acknowledge_outbox_publish`. -/
def JobRow.dispatch (now : Timestamp) (row : JobRow) : JobRow :=
  if row.status ∈ [JobStatus.queued, .dispatching] then
    { row with status := .dispatched, updatedAt := now }
  else row

/-- The update of `job_attempts` in `acknowledge_outbox_publish`. -/
def AttemptRow.dispatch (row : AttemptRow) : AttemptRow :=
  if row.status = .created then { row with status := .dispatched } else row

/-- The rows of a job after `request_cancel` has written its record. -/
def JobRows.writeJob (r : JobRows) (job : JobRecord) (now : Timestamp) : JobRows :=
  { r with job := r.job.write job now }

theorem JobRows.writeJob_jobId (r : JobRows) (job : JobRecord) (now : Timestamp) :
    (r.writeJob job now).jobId = r.jobId := rfl

/-- The copy of the job that `execute_claimed_job` writes. -/
def runningJob (job : JobRecord) (now : Timestamp) : JobRecord :=
  { job with
    status := .running
    startedAt := some (job.startedAt.getD now)
    updatedAt := now
    revision := job.revision + 1 }

/-- The copy of the attempt that `execute_claimed_job` writes. -/
def runningAttempt (attempt : JobAttempt) (workerIdHash : String) (celeryTaskId : Option String)
    (now : Timestamp) : JobAttempt :=
  { attempt with
    status := .running
    workerIdHash := some workerIdHash
    celeryTaskId := celeryTaskId
    startedAt := some (attempt.startedAt.getD now)
    heartbeatAt := some now
    updatedAt := now }

/-- The copy of the job that `_finalize` writes. -/
def finishedJob (job : JobRecord) (terminalJob : JobStatus) (errorCode : Option String)
    (resultRefs : List String) (now : Timestamp) : JobRecord :=
  { job with
    status := terminalJob
    finishedAt := some now
    updatedAt := now
    errorCode := errorCode
    resultArtifactRefIds := resultRefs
    revision := job.revision + 1 }

/-- The copy of the attempt that `_finalize` writes. -/
def finishedAttempt (attempt : JobAttempt) (terminalAttempt : AttemptStatus)
    (errorCode : Option String) (now : Timestamp) : JobAttempt :=
  { attempt with
    status := terminalAttempt
    finishedAt := some now
    updatedAt := now
    errorCode := errorCode
    retryable := false }

end CodeResearch.Team
