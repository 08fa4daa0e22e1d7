import CodeResearch.Library.Result
import CodeResearch.Library.Table
import CodeResearch.ControlPlane.Schemas
import Mathlib.Data.List.Sort

/-!
# The Local control-plane store

Every operation is one `BEGIN IMMEDIATE` transaction over the tables: it either
commits or leaves the tables as they were. Record-level functions compute the
new row, the store functions look the rows up and write them back. The clock,
random identifiers and tokens are arguments; `stableHash` is any hash function.
The four `UNIQUE` and primary-key constraints of the schema refuse an insertion.
-/
namespace CodeResearch.ControlPlane

inductive StoreError
  /-- `ControlPlaneError(code)` -/
  | controlPlane (code : String)
  /-- `sqlite3.IntegrityError` -/
  | integrity
  /-- `pydantic.ValidationError` -/
  | validation
  /-- subscripting the `None` of an empty `fetchone` -/
  | missingRow
  deriving DecidableEq

structure DomainRunRow where
  domainRunId : String
  workspaceId : String
  projectId : Option String
  jobType : JobType
  requestHash : String
  createdAt : Timestamp
  deriving DecidableEq

structure AuditEvent where
  auditEventId : String
  workspaceId : String
  projectId : Option String
  actorIdHash : String
  action : String
  objectType : String
  objectId : String
  outcome : String
  reasonCode : String
  occurredAt : Timestamp
  deriving DecidableEq

/-- The job tables of `LocalControlPlaneStore`. -/
structure Store where
  jobs : Table JobRecord.jobId
  requests : Table JobRequestRow.jobId
  attempts : Table JobAttempt.attemptId
  outbox : Table OutboxEvent.outboxEventId
  domainRuns : Table DomainRunRow.domainRunId
  auditEvents : Table AuditEvent.auditEventId

def Store.empty : Store := ⟨.empty, .empty, .empty, .empty, .empty, .empty⟩

structure CreatedJob where
  job : JobRecord
  attempt : JobAttempt
  outbox : OutboxEvent
  executionToken : String
  request : String
  deriving DecidableEq

/-- The hexadecimal suffixes and the token drawn for a new attempt. -/
structure AttemptIds where
  attemptHex : String
  outboxHex : String
  token : String
  deriving DecidableEq

structure JobIds extends AttemptIds where
  jobHex : String
  runHex : String
  auditHex : String
  deriving DecidableEq

/-- The arguments of `create_job` that reach its tables. -/
structure JobSubmission where
  workspaceId : String
  projectId : Option String
  jobType : JobType
  queueName : String
  requestJson : String
  idempotencyKey : String
  actorIdHash : String
  domainRunId : Option String
  retryOfJobId : Option String
  maxAttempts : ℕ
  taskSchemaVersion : ℕ
  deriving DecidableEq

/-- A transaction's result is committed, or the tables it started from are kept. -/
def commit {α : Type} (s : Store) : Except StoreError (α × Store) → Except StoreError α × Store
  | .ok (a, t) => (.ok a, t)
  | .error e => (.error e, s)

@[simp] theorem commit_ok {α : Type} (s t : Store) (a : α) : commit s (.ok (a, t)) = (.ok a, t) :=
  rfl

@[simp] theorem commit_error {α : Type} (s : Store) (e : StoreError) :
    (commit s (.error e) : Except StoreError α × Store) = (.error e, s) := rfl

/-- `JobRecord.model_validate`. -/
def JobRecord.validate (j : JobRecord) : Except StoreError JobRecord :=
  if j.Valid then .ok j else .error .validation

def Store.updateJob (s : Store) (j : JobRecord) : Store := { s with jobs := s.jobs.replace j }

def Store.updateAttempt (s : Store) (a : JobAttempt) : Store :=
  { s with attempts := s.attempts.replace a }

def Store.updateOutbox (s : Store) (e : OutboxEvent) : Store :=
  { s with outbox := s.outbox.replace e }

section Updates

variable (s : Store) (j : JobRecord) (a : JobAttempt) (e : OutboxEvent)

@[simp] theorem Store.updateJob_jobs : (s.updateJob j).jobs = s.jobs.replace j := rfl
@[simp] theorem Store.updateAttempt_jobs : (s.updateAttempt a).jobs = s.jobs := rfl
@[simp] theorem Store.updateAttempt_attempts :
    (s.updateAttempt a).attempts = s.attempts.replace a := rfl
@[simp] theorem Store.updateOutbox_outbox : (s.updateOutbox e).outbox = s.outbox.replace e := rfl

end Updates

/-- `jobs` has a primary key and `UNIQUE(workspace_id, idempotency_key_hash)`. -/
def Store.insertJob (s : Store) (j : JobRecord) : Except StoreError Store :=
  if s.jobs.rows.any fun r =>
      r.workspaceId = j.workspaceId ∧ r.idempotencyKeyHash = j.idempotencyKeyHash then
    .error .integrity
  else (orError .integrity (s.jobs.insert j)).map fun t => { s with jobs := t }

def Store.insertRequest (s : Store) (r : JobRequestRow) : Except StoreError Store :=
  (orError .integrity (s.requests.insert r)).map fun t => { s with requests := t }

def Store.insertDomainRun (s : Store) (r : DomainRunRow) : Except StoreError Store :=
  (orError .integrity (s.domainRuns.insert r)).map fun t => { s with domainRuns := t }

def Store.insertAuditEvent (s : Store) (e : AuditEvent) : Except StoreError Store :=
  (orError .integrity (s.auditEvents.insert e)).map fun t => { s with auditEvents := t }

/-- `job_attempts` has a primary key and `UNIQUE(job_id, attempt_number)`. -/
def Store.insertAttempt (s : Store) (a : JobAttempt) : Except StoreError Store :=
  if s.attempts.rows.any fun r => r.jobId = a.jobId ∧ r.attemptNumber = a.attemptNumber then
    .error .integrity
  else (orError .integrity (s.attempts.insert a)).map fun t => { s with attempts := t }

/-- `outbox_events` has a primary key and a unique deduplication key. -/
def Store.insertOutbox (s : Store) (e : OutboxEvent) : Except StoreError Store :=
  if s.outbox.rows.any fun r => r.messageDeduplicationKey = e.messageDeduplicationKey then
    .error .integrity
  else (orError .integrity (s.outbox.insert e)).map fun t => { s with outbox := t }

/-- `_get_attempt_in`. -/
def Store.getAttemptIn (s : Store) (jobId : String) (attemptNumber : ℕ) : Option JobAttempt :=
  s.attempts.rows.find? fun a => a.jobId = jobId ∧ a.attemptNumber = attemptNumber

/-- `_get_outbox_for_attempt`. -/
def Store.getOutboxForAttempt (s : Store) (attemptId : String) : Option OutboxEvent :=
  s.outbox.rows.find? fun e => e.attemptId = attemptId

/-- `_get_job_request_in`. -/
def Store.getJobRequestIn (s : Store) (jobId : String) : Except StoreError String :=
  (orError (.controlPlane "job_request_not_found") (s.requests.find? jobId)).map
    JobRequestRow.requestJson

def getJob (jobId : String) (s : Store) : Except StoreError JobRecord × Store :=
  (orError (.controlPlane "job_not_found") (s.jobs.find? jobId), s)

section Hashing

variable (stableHash : String → String)

/-- `message_deduplication_key`. -/
def messageDeduplicationKey (jobId : String) (attemptNumber taskSchemaVersion : ℕ)
    (requestHash : String) : String :=
  stableHash s!"{jobId}:{attemptNumber}:{taskSchemaVersion}:{requestHash}"

/-- A new attempt in status `created`. -/
def newAttempt (jobId : String) (attemptNumber : ℕ) (ids : AttemptIds) (now : Timestamp) :
    JobAttempt where
  attemptId := "attempt_" ++ ids.attemptHex
  jobId := jobId
  attemptNumber := attemptNumber
  status := .created
  executionTokenHash := stableHash ids.token
  celeryTaskId := none
  workerIdHash := none
  heartbeatAt := none
  startedAt := none
  finishedAt := none
  errorCode := none
  retryable := false
  createdAt := now
  updatedAt := now

/-- `_new_outbox`. -/
def newOutbox (job : JobRecord) (attempt : JobAttempt) (ids : AttemptIds) (now : Timestamp) :
    OutboxEvent where
  outboxEventId := "outbox_" ++ ids.outboxHex
  jobId := job.jobId
  attemptId := attempt.attemptId
  attemptNumber := attempt.attemptNumber
  taskSchemaVersion := job.taskSchemaVersion
  requestHash := job.requestHash
  messageDeduplicationKey := messageDeduplicationKey stableHash job.jobId attempt.attemptNumber
    job.taskSchemaVersion job.requestHash
  status := .pending
  claimTokenHash := none
  leaseOwnerHash := none
  leaseUntil := none
  publishAttempt := 0
  lastPublishErrorCode := none
  publishedMessageId := none
  nextRetryAt := none
  createdAt := now
  updatedAt := now

/-- The job row that `create_job` builds. -/
def newJob (sub : JobSubmission) (ids : JobIds) (now : Timestamp) : JobRecord where
  jobId := "job_" ++ ids.jobHex
  workspaceId := sub.workspaceId
  projectId := sub.projectId
  jobType := sub.jobType
  queueName := sub.queueName
  domainRunId := some ((sub.domainRunId.filter (· ≠ "")).getD ("run_" ++ ids.runHex))
  retryOfJobId := sub.retryOfJobId
  status := .queued
  currentAttemptNumber := 1
  maxAttempts := sub.maxAttempts
  idempotencyKeyHash := stableHash sub.idempotencyKey
  requestHash := stableHash sub.requestJson
  taskSchemaVersion := sub.taskSchemaVersion
  startedAt := none
  finishedAt := none
  cancelRequested := false
  retryable := false
  errorCode := none
  resultArtifactRefIds := []
  createdAt := now
  updatedAt := now
  revision := 1

/-- The row of `audit_events` that `create_job` builds. -/
def newAuditEvent (sub : JobSubmission) (ids : JobIds) (now : Timestamp) : AuditEvent where
  auditEventId := "audit_" ++ ids.auditHex
  workspaceId := sub.workspaceId
  projectId := sub.projectId
  actorIdHash := sub.actorIdHash
  action := "job.create"
  objectType := "job"
  objectId := "job_" ++ ids.jobHex
  outcome := "succeeded"
  reasonCode := "job_created"
  occurredAt := now

/-- The row of `domain_runs` that `create_job` builds for a job. -/
def newDomainRun (job : JobRecord) (now : Timestamp) : DomainRunRow where
  domainRunId := job.domainRunId.getD ""
  workspaceId := job.workspaceId
  projectId := job.projectId
  jobType := job.jobType
  requestHash := job.requestHash
  createdAt := now

/-- The row of `job_requests` that `create_job` builds for a job. -/
def newRequest (job : JobRecord) (requestJson : String) (now : Timestamp) : JobRequestRow where
  jobId := job.jobId
  workspaceId := job.workspaceId
  projectId := job.projectId
  requestHash := job.requestHash
  requestJson := requestJson
  createdAt := now

def Store.findIdempotent (s : Store) (workspaceId idempotencyHash : String) : Option JobRecord :=
  s.jobs.rows.find? fun j => j.workspaceId = workspaceId ∧ j.idempotencyKeyHash = idempotencyHash

/-- The branch of `create_job` that answers with the stored job. -/
def replayJob (job : JobRecord) (requestHash : String) (s : Store) :
    Except StoreError (CreatedJob × Store) := do
  ensure (job.requestHash = requestHash) (.controlPlane "idempotency_key_conflict")
  let attempt ← orError .missingRow (s.getAttemptIn job.jobId job.currentAttemptNumber)
  let outbox ← orError .missingRow (s.getOutboxForAttempt attempt.attemptId)
  let request ← s.getJobRequestIn job.jobId
  return (⟨job, attempt, outbox, "", request⟩, s)

/-- The branch of `create_job` that inserts the job, its domain run, its request, its
first attempt, the attempt's outbox event and the audit event. -/
def insertNewJob (sub : JobSubmission) (ids : JobIds) (now : Timestamp) (s : Store) :
    Except StoreError (CreatedJob × Store) := do
  let job ← (newJob stableHash sub ids now).validate
  let attempt := newAttempt stableHash job.jobId 1 ids.toAttemptIds now
  let outbox := newOutbox stableHash job attempt ids.toAttemptIds now
  let s ← s.insertDomainRun (newDomainRun job now)
  let s ← s.insertJob job
  let s ← s.insertRequest (newRequest job sub.requestJson now)
  let s ← s.insertAttempt attempt
  let s ← s.insertOutbox outbox
  let s ← s.insertAuditEvent (newAuditEvent sub ids now)
  return (⟨job, attempt, outbox, ids.token, sub.requestJson⟩, s)

def createJob (sub : JobSubmission) (ids : JobIds) (now : Timestamp) (s : Store) :
    Except StoreError CreatedJob × Store :=
  commit s <|
    match s.findIdempotent sub.workspaceId (stableHash sub.idempotencyKey) with
    | some job => replayJob job (stableHash sub.requestJson) s
    | none => insertNewJob stableHash sub ids now s

/-- The row that `transition_job` writes. -/
def JobRecord.moveTo (job : JobRecord) (target : JobStatus) (errorCode : Option String)
    (now : Timestamp) : JobRecord :=
  { job with
    status := target
    errorCode := errorCode
    updatedAt := now
    finishedAt := if target.Terminal then some now else none
    revision := job.revision + 1
    startedAt := if target = .running ∧ job.startedAt = none then some now else job.startedAt }

/-- The checks of `transition_job` on the stored row. -/
def JobRecord.transition (job : JobRecord) (target : JobStatus) (errorCode : Option String)
    (expectedRevision : Option ℕ) (now : Timestamp) : Except StoreError JobRecord := do
  ensure (∀ r ∈ expectedRevision, job.revision = r) (.controlPlane "stale_job_revision")
  ensure (¬ (job.status.Terminal ∨ target ∉ jobTransitions job.status))
    (.controlPlane "invalid_job_transition")
  (job.moveTo target errorCode now).validate

def transitionJob (jobId : String) (target : JobStatus) (errorCode : Option String)
    (expectedRevision : Option ℕ) (now : Timestamp) (s : Store) :
    Except StoreError JobRecord × Store :=
  commit s do
    let job ← orError (.controlPlane "job_not_found") (s.jobs.find? jobId)
    let updated ← job.transition target errorCode expectedRevision now
    return (updated, s.updateJob updated)

def authorizedAttempt (attemptId executionToken : String) (s : Store) :
    Except StoreError JobAttempt := do
  let attempt ← orError (.controlPlane "attempt_not_found") (s.attempts.find? attemptId)
  ensure (attempt.executionTokenHash = stableHash executionToken)
    (.controlPlane "stale_execution_token")
  return attempt

/-- The row that `transition_attempt` writes. -/
def JobAttempt.moveTo (attempt : JobAttempt) (target : AttemptStatus)
    (workerIdHash celeryTaskId : Option String) (now : Timestamp) : JobAttempt :=
  { attempt with
    status := target
    updatedAt := now
    workerIdHash := workerIdHash <|> attempt.workerIdHash
    celeryTaskId := celeryTaskId <|> attempt.celeryTaskId
    heartbeatAt := if target ∈ [.claimed, .running] then some now else attempt.heartbeatAt
    startedAt := if target = .running then some now else attempt.startedAt }

def transitionAttempt (attemptId executionToken : String) (target : AttemptStatus)
    (workerIdHash celeryTaskId : Option String) (now : Timestamp) (s : Store) :
    Except StoreError JobAttempt × Store :=
  commit s do
    let attempt ← authorizedAttempt stableHash attemptId executionToken s
    ensure (target ∈ attemptTransitions attempt.status)
      (.controlPlane "invalid_attempt_transition")
    let updated := attempt.moveTo target workerIdHash celeryTaskId now
    return (updated, s.updateAttempt updated)

/-- The row that `heartbeat_attempt` writes. -/
def JobAttempt.beat (attempt : JobAttempt) (now : Timestamp) : JobAttempt :=
  { attempt with heartbeatAt := some now, updatedAt := now }

def heartbeatAttempt (attemptId executionToken : String) (now : Timestamp) (s : Store) :
    Except StoreError JobAttempt × Store :=
  commit s do
    let attempt ← authorizedAttempt stableHash attemptId executionToken s
    ensure (attempt.status ∈ [AttemptStatus.claimed, .running])
      (.controlPlane "attempt_not_heartbeat_eligible")
    let updated := attempt.beat now
    return (updated, s.updateAttempt updated)

/-- The statuses that `complete_attempt` accepts. -/
def completionStatuses : List AttemptStatus :=
  [.succeeded, .failedRetryable, .failedTerminal, .cancelled, .lost]

def completionTarget : AttemptStatus → JobStatus
  | .succeeded => .completed
  | .failedTerminal => .failed
  | .cancelled => .cancelled
  | _ => .retryWait

/-- The attempt row that `complete_attempt` writes. -/
def JobAttempt.complete (attempt : JobAttempt) (status : AttemptStatus)
    (errorCode : Option String) (now : Timestamp) : JobAttempt :=
  { attempt with
    status := status
    errorCode := errorCode
    retryable := decide (status = .failedRetryable)
    finishedAt := some now
    updatedAt := now }

/-- The job row that `complete_attempt` writes; the job's own status is not consulted. -/
def JobRecord.complete (job : JobRecord) (status : AttemptStatus) (errorCode : Option String)
    (resultArtifactRefIds : Option (List String)) (now : Timestamp) : JobRecord :=
  let target := completionTarget status
  { job with
    status := target
    retryable := decide (target = .retryWait)
    errorCode := errorCode
    finishedAt := if target.Terminal then some now else none
    updatedAt := now
    revision := job.revision + 1
    resultArtifactRefIds :=
      (resultArtifactRefIds.filter (· ≠ [])).getD job.resultArtifactRefIds }

/-- A `created` attempt may be finalised with any completion status. -/
def JobAttempt.Completable (attempt : JobAttempt) (status : AttemptStatus) : Prop :=
  status ∈ attemptTransitions attempt.status ∨ attempt.status = .created

instance (attempt : JobAttempt) (status : AttemptStatus) :
    Decidable (attempt.Completable status) :=
  inferInstanceAs (Decidable (_ ∨ _))

def completeAttempt (attemptId executionToken : String) (status : AttemptStatus)
    (errorCode : Option String) (resultArtifactRefIds : Option (List String)) (now : Timestamp)
    (s : Store) : Except StoreError (JobAttempt × JobRecord) × Store :=
  commit s do
    ensure (status ∈ completionStatuses) (.controlPlane "invalid_attempt_terminal_status")
    let attempt ← authorizedAttempt stableHash attemptId executionToken s
    let job ← orError .missingRow (s.jobs.find? attempt.jobId)
    ensure (job.currentAttemptNumber = attempt.attemptNumber)
      (.controlPlane "late_attempt_result")
    ensure (attempt.Completable status) (.controlPlane "invalid_attempt_transition")
    let updatedAttempt := attempt.complete status errorCode now
    let updatedJob ← (job.complete status errorCode resultArtifactRefIds now).validate
    return ((updatedAttempt, updatedJob), (s.updateAttempt updatedAttempt).updateJob updatedJob)

/-- Inserts the next attempt of a job together with its outbox event and writes
the job row that points at it. -/
def addAttempt (queued : JobRecord) (ids : AttemptIds) (now : Timestamp) (s : Store) :
    Except StoreError (CreatedJob × Store) := do
  let attempt := newAttempt stableHash queued.jobId queued.currentAttemptNumber ids now
  let request ← s.getJobRequestIn queued.jobId
  let outbox := newOutbox stableHash queued attempt ids now
  let s ← s.insertAttempt attempt
  let s ← s.insertOutbox outbox
  return (⟨queued, attempt, outbox, ids.token, request⟩, s.updateJob queued)

/-- The row of a job that has used its last attempt. -/
def JobRecord.exhaust (job : JobRecord) (now : Timestamp) : JobRecord :=
  { job with
    status := .dead
    finishedAt := some now
    updatedAt := now
    revision := job.revision + 1 }

def JobRecord.requeue (job : JobRecord) (now : Timestamp) : JobRecord :=
  { job with
    status := .queued
    currentAttemptNumber := job.currentAttemptNumber + 1
    retryable := false
    errorCode := none
    updatedAt := now
    revision := job.revision + 1 }

/-- An exhausted job is committed as `dead` before the error is raised. -/
def createRetryAttempt (jobId : String) (ids : AttemptIds) (now : Timestamp) (s : Store) :
    Except StoreError CreatedJob × Store :=
  match s.jobs.find? jobId with
  | none => (.error (.controlPlane "job_not_found"), s)
  | some job =>
    if job.status ≠ .retryWait then (.error (.controlPlane "job_not_retry_wait"), s)
    else if job.currentAttemptNumber ≥ job.maxAttempts then
      match (job.exhaust now).validate with
      | .error e => (.error e, s)
      | .ok dead => (.error (.controlPlane "job_attempts_exhausted"), s.updateJob dead)
    else commit s do
      let queued ← (job.requeue now).validate
      addAttempt stableHash queued ids now s

def createManualRetry (jobId manualHex : String) (ids : JobIds) (now : Timestamp) (s : Store) :
    Except StoreError CreatedJob × Store :=
  match s.jobs.find? jobId with
  | none => (.error (.controlPlane "job_not_found"), s)
  | some job =>
    if ¬ job.status.Terminal then (.error (.controlPlane "manual_retry_requires_terminal_job"), s)
    else match s.getJobRequestIn jobId with
      | .error e => (.error e, s)
      | .ok request => createJob stableHash
          { workspaceId := job.workspaceId
            projectId := job.projectId
            jobType := job.jobType
            queueName := job.queueName
            requestJson := request
            idempotencyKey := s!"manual-retry:{jobId}:{manualHex}"
            actorIdHash := "system"
            domainRunId := none
            retryOfJobId := some jobId
            maxAttempts := job.maxAttempts
            taskSchemaVersion := job.taskSchemaVersion } ids now s

def JobAttempt.supersede (attempt : JobAttempt) (now : Timestamp) : JobAttempt :=
  if attempt.status ∈ [AttemptStatus.created, .dispatched, .claimed, .running] then
    { attempt with
      status := if attempt.status = .created then .superseded else .lost
      errorCode := some "application_restart"
      retryable := true
      finishedAt := some now
      updatedAt := now }
  else attempt

def OutboxEvent.supersede (event : OutboxEvent) (now : Timestamp) : OutboxEvent :=
  if event.status ≠ .failed then
    { event with
      status := .failed
      claimTokenHash := none
      leaseOwnerHash := none
      leaseUntil := none
      lastPublishErrorCode := some "attempt_superseded_on_restart"
      updatedAt := now }
  else event

def supersedeCurrent (job : JobRecord) (now : Timestamp) (s : Store) :
    Except StoreError Store := do
  let attempt ← orError .missingRow (s.getAttemptIn job.jobId job.currentAttemptNumber)
  let s := s.updateAttempt (attempt.supersede now)
  match s.getOutboxForAttempt attempt.attemptId with
  | some event => return s.updateOutbox (event.supersede now)
  | none => return s

def JobRecord.cancelOnRestart (job : JobRecord) (now : Timestamp) : JobRecord :=
  { job with
    status := .cancelled
    cancelRequested := true
    retryable := false
    errorCode := some "job_cancelled_during_restart"
    finishedAt := some now
    updatedAt := now
    revision := job.revision + 1 }

def JobRecord.exhaustOnRestart (job : JobRecord) (now : Timestamp) : JobRecord :=
  { job with
    status := .dead
    retryable := false
    errorCode := some "job_attempts_exhausted_after_restart"
    finishedAt := some now
    updatedAt := now
    revision := job.revision + 1 }

def JobRecord.requeueOnRestart (job : JobRecord) (now : Timestamp) : JobRecord :=
  { job with
    status := .queued
    currentAttemptNumber := job.currentAttemptNumber + 1
    cancelRequested := false
    retryable := false
    errorCode := none
    finishedAt := none
    updatedAt := now
    revision := job.revision + 1 }

/-- One iteration of the loop of `recover_incomplete_jobs`. -/
def recoverJob (ids : AttemptIds) (now : Timestamp) (job : JobRecord) (s : Store) :
    Except StoreError (Option CreatedJob × Store) := do
  let s ← supersedeCurrent job now s
  if job.status = .cancelling then return (none, s.updateJob (job.cancelOnRestart now))
  else if job.currentAttemptNumber ≥ job.maxAttempts then
    return (none, s.updateJob (job.exhaustOnRestart now))
  else
    let (created, s) ← addAttempt stableHash (job.requeueOnRestart now) ids now s
    return (some created, s)

/-- The loop of `recover_incomplete_jobs` over the rows it selected. -/
def recoverLoop (fresh : String → AttemptIds) (now : Timestamp) :
    List JobRecord → Store → Except StoreError (List CreatedJob × Store)
  | [], s => .ok ([], s)
  | job :: rest, s => do
    let (created, s) ← recoverJob stableHash (fresh job.jobId) now job s
    let (recovered, s) ← recoverLoop fresh now rest s
    return (created.toList ++ recovered, s)

def Store.incompleteJobs (s : Store) : List JobRecord :=
  (s.jobs.rows.filter fun j => ¬ j.status.Terminal).insertionSort
    fun a b => a.createdAt ≤ b.createdAt

def recoverIncompleteJobs (fresh : String → AttemptIds) (now : Timestamp) (s : Store) :
    Except StoreError (List CreatedJob) × Store :=
  commit s (recoverLoop stableHash fresh now s.incompleteJobs s)

end Hashing

/-- The row that `request_cancel` writes. -/
def JobRecord.cancel (job : JobRecord) (now : Timestamp) : JobRecord :=
  { job with
    status := .cancelling
    cancelRequested := true
    updatedAt := now
    revision := job.revision + 1 }

def requestCancel (jobId : String) (now : Timestamp) (s : Store) :
    Except StoreError JobRecord × Store :=
  commit s do
    let job ← orError (.controlPlane "job_not_found") (s.jobs.find? jobId)
    if job.status.Terminal then return (job, s)
    else
      ensure (JobStatus.cancelling ∈ jobTransitions job.status)
        (.controlPlane "job_cannot_cancel")
      let updated ← (job.cancel now).validate
      return (updated, s.updateJob updated)

/-- The row that `mark_outbox_consumed_local` writes. -/
def OutboxEvent.consume (event : OutboxEvent) (now : Timestamp) : OutboxEvent :=
  { event with
    status := .published
    publishedMessageId := some s!"local:{event.messageDeduplicationKey}"
    updatedAt := now }

def markOutboxConsumedLocal (eventId : String) (now : Timestamp) (s : Store) :
    Except StoreError OutboxEvent × Store :=
  commit s do
    let event ← orError (.controlPlane "outbox_not_found") (s.outbox.find? eventId)
    if event.status = .published then return (event, s)
    else
      ensure (event.status = .pending) (.controlPlane "outbox_not_pending")
      let updated := event.consume now
      return (updated, s.updateOutbox updated)

end CodeResearch.ControlPlane
