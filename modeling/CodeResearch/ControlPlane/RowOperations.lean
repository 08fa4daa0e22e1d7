import CodeResearch.ControlPlane.Rows

/-!
# The store operations on rows

The operations of the store once more, statement by statement: queries select by
columns, records are read from the JSON next to them, and every update lists the
columns that it writes.
-/
namespace CodeResearch.ControlPlane

open Artifacts (ArtifactRecord artifactTransitions)

namespace RowStore

section Hashing

variable (stableHash : String → String)

/-- The branch of `create_job` that answers with the stored job. -/
def replayJob (job : JobRecord) (requestHash : String) (r : RowStore) :
    Except StoreError (CreatedJob × RowStore) := do
  ensure (job.requestHash = requestHash) (.controlPlane "idempotency_key_conflict")
  let attempt ← r.getAttemptIn job.jobId job.currentAttemptNumber
  let outbox? ← r.outboxForAttempt attempt.attemptId
  let outbox ← orError .missingRow outbox?
  let request ← r.getJobRequestIn job.jobId
  return (⟨job, attempt, outbox, "", request⟩, r)

/-- The branch of `create_job` that inserts a job. -/
def insertNewJob (sub : JobSubmission) (ids : JobIds) (now : Timestamp) (r : RowStore) :
    Except StoreError (CreatedJob × RowStore) := do
  let job ← (newJob stableHash sub ids now).validate
  let attempt := newAttempt stableHash job.jobId 1 ids.toAttemptIds now
  let outbox := newOutbox stableHash job attempt ids.toAttemptIds now
  let r ← r.insertDomainRun (newDomainRun job now)
  let r ← r.insertJob job
  let r ← r.insertRequest (newRequest job sub.requestJson now)
  let r ← r.insertAttempt attempt
  let r ← r.insertOutbox outbox
  let r ← r.insertAuditEvent (newAuditEvent sub ids now)
  return (⟨job, attempt, outbox, ids.token, sub.requestJson⟩, r)

def createJob (sub : JobSubmission) (ids : JobIds) (now : Timestamp) (r : RowStore) :
    Except StoreError CreatedJob × RowStore :=
  transact r <|
    match r.jobs.rows.find? fun row => row.workspaceId = sub.workspaceId ∧
        row.idempotencyKeyHash = stableHash sub.idempotencyKey with
    | some row => do
      let job ← load JobRecord.Accepted row.jobJson
      replayJob job (stableHash sub.requestJson) r
    | none => insertNewJob stableHash sub ids now r

def transitionJob (jobId : String) (target : JobStatus) (errorCode : Option String)
    (expectedRevision : Option ℕ) (now : Timestamp) (r : RowStore) :
    Except StoreError JobRecord × RowStore :=
  transact r do
    let job ← r.readJob jobId (.controlPlane "job_not_found")
    let updated ← job.transition target errorCode expectedRevision now
    return (updated, r.updateJob updated)

def authorizedAttempt (attemptId executionToken : String) (r : RowStore) :
    Except StoreError JobAttempt := do
  let attempt ← r.readAttempt attemptId
  ensure (attempt.executionTokenHash = stableHash executionToken)
    (.controlPlane "stale_execution_token")
  return attempt

def transitionAttempt (attemptId executionToken : String) (target : AttemptStatus)
    (workerIdHash celeryTaskId : Option String) (now : Timestamp) (r : RowStore) :
    Except StoreError JobAttempt × RowStore :=
  transact r do
    let attempt ← authorizedAttempt stableHash attemptId executionToken r
    ensure (target ∈ attemptTransitions attempt.status)
      (.controlPlane "invalid_attempt_transition")
    let updated := attempt.moveTo target workerIdHash celeryTaskId now
    return (updated, r.updateAttempt target updated now)

def heartbeatAttempt (attemptId executionToken : String) (now : Timestamp) (r : RowStore) :
    Except StoreError JobAttempt × RowStore :=
  transact r do
    let attempt ← authorizedAttempt stableHash attemptId executionToken r
    ensure (attempt.status ∈ [AttemptStatus.claimed, .running])
      (.controlPlane "attempt_not_heartbeat_eligible")
    let updated := attempt.beat now
    return (updated, r.beatAttempt updated now)

def completeAttempt (attemptId executionToken : String) (status : AttemptStatus)
    (errorCode : Option String) (resultArtifactRefIds : Option (List String)) (now : Timestamp)
    (r : RowStore) : Except StoreError (JobAttempt × JobRecord) × RowStore :=
  transact r do
    ensure (status ∈ completionStatuses) (.controlPlane "invalid_attempt_terminal_status")
    let attempt ← authorizedAttempt stableHash attemptId executionToken r
    let job ← r.readJob attempt.jobId .missingRow
    ensure (job.currentAttemptNumber = attempt.attemptNumber)
      (.controlPlane "late_attempt_result")
    ensure (attempt.Completable status) (.controlPlane "invalid_attempt_transition")
    let updatedAttempt := attempt.complete status errorCode now
    let updatedJob ← (job.complete status errorCode resultArtifactRefIds now).validate
    return ((updatedAttempt, updatedJob),
      (r.updateAttempt status updatedAttempt now).updateJob updatedJob)

def addAttempt (queued : JobRecord) (ids : AttemptIds) (now : Timestamp) (r : RowStore) :
    Except StoreError (CreatedJob × RowStore) := do
  let attempt := newAttempt stableHash queued.jobId queued.currentAttemptNumber ids now
  let request ← r.getJobRequestIn queued.jobId
  let outbox := newOutbox stableHash queued attempt ids now
  let r ← r.insertAttempt attempt
  let r ← r.insertOutbox outbox
  return (⟨queued, attempt, outbox, ids.token, request⟩, r.updateJob queued)

/-- An exhausted job is committed as `dead` before the error is raised. -/
def createRetryAttempt (jobId : String) (ids : AttemptIds) (now : Timestamp) (r : RowStore) :
    Except StoreError CreatedJob × RowStore :=
  match r.readJob jobId (.controlPlane "job_not_found") with
  | .error e => (.error e, r)
  | .ok job =>
    if job.status ≠ .retryWait then (.error (.controlPlane "job_not_retry_wait"), r)
    else if job.currentAttemptNumber ≥ job.maxAttempts then
      match (job.exhaust now).validate with
      | .error e => (.error e, r)
      | .ok dead => (.error (.controlPlane "job_attempts_exhausted"), r.updateJob dead)
    else transact r do
      let queued ← (job.requeue now).validate
      addAttempt stableHash queued ids now r

def createManualRetry (jobId manualHex : String) (ids : JobIds) (now : Timestamp)
    (r : RowStore) : Except StoreError CreatedJob × RowStore :=
  match r.readJob jobId (.controlPlane "job_not_found") with
  | .error e => (.error e, r)
  | .ok job =>
    if ¬ job.status.Terminal then (.error (.controlPlane "manual_retry_requires_terminal_job"), r)
    else match r.getJobRequestIn jobId with
      | .error e => (.error e, r)
      | .ok request => createJob stableHash
          { workspaceId := job.workspaceId
            projectId := job.projectId
            jobType := job.jobType
            queueName := job.queueName
            requestJson := request
            idempotencyKey := s!"manual-retry:{jobId}:{manualHex}"
            actorIdHash := "system"
            domainRunId := none
            retryOfJobId := some jobId
            maxAttempts := job.maxAttempts
            taskSchemaVersion := job.taskSchemaVersion } ids now r

def supersedeCurrent (job : JobRecord) (now : Timestamp) (r : RowStore) :
    Except StoreError RowStore := do
  let attempt ← r.getAttemptIn job.jobId job.currentAttemptNumber
  let r :=
    if attempt.status ∈ [AttemptStatus.created, .dispatched, .claimed, .running] then
      r.updateAttempt (if attempt.status = .created then .superseded else .lost)
        (attempt.supersede now) now
    else r
  match ← r.outboxForAttempt attempt.attemptId with
  | some event =>
    if event.status ≠ .failed then
      return r.updateOutbox event.outboxEventId (OutboxRow.supersede (event.supersede now) now)
        fun _ => rfl
    else return r
  | none => return r

/-- One iteration of the loop of `recover_incomplete_jobs`. -/
def recoverJob (ids : AttemptIds) (now : Timestamp) (job : JobRecord) (r : RowStore) :
    Except StoreError (Option CreatedJob × RowStore) := do
  let r ← supersedeCurrent job now r
  if job.status = .cancelling then return (none, r.updateJob (job.cancelOnRestart now))
  else if job.currentAttemptNumber ≥ job.maxAttempts then
    return (none, r.updateJob (job.exhaustOnRestart now))
  else
    let (created, r) ← addAttempt stableHash (job.requeueOnRestart now) ids now r
    return (some created, r)

/-- The loop of `recover_incomplete_jobs` over the rows it selected. -/
def recoverLoop (fresh : String → AttemptIds) (now : Timestamp) :
    List JobRow → RowStore → Except StoreError (List CreatedJob × RowStore)
  | [], r => .ok ([], r)
  | row :: rest, r => do
    let job ← load JobRecord.Accepted row.jobJson
    let (created, r) ← recoverJob stableHash (fresh job.jobId) now job r
    let (recovered, r) ← recoverLoop fresh now rest r
    return (created.toList ++ recovered, r)

def incompleteJobs (r : RowStore) : List JobRow :=
  (r.jobs.rows.filter fun row => ¬ row.status.Terminal).insertionSort
    fun a b => a.createdAt ≤ b.createdAt

def recoverIncompleteJobs (fresh : String → AttemptIds) (now : Timestamp) (r : RowStore) :
    Except StoreError (List CreatedJob) × RowStore :=
  transact r (recoverLoop stableHash fresh now r.incompleteJobs r)

end Hashing

def requestCancel (jobId : String) (now : Timestamp) (r : RowStore) :
    Except StoreError JobRecord × RowStore :=
  transact r do
    let job ← r.readJob jobId (.controlPlane "job_not_found")
    if job.status.Terminal then return (job, r)
    else
      ensure (JobStatus.cancelling ∈ jobTransitions job.status)
        (.controlPlane "job_cannot_cancel")
      let updated ← (job.cancel now).validate
      return (updated, r.updateJob updated)

def markOutboxConsumedLocal (eventId : String) (now : Timestamp) (r : RowStore) :
    Except StoreError OutboxEvent × RowStore :=
  transact r do
    let event ← r.readOutbox eventId
    if event.status = .published then return (event, r)
    else
      ensure (event.status = .pending) (.controlPlane "outbox_not_pending")
      let updated := event.consume now
      return (updated, r.updateOutbox eventId (OutboxRow.consume updated now) fun _ => rfl)

/-- The rows that `claim_outbox` selects. -/
def claimableOutbox (r : RowStore) (batchSize : ℤ) (now : Timestamp) : List OutboxRow :=
  limited batchSize <| (r.outbox.rows.filter fun row =>
    (row.status = .pending ∨
      (row.status = .publishing ∧ ∃ leaseUntil ∈ row.leaseUntil, leaseUntil < now)) ∧
    ∀ nextRetryAt ∈ row.nextRetryAt, nextRetryAt ≤ now).insertionSort
      fun a b => a.createdAt ≤ b.createdAt

section Hashing

variable (stableHash : String → String)

/-- The loop of `claim_outbox` over the rows it selected. -/
def claimLoop (dispatcherId : String) (tokens : String → String) (leaseUntil now : Timestamp) :
    List OutboxRow → RowStore → Except StoreError (List ClaimedOutbox × RowStore)
  | [], r => .ok ([], r)
  | row :: rest, r => do
    let event ← load OutboxEvent.Accepted row.outboxJson
    let claimToken := tokens event.outboxEventId
    let updated ← load OutboxEvent.Accepted
      (event.claim stableHash dispatcherId claimToken leaseUntil now)
    let (claimed, r) ← claimLoop dispatcherId tokens leaseUntil now rest
      (r.updateOutbox event.outboxEventId (OutboxRow.claim updated leaseUntil now) fun _ => rfl)
    return (⟨updated, claimToken⟩ :: claimed, r)

def claimOutbox (dispatcherId : String) (batchSize leaseSeconds : ℤ) (tokens : String → String)
    (now : Timestamp) (r : RowStore) : Except StoreError (List ClaimedOutbox) × RowStore :=
  transact r <| claimLoop stableHash dispatcherId tokens (now.after leaseSeconds) now
    (r.claimableOutbox batchSize now) r

def markOutboxPublished (eventId claimToken messageId : String) (now : Timestamp)
    (r : RowStore) : Except StoreError OutboxEvent × RowStore :=
  transact r do
    let event ← r.readOutbox eventId
    ensure event.Claimed (.controlPlane "outbox_not_claimed")
    ensure (event.claimTokenHash = some (stableHash claimToken))
      (.controlPlane "outbox_claim_lost")
    let updated ← load OutboxEvent.Accepted (event.publish messageId now)
    return (updated, r.updateOutbox eventId (OutboxRow.publish updated now) fun _ => rfl)

def markOutboxPublishFailed (eventId claimToken errorCode : String) (retrySeconds : ℤ)
    (now : Timestamp) (r : RowStore) : Except StoreError OutboxEvent × RowStore :=
  transact r do
    let event ← r.readOutbox eventId
    ensure (event.Claimed ∧ event.claimTokenHash = some (stableHash claimToken))
      (.controlPlane "outbox_claim_lost")
    let updated := event.retryLater errorCode retrySeconds now
    return (updated,
      r.updateOutbox eventId (OutboxRow.retryLater updated errorCode now) fun _ => rfl)

end Hashing

/-- `storage_key` is unique. -/
def storageKeyTaken (artifact : ArtifactRecord) (r : RowStore) : Prop :=
  ∃ row ∈ r.artifacts.rows, row.artifactId ≠ artifact.artifactId ∧
    row.storageKey = artifact.storageKey

instance (artifact : ArtifactRecord) (r : RowStore) : Decidable (storageKeyTaken artifact r) :=
  inferInstanceAs (Decidable (∃ row ∈ r.artifacts.rows, _))

def saveArtifact (artifact : ArtifactRecord) (r : RowStore) :
    Except StoreError Unit × RowStore :=
  transact r <|
    match r.artifacts.find? artifact.artifactId with
    | some row => do
      let current ← load ArtifactAccepted row.artifactJson
      ensure (artifact.status ∈ artifactTransitions current.status)
        (.controlPlane "invalid_artifact_transition")
      ensure (¬ storageKeyTaken artifact r) .integrity
      return ((), { r with
        artifacts := r.artifacts.updateWhere (fun row => row.artifactId = artifact.artifactId)
          (ArtifactRow.update artifact) (fun _ => rfl) })
    | none => do
      ensure (artifact.status = .staging) (.controlPlane "artifact_must_start_staging")
      ensure (¬ storageKeyTaken artifact r) .integrity
      let artifacts ← orError .integrity (r.artifacts.insert (.new artifact))
      return ((), { r with artifacts })

end RowStore

/-- A call of any operation on jobs, attempts, outbox events or artifacts. -/
inductive RowCall
  | call (c : StoreCall)
  | claimOutbox (dispatcherId : String) (batchSize leaseSeconds : ℤ) (tokens : String → String)
      (now : Timestamp)
  | markOutboxPublished (eventId claimToken messageId : String) (now : Timestamp)
  | markOutboxPublishFailed (eventId claimToken errorCode : String) (retrySeconds : ℤ)
      (now : Timestamp)
  | saveArtifact (artifact : ArtifactRecord)

namespace RowStore

variable (stableHash : String → String)

def perform (r : RowStore) (c : StoreCall) : RowStore :=
  match c.op with
  | .createJob sub ids => (createJob stableHash sub ids c.now r).2
  | .transitionJob jobId target errorCode expectedRevision =>
    (transitionJob jobId target errorCode expectedRevision c.now r).2
  | .transitionAttempt attemptId token target worker celery =>
    (transitionAttempt stableHash attemptId token target worker celery c.now r).2
  | .heartbeatAttempt attemptId token => (heartbeatAttempt stableHash attemptId token c.now r).2
  | .completeAttempt attemptId token status errorCode refs =>
    (completeAttempt stableHash attemptId token status errorCode refs c.now r).2
  | .createRetryAttempt jobId ids => (createRetryAttempt stableHash jobId ids c.now r).2
  | .createManualRetry jobId manualHex ids =>
    (createManualRetry stableHash jobId manualHex ids c.now r).2
  | .recoverIncompleteJobs fresh => (recoverIncompleteJobs stableHash fresh c.now r).2
  | .requestCancel jobId => (requestCancel jobId c.now r).2
  | .markOutboxConsumedLocal eventId => (markOutboxConsumedLocal eventId c.now r).2

/-- The tables after a call, whether it returned or raised. -/
def step (r : RowStore) : RowCall → RowStore
  | .call c => r.perform stableHash c
  | .claimOutbox dispatcherId batchSize leaseSeconds tokens now =>
    (claimOutbox stableHash dispatcherId batchSize leaseSeconds tokens now r).2
  | .markOutboxPublished eventId claimToken messageId now =>
    (markOutboxPublished stableHash eventId claimToken messageId now r).2
  | .markOutboxPublishFailed eventId claimToken errorCode retrySeconds now =>
    (markOutboxPublishFailed stableHash eventId claimToken errorCode retrySeconds now r).2
  | .saveArtifact artifact => (saveArtifact artifact r).2

end RowStore

end CodeResearch.ControlPlane
