import CodeResearch.Team.Rows

/-!
# The scheduler functions of the database

`claim_outbox_batch`, `acknowledge_outbox_publish` and `claim_next_job` run with the rights
of their owner. They write columns and leave the JSON records alone. `locked` tells which
rows another transaction holds and `SKIP LOCKED` passes over; the random tokens and the
clock are arguments.
-/
namespace CodeResearch.Team

open ControlPlane

def jobTypeText : JobType → String
  | .analysis => "analysis"
  | .indexing => "indexing"
  | .research => "research"
  | .alignment => "alignment"
  | .evaluation => "evaluation"
  | .replay => "replay"
  | .export => "export"
  | .backup => "backup"
  | .restore => "restore"
  | .maintenance => "maintenance"
  | .delete => "delete"

/-- `'cra.' || job_type`. -/
def queueOf (jobType : JobType) : String := "cra." ++ jobTypeText jobType

/-- `BETWEEN min_task_schema_version AND max_task_schema_version`. -/
def WorkerRow.Supports (w : WorkerRow) (taskSchemaVersion : ℕ) : Prop :=
  w.minTaskSchemaVersion ≤ taskSchemaVersion ∧ taskSchemaVersion ≤ w.maxTaskSchemaVersion

instance (w : WorkerRow) (v : ℕ) : Decidable (w.Supports v) :=
  inferInstanceAs (Decidable (_ ∧ _))

def WorkerRow.Awaits (w : WorkerRow) (event : OutboxRow) (now : Timestamp) : Prop :=
  w.Supports event.taskSchemaVersion ∧ queueOf event.payload.jobType ∈ w.queueNames ∧
    now < w.heartbeatAt + 90000000

instance (w : WorkerRow) (event : OutboxRow) (now : Timestamp) : Decidable (w.Awaits event now) :=
  inferInstanceAs (Decidable (_ ∧ _ ∧ _))

/-- The condition of `claim_outbox_batch` on a row. -/
def OutboxRow.Claimable (event : OutboxRow) (workers : List WorkerRow)
    (minSchema maxSchema : ℕ) (now : Timestamp) : Prop :=
  (event.status = .pending ∨
    (event.status = .publishing ∧ ∃ leaseUntil ∈ event.leaseUntil, leaseUntil < now)) ∧
  (∀ nextRetryAt ∈ event.nextRetryAt, nextRetryAt ≤ now) ∧
  (minSchema ≤ event.taskSchemaVersion ∧ event.taskSchemaVersion ≤ maxSchema) ∧
  ∃ w ∈ workers, w.Awaits event now

instance (event : OutboxRow) (workers : List WorkerRow) (minSchema maxSchema : ℕ)
    (now : Timestamp) : Decidable (event.Claimable workers minSchema maxSchema now) :=
  inferInstanceAs (Decidable (_ ∧ _ ∧ _ ∧ _))

/-- A row that `claim_outbox_batch` returns. -/
structure ClaimedEvent where
  outboxEventId : String
  messageDeduplicationKey : String
  claimToken : String
  payload : Envelope
  deriving DecidableEq

section Hashing

variable (stableHash : String → String)

/-- The rows that `claim_outbox_batch` locks. -/
def Database.outboxCandidates (db : Database) (minSchema maxSchema batchSize : ℕ)
    (locked : String → Bool) (now : Timestamp) : List JobRows :=
  ((db.jobs.rows.filter fun r =>
      r.event.Claimable db.workers.rows minSchema maxSchema now ∧ ¬ locked r.jobId).insertionSort
    fun a b => a.event.updatedAt ≤ b.event.updatedAt).take batchSize

def JobRows.claimEvent (r : JobRows) (dispatcherId token : String) (now : Timestamp) : JobRows :=
  { r with event := r.event.claim (stableHash token) (stableHash dispatcherId) now }

theorem JobRows.claimEvent_jobId (r : JobRows) (dispatcherId token : String) (now : Timestamp) :
    (r.claimEvent stableHash dispatcherId token now).jobId = r.jobId := rfl

def claimOutboxBatch (dispatcherId : String) (minSchema maxSchema batchSize : ℕ)
    (locked : String → Bool) (tokens : String → String) (now : Timestamp) (db : Database) :
    List ClaimedEvent × Database :=
  let candidates := db.outboxCandidates minSchema maxSchema batchSize locked now
  (candidates.map fun r => ⟨r.event.outboxEventId, r.event.messageDeduplicationKey,
      tokens r.event.outboxEventId, r.event.payload⟩,
    { db with
      jobs := db.jobs.updateWhere (fun r => r.jobId ∈ candidates.map JobRows.jobId)
        (fun r => r.claimEvent stableHash dispatcherId (tokens r.event.outboxEventId) now)
        (fun r => r.claimEvent_jobId stableHash _ _ _) })

def JobRows.Acknowledges (r : JobRows) (eventId token : String) : Prop :=
  r.event.outboxEventId = eventId ∧ r.event.status = .publishing ∧
    r.event.claimTokenHash = some (stableHash token)

instance (r : JobRows) (eventId token : String) :
    Decidable (r.Acknowledges stableHash eventId token) :=
  inferInstanceAs (Decidable (_ ∧ _ ∧ _))

/-- The three updates. -/
def JobRows.acknowledge (r : JobRows) (messageId : String) (now : Timestamp) : JobRows :=
  { r with
    event := r.event.publish messageId now
    job := r.job.dispatch now
    attempt := r.attempt.dispatch }

def acknowledgeOutboxPublish (eventId token messageId : String) (now : Timestamp)
    (db : Database) : Bool × Database :=
  match db.jobs.rows.find? fun r => r.Acknowledges stableHash eventId token with
  | none => (false, db)
  | some r => (decide (r.attempt.status = .created), db.update (r.acknowledge messageId now))

/-- `p_capabilities`, as far as the function reads it. -/
structure Capabilities where
  jobId : Option String
  attemptId : Option String
  deriving DecidableEq

/-- The row that `claim_next_job` returns, as far as `execute_claimed_job` reads it. -/
structure Claim where
  jobId : String
  workspaceId : String
  projectId : Option String
  attemptId : String
  executionToken : String
  requestHash : String
  deriving DecidableEq

/-- The condition of `claim_next_job` on the rows of a job. -/
def JobRows.Claimable (r : JobRows) (workers : List WorkerRow) (workerIdHash : String)
    (capabilities : Capabilities) (queueNames : List String) : Prop :=
  r.attempt.attemptNumber = r.job.currentAttemptNumber ∧
  r.job.status = .dispatched ∧ r.job.queueName ∈ queueNames ∧ r.attempt.status = .dispatched ∧
  (∀ id ∈ capabilities.jobId, r.job.jobId = id) ∧
  (∀ id ∈ capabilities.attemptId, r.attempt.attemptId = id) ∧
  ∃ w ∈ workers, w.workerIdHash = workerIdHash ∧ w.Supports r.job.taskSchemaVersion

instance (r : JobRows) (workers : List WorkerRow) (workerIdHash : String)
    (capabilities : Capabilities) (queueNames : List String) :
    Decidable (r.Claimable workers workerIdHash capabilities queueNames) :=
  inferInstanceAs (Decidable (_ ∧ _ ∧ _ ∧ _ ∧ _ ∧ _ ∧ _))

def JobRows.claim (r : JobRows) (workerIdHash token : String) (now : Timestamp) : JobRows :=
  { r with
    job := r.job.claim workerIdHash (stableHash token) now
    attempt := r.attempt.claim workerIdHash (stableHash token) }

/-- The candidate that `claim_next_job` locks. -/
def Database.jobCandidate (db : Database) (workerIdHash : String) (capabilities : Capabilities)
    (queueNames : List String) (locked : String → Bool) : Option JobRows :=
  ((db.jobs.rows.filter fun r =>
      r.Claimable db.workers.rows workerIdHash capabilities queueNames ∧
        ¬ locked r.jobId).insertionSort fun a b => a.job.createdAt ≤ b.job.createdAt).head?

def claimNextJob (workerId : String) (capabilities : Capabilities) (queueNames : List String)
    (locked : String → Bool) (rawToken : String) (now : Timestamp) (db : Database) :
    Option Claim × Database :=
  match db.jobCandidate (stableHash workerId) capabilities queueNames locked with
  | none => (none, db)
  | some r =>
    (some ⟨r.job.jobId, r.job.workspaceId, r.job.projectId, r.attempt.attemptId, rawToken,
        r.job.requestHash⟩,
      db.update (r.claim stableHash (stableHash workerId) rawToken now))

end Hashing

section Facts

variable {stableHash : String → String} {db : Database} {locked : String → Bool}

theorem mem_outboxCandidates {minSchema maxSchema batchSize : ℕ} {now : Timestamp} {r : JobRows}
    (h : r ∈ db.outboxCandidates minSchema maxSchema batchSize locked now) :
    r ∈ db.jobs.rows ∧ r.event.Claimable db.workers.rows minSchema maxSchema now := by
  have hsorted := List.mem_of_mem_take h
  rw [List.mem_insertionSort, List.mem_filter, decide_eq_true_iff] at hsorted
  exact ⟨hsorted.1, hsorted.2.1⟩

theorem jobCandidate_eq_some {workerIdHash : String} {capabilities : Capabilities}
    {queueNames : List String} {r : JobRows}
    (h : db.jobCandidate workerIdHash capabilities queueNames locked = some r) :
    r ∈ db.jobs.rows ∧ r.Claimable db.workers.rows workerIdHash capabilities queueNames := by
  have hsorted := List.mem_of_head? h
  rw [List.mem_insertionSort, List.mem_filter, decide_eq_true_iff] at hsorted
  exact ⟨hsorted.1, hsorted.2.1⟩

end Facts

end CodeResearch.Team
