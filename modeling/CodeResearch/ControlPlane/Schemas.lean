import Mathlib.Data.List.Basic

/-!
# Control-plane records and their status tables

Jobs, attempts and outbox events with the fields that the store operations read
or write, the two transition tables of the store module, and the checks that
`JobRecord` validation performs on the values the operations can produce.
-/
namespace CodeResearch.ControlPlane

/-- Microseconds since an arbitrary epoch. -/
abbrev Timestamp := ℕ

inductive JobStatus
  | queued | dispatching | dispatched | running | retryWait | cancelling
  | completed | partialResult | failed | cancelled | dead
  deriving DecidableEq

inductive AttemptStatus
  | created | dispatched | claimed | running | succeeded | failedRetryable
  | failedTerminal | cancelled | lost | superseded
  deriving DecidableEq

inductive OutboxStatus
  | pending | publishing | published | failed
  deriving DecidableEq

inductive JobType
  | analysis | indexing | research | alignment | evaluation | replay
  | export | backup | restore | maintenance | delete
  deriving DecidableEq

/-- `TERMINAL_JOBS`. -/
def terminalJobs : List JobStatus := [.completed, .partialResult, .failed, .cancelled, .dead]

/-- `JOB_TRANSITIONS`, with no entry read as the empty set. -/
def jobTransitions : JobStatus → List JobStatus
  | .queued => [.dispatching, .cancelling, .failed]
  | .dispatching => [.dispatched, .queued, .failed]
  | .dispatched => [.running, .queued, .cancelling]
  | .running => [.completed, .partialResult, .retryWait, .cancelling, .failed]
  | .retryWait => [.queued, .dead, .cancelling]
  | .cancelling => [.cancelled, .failed]
  | _ => []

/-- `ATTEMPT_TRANSITIONS`, with no entry read as the empty set. -/
def attemptTransitions : AttemptStatus → List AttemptStatus
  | .created => [.dispatched, .cancelled, .superseded]
  | .dispatched => [.claimed, .lost, .cancelled, .superseded]
  | .claimed => [.running, .lost, .cancelled, .superseded]
  | .running => [.succeeded, .failedRetryable, .failedTerminal, .cancelled, .lost, .superseded]
  | _ => []

def AttemptStatus.Final (a : AttemptStatus) : Prop := attemptTransitions a = []

instance (a : AttemptStatus) : Decidable a.Final :=
  inferInstanceAs (Decidable (attemptTransitions a = []))

def JobStatus.Terminal (j : JobStatus) : Prop := j ∈ terminalJobs

instance (j : JobStatus) : Decidable j.Terminal :=
  inferInstanceAs (Decidable (j ∈ terminalJobs))

theorem attemptTransitions_final {a b : AttemptStatus} (ha : a.Final) :
    b ∉ attemptTransitions a := by
  rw [show attemptTransitions a = [] from ha]
  exact List.not_mem_nil

structure JobRecord where
  jobId : String
  workspaceId : String
  projectId : Option String
  jobType : JobType
  queueName : String
  domainRunId : Option String
  retryOfJobId : Option String
  status : JobStatus
  currentAttemptNumber : ℕ
  maxAttempts : ℕ
  idempotencyKeyHash : String
  requestHash : String
  taskSchemaVersion : ℕ
  startedAt : Option Timestamp
  finishedAt : Option Timestamp
  cancelRequested : Bool
  retryable : Bool
  errorCode : Option String
  resultArtifactRefIds : List String
  createdAt : Timestamp
  updatedAt : Timestamp
  revision : ℕ
  deriving DecidableEq

structure JobAttempt where
  attemptId : String
  jobId : String
  attemptNumber : ℕ
  status : AttemptStatus
  executionTokenHash : String
  celeryTaskId : Option String
  workerIdHash : Option String
  heartbeatAt : Option Timestamp
  startedAt : Option Timestamp
  finishedAt : Option Timestamp
  errorCode : Option String
  retryable : Bool
  createdAt : Timestamp
  updatedAt : Timestamp
  deriving DecidableEq

structure OutboxEvent where
  outboxEventId : String
  jobId : String
  attemptId : String
  attemptNumber : ℕ
  taskSchemaVersion : ℕ
  requestHash : String
  messageDeduplicationKey : String
  status : OutboxStatus
  claimTokenHash : Option String
  leaseOwnerHash : Option String
  leaseUntil : Option Timestamp
  publishAttempt : ℕ
  lastPublishErrorCode : Option String
  publishedMessageId : Option String
  nextRetryAt : Option Timestamp
  createdAt : Timestamp
  updatedAt : Timestamp
  deriving DecidableEq

/-- A row of `job_requests`; the request is kept as its canonical JSON text. -/
structure JobRequestRow where
  jobId : String
  workspaceId : String
  projectId : Option String
  requestHash : String
  requestJson : String
  createdAt : Timestamp
  deriving DecidableEq

/-- The field constraints of `JobRecord` together with its model validator
`terminal_finished_at`. -/
structure JobRecord.Valid (j : JobRecord) : Prop where
  jobId : 1 ≤ j.jobId.length ∧ j.jobId.length ≤ 128
  queueName : 1 ≤ j.queueName.length ∧ j.queueName.length ≤ 128
  currentAttemptNumber : 1 ≤ j.currentAttemptNumber
  maxAttempts : 1 ≤ j.maxAttempts ∧ j.maxAttempts ≤ 100
  taskSchemaVersion : 1 ≤ j.taskSchemaVersion
  resultArtifactRefIds : j.resultArtifactRefIds.length ≤ 200
  revision : 1 ≤ j.revision
  terminalFinishedAt : j.status.Terminal ↔ j.finishedAt.isSome = true

theorem JobRecord.valid_iff (j : JobRecord) :
    j.Valid ↔ (1 ≤ j.jobId.length ∧ j.jobId.length ≤ 128) ∧
      (1 ≤ j.queueName.length ∧ j.queueName.length ≤ 128) ∧ 1 ≤ j.currentAttemptNumber ∧
      (1 ≤ j.maxAttempts ∧ j.maxAttempts ≤ 100) ∧ 1 ≤ j.taskSchemaVersion ∧
      j.resultArtifactRefIds.length ≤ 200 ∧ 1 ≤ j.revision ∧
      (j.status.Terminal ↔ j.finishedAt.isSome = true) :=
  ⟨fun ⟨a, b, c, d, e, f, g, h⟩ => ⟨a, b, c, d, e, f, g, h⟩,
    fun ⟨a, b, c, d, e, f, g, h⟩ => ⟨a, b, c, d, e, f, g, h⟩⟩

instance (j : JobRecord) : Decidable j.Valid := decidable_of_iff' _ j.valid_iff

end CodeResearch.ControlPlane
