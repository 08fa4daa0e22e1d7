import CodeResearch.Team.Scheduler
import CodeResearch.Team.Store

/-!
# `execute_claimed_job` and the Team profile

The start of an execution reads the rows of its claim without a lock and writes copies
of what it read; other transactions may commit in between, so the two are separate steps.
The handler runs outside any transaction and `_finalize` records its outcome under the
locks of both rows.
-/
namespace CodeResearch.Team

open ControlPlane

inductive ExecutionError
  /-- `RuntimeError(code)` -/
  | runtime (code : String)
  /-- `pydantic.ValidationError` -/
  | invalid (e : StoreError)
  deriving DecidableEq

/-- What the handler of a job returns or raises. -/
inductive Outcome
  /-- The reference to a published archive. -/
  | published (artifactId : String)
  /-- No result references. -/
  | nothing
  /-- An exception, with its safe error code. -/
  | failed (errorCode : String)
  deriving DecidableEq

def Outcome.terminalAttempt : Outcome → AttemptStatus
  | .failed _ => .failedTerminal
  | _ => .succeeded

def Outcome.errorCode : Outcome → Option String
  | .failed code => some code
  | _ => none

def Outcome.resultRefs : Outcome → List String
  | .published artifactId => [artifactId]
  | _ => []

/-- `load` in a transaction that raises `RuntimeError` for its own refusals. -/
def loaded {ρ : Type} (Accepted : ρ → Prop) [DecidablePred Accepted] (json : ρ) :
    Except ExecutionError ρ :=
  (load Accepted json).mapError .invalid

section Hashing

variable (stableHash : String → String)

/-- The checks of the start transaction on the rows that it reads. -/
def JobRows.read (r : JobRows) (claim : Claim) :
    Except ExecutionError (JobRecord × JobAttempt) := do
  ensure (r.attempt.attemptId = claim.attemptId) (.runtime "claimed_job_not_visible_under_rls")
  let job ← loaded JobRecord.Accepted r.job.jobJson
  let attempt ← loaded JobAttempt.Accepted r.attempt.attemptJson
  ensure (stableHash claim.executionToken = r.attempt.executionTokenHash)
    (.runtime "stale_execution_token")
  ensure (job.requestHash = claim.requestHash) (.runtime "job_request_hash_mismatch")
  return (job, attempt)

def readClaimed (claim : Claim) (db : Database) :
    Except ExecutionError (JobRecord × JobAttempt) := do
  let r ← orError (.runtime "claimed_job_not_visible_under_rls") (db.jobs.find? claim.jobId)
  r.read stableHash claim

def JobRows.start (r : JobRows) (claim : Claim) (workerIdHash : String)
    (celeryTaskId : Option String) (job : JobRecord) (attempt : JobAttempt) (now : Timestamp) :
    JobRows :=
  { r with
    attempt :=
      if r.attempt.attemptId = claim.attemptId ∧
          r.attempt.executionTokenHash = stableHash claim.executionToken then
        r.attempt.write (runningAttempt attempt workerIdHash celeryTaskId now)
      else r.attempt
    job := r.job.write (runningJob job now) now }

def writeRunning (claim : Claim) (workerIdHash : String) (celeryTaskId : Option String)
    (job : JobRecord) (attempt : JobAttempt) (now : Timestamp) (db : Database) : Database :=
  match db.jobs.find? claim.jobId with
  | none => db
  | some r => db.update (r.start stableHash claim workerIdHash celeryTaskId job attempt now)

def CancelSeen (job : JobRecord) : Prop := job.cancelRequested = true ∨ job.status = .cancelling

instance (job : JobRecord) : Decidable (CancelSeen job) := inferInstanceAs (Decidable (_ ∨ _))

/-- The attempt status that `_finalize` writes. -/
def finalAttempt (job : JobRecord) (outcome : Outcome) : AttemptStatus :=
  if CancelSeen job then .cancelled else outcome.terminalAttempt

/-- The job status that `_finalize` writes. -/
def finalJob (job : JobRecord) (outcome : Outcome) : JobStatus :=
  if CancelSeen job then .cancelled
  else if outcome.terminalAttempt = .succeeded then .completed else .failed

/-- The error code that `_finalize` writes. -/
def finalErrorCode (job : JobRecord) (outcome : Outcome) : Option String :=
  if CancelSeen job then some "job_cancelled" else outcome.errorCode

/-- The rows that `_finalize` writes. -/
def JobRows.finish (r : JobRows) (job : JobRecord) (attempt : JobAttempt) (outcome : Outcome)
    (now : Timestamp) : JobRows :=
  { r with
    attempt := r.attempt.write
      (finishedAttempt attempt (finalAttempt job outcome) (finalErrorCode job outcome) now)
    job := r.job.write
      (finishedJob job (finalJob job outcome) (finalErrorCode job outcome) outcome.resultRefs now)
      now }

/-- The rows after `_finalize`; it writes nothing when the claim is no longer the current
one. -/
def JobRows.finalize (r : JobRows) (attemptId executionToken : String) (outcome : Outcome)
    (now : Timestamp) : Except StoreError JobRows :=
  if r.attempt.attemptId = attemptId ∧
      stableHash executionToken = r.attempt.executionTokenHash then do
    let job ← load JobRecord.Accepted r.job.jobJson
    let attempt ← load JobAttempt.Accepted r.attempt.attemptJson
    if job.currentAttemptNumber ≠ attempt.attemptNumber then return r
    else return r.finish job attempt outcome now
  else .ok r

/-- `_finalize`. -/
def finalize (jobId attemptId executionToken : String) (outcome : Outcome) (now : Timestamp)
    (db : Database) : Except StoreError Unit × Database :=
  match db.jobs.find? jobId with
  | none => (.ok (), db)
  | some r => transact db <|
      (r.finalize stableHash attemptId executionToken outcome now).map fun t => ((), db.update t)

end Hashing

/-- How far `execute_claimed_job` has come. -/
inductive Phase
  | claimed
  /-- It has read the two records and not yet written their copies. -/
  | read (job : JobRecord) (attempt : JobAttempt)
  | handling
  | ended
  deriving DecidableEq

/-- A task that holds a claim. -/
structure Execution where
  claim : Claim
  workerIdHash : String
  celeryTaskId : Option String
  phase : Phase
  deriving DecidableEq

/-- The rows, and the executions of each job in the order of their claims. -/
structure Profile where
  db : Database
  executions : String → List Execution

def Profile.start : Profile := ⟨.empty, fun _ => []⟩

/-- A committed transaction. -/
inductive Step
  | createJob (sub : JobSubmission) (ids : JobIds) (now : Timestamp)
  | createManualRetry (jobId manualHex : String) (ids : JobIds) (now : Timestamp)
  | register (row : WorkerRow)
  | claimOutboxBatch (dispatcherId : String) (minSchema maxSchema batchSize : ℕ)
      (locked : String → Bool) (tokens : String → String) (now : Timestamp)
  | acknowledge (eventId token messageId : String) (now : Timestamp)
  | claimNextJob (workerId : String) (capabilities : Capabilities) (queueNames : List String)
      (locked : String → Bool) (rawToken : String) (celeryTaskId : Option String)
      (now : Timestamp)
  | readClaimed (jobId : String) (k : ℕ)
  | writeRunning (jobId : String) (k : ℕ) (now : Timestamp)
  | finalize (jobId : String) (k : ℕ) (outcome : Outcome) (now : Timestamp)
  | requestCancel (jobId : String) (now : Timestamp)

/-- The upsert of `register`. -/
def Database.register (db : Database) (row : WorkerRow) : Database :=
  { db with
    workers := db.workers.upsert row (fun w => { row with workerIdHash := w.workerIdHash })
      (fun _ => rfl) }

namespace Profile

variable (p : Profile)

def moveTo (jobId : String) (k : ℕ) (x : Execution) (phase : Phase) : String → List Execution :=
  Function.update p.executions jobId ((p.executions jobId).set k { x with phase := phase })

section Hashing

variable (stableHash : String → String)

def claim (workerId : String) (celeryTaskId : Option String) : Option Claim × Database → Profile
  | (none, db) => { p with db := db }
  | (some c, db) =>
    { db := db
      executions := Function.update p.executions c.jobId
        (p.executions c.jobId ++ [⟨c, stableHash workerId, celeryTaskId, .claimed⟩]) }

/-- A raised start ends the execution without `_finalize`. -/
def readBy (jobId : String) (k : ℕ) (x : Execution) : Profile :=
  match Team.readClaimed stableHash x.claim p.db with
  | .ok (job, attempt) => { p with executions := p.moveTo jobId k x (.read job attempt) }
  | .error _ => { p with executions := p.moveTo jobId k x .ended }

def step (p : Profile) : Step → Profile
  | .createJob sub ids now => { p with db := (createJob stableHash sub ids now p.db).2 }
  | .createManualRetry jobId manualHex ids now =>
    { p with db := (createManualRetry stableHash jobId manualHex ids now p.db).2 }
  | .register row => { p with db := p.db.register row }
  | .claimOutboxBatch dispatcherId minSchema maxSchema batchSize locked tokens now =>
    { p with
      db := (claimOutboxBatch stableHash dispatcherId minSchema maxSchema batchSize locked tokens
        now p.db).2 }
  | .acknowledge eventId token messageId now =>
    { p with db := (acknowledgeOutboxPublish stableHash eventId token messageId now p.db).2 }
  | .claimNextJob workerId capabilities queueNames locked rawToken celeryTaskId now =>
    p.claim stableHash workerId celeryTaskId
      (claimNextJob stableHash workerId capabilities queueNames locked rawToken now p.db)
  | .readClaimed jobId k =>
    match (p.executions jobId)[k]? with
    | some x => if x.phase = .claimed then p.readBy stableHash jobId k x else p
    | none => p
  | .writeRunning jobId k now =>
    match (p.executions jobId)[k]? with
    | some x =>
      match x.phase with
      | .read job attempt =>
        { db := Team.writeRunning stableHash x.claim x.workerIdHash x.celeryTaskId job attempt now
            p.db
          executions := p.moveTo jobId k x .handling }
      | _ => p
    | none => p
  | .finalize jobId k outcome now =>
    match (p.executions jobId)[k]? with
    | some x =>
      if x.phase = .handling then
        { db := (Team.finalize stableHash x.claim.jobId x.claim.attemptId x.claim.executionToken
            outcome now p.db).2
          executions := p.moveTo jobId k x .ended }
      else p
    | none => p
  | .requestCancel jobId now => { p with db := (requestCancel jobId now p.db).2 }

end Hashing

end Profile

end CodeResearch.Team
