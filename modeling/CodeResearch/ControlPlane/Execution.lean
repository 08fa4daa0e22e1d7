import CodeResearch.Library.Exec
import CodeResearch.ControlPlane.Operations

/-!
# One `_execute` task of the in-process job backend

The coroutine awaits twice: for the semaphore and for its handler. What it does
from the one to the other, and from the handler's outcome to its end, runs
without interleaving. Each store call may raise instead of being performed; the
fault of every call site is an argument, as are the clock and the identifiers of
a retry attempt.
-/
namespace CodeResearch.ControlPlane

/-- The exceptions that `_execute` and `classify_job_error` distinguish. -/
inductive JobError
  /-- raised inside a store operation -/
  | store (e : StoreError)
  /-- `sqlite3.OperationalError`, with `busy` if its text contains `locked` or `busy` -/
  | operational (busy : Bool)
  | artifactSecurity (code : String)
  | retryable (errorCode : String)
  | shutdownRequested
  /-- `asyncio.CancelledError` -/
  | cancelled
  /-- any other exception, with its `error_code` attribute and its text -/
  | other (errorCode : Option String) (message : String)
  deriving DecidableEq

/-- `getattr(exc, "error_code", None)`. -/
def JobError.errorCode : JobError → Option String
  | .retryable errorCode => some errorCode
  | .other errorCode _ => errorCode
  | _ => none

/-- `str(exc)` where it may be one of the public messages. -/
def JobError.message : JobError → String
  | .retryable errorCode => errorCode
  | .other _ message => message
  | _ => ""

/-- The messages that `classify_job_error` passes on as codes. -/
def publicMessages : List String :=
  ["research_run_failed", "alignment_run_failed", "evaluation_run_failed",
    "research_runtime_unavailable", "alignment_runtime_unavailable",
    "evaluation_runtime_unavailable", "live_evaluation_requires_explicit_v2_consent"]

def classifyJobError (e : JobError) : AttemptStatus × String :=
  match e with
  | .store (.controlPlane code) =>
    (if code ∈ ["local_store_busy", "artifact_store_temporarily_unavailable"] then
      .failedRetryable else .failedTerminal, code)
  | .artifactSecurity code => (.failedTerminal, code)
  | .store .validation => (.failedTerminal, "job_payload_invalid")
  | .operational true => (.failedRetryable, "local_store_busy")
  | e =>
    match e.errorCode.filter (· ≠ "") with
    | some code => (.failedTerminal, code)
    | none =>
      if e.message ∈ publicMessages then (.failedTerminal, e.message)
      else (.failedTerminal, "job_internal_error")

/-- The store calls of `_execute`, in the order of its text. -/
inductive Site
  | getJobStart | completeCancelledStart | dispatching | outboxConsumed | dispatched
  | attemptDispatched | attemptClaimed | attemptRunning | jobRunning | completeHandlerMissing
  | getJobEnd | completeCancelledEnd | completeSucceeded
  | completeRetryable | createRetry | finishSafely
  deriving DecidableEq

/-- What a store call may raise without being performed. -/
inductive Fault
  | controlPlane (code : String)
  | locked
  deriving DecidableEq

def Fault.toError : Fault → JobError
  | .controlPlane code => .store (.controlPlane code)
  | .locked => .operational true

/-- The environment of one segment of `_execute`. -/
structure CallEnv where
  fault : Site → Option Fault
  clock : Site → Timestamp
  ids : AttemptIds

def CallEnv.faultless (ids : AttemptIds) (now : Timestamp) : CallEnv :=
  ⟨fun _ => none, fun _ => now, ids⟩

def call {α : Type} (env : CallEnv) (site : Site)
    (op : Timestamp → Store → Except StoreError α × Store) : Exec JobError Store α :=
  Exec.prim fun s =>
    match env.fault site with
    | some f => (.error f.toError, s)
    | none => ((op (env.clock site) s).1.mapError .store, (op (env.clock site) s).2)

section Hashing

variable (stableHash : String → String)

/-- The text of `_execute` from the semaphore to the call of the handler, and
whether the handler is called. -/
def beginExecution (env : CallEnv) (hasHandler : Bool) (created : CreatedJob) :
    Exec JobError Store Bool := do
  let jobId := created.job.jobId
  let attemptId := created.attempt.attemptId
  let token := created.executionToken
  let job ← call env .getJobStart fun _ => getJob jobId
  if job.status = .cancelling then
    let _ ← call env .completeCancelledStart
      (completeAttempt stableHash attemptId token .cancelled (some "job_cancelled") none)
    return false
  else
    let _ ← call env .dispatching (transitionJob jobId .dispatching none none)
    let _ ← call env .outboxConsumed (markOutboxConsumedLocal created.outbox.outboxEventId)
    let _ ← call env .dispatched (transitionJob jobId .dispatched none none)
    let _ ← call env .attemptDispatched
      (transitionAttempt stableHash attemptId token .dispatched none none)
    let _ ← call env .attemptClaimed
      (transitionAttempt stableHash attemptId token .claimed
        (some (stableHash "local-in-process")) none)
    let _ ← call env .attemptRunning
      (transitionAttempt stableHash attemptId token .running none none)
    let _ ← call env .jobRunning (transitionJob jobId .running none none)
    if hasHandler then return true
    else
      let _ ← call env .completeHandlerMissing
        (completeAttempt stableHash attemptId token .failedTerminal (some "job_handler_missing")
          none)
      return false

/-- The text of `_execute` from the outcome of the handler on. -/
def completeExecution (env : CallEnv) (created : CreatedJob)
    (outcome : Except JobError (List String)) : Exec JobError Store Unit :=
  match outcome with
  | .error e => throw e
  | .ok resultRefs => do
    let attemptId := created.attempt.attemptId
    let token := created.executionToken
    let current ← call env .getJobEnd fun _ => getJob created.job.jobId
    if current.status = .cancelling then
      let _ ← call env .completeCancelledEnd
        (completeAttempt stableHash attemptId token .cancelled (some "job_cancelled") none)
    else
      let _ ← call env .completeSucceeded
        (completeAttempt stableHash attemptId token .succeeded none (some resultRefs))

/-- `_finish_safely`. -/
def finishSafely (env : CallEnv) (created : CreatedJob) (status : AttemptStatus)
    (errorCode : String) : Exec JobError Store Unit :=
  tryCatch
    (do
      let _ ← call env .finishSafely
        (completeAttempt stableHash created.attempt.attemptId created.executionToken status
          (some errorCode) none))
    fun e =>
      match e with
      | .store (.controlPlane code) =>
        if code ∈ ["late_attempt_result", "stale_execution_token", "invalid_attempt_transition"]
        then pure () else throw e
      | e => throw e

/-- The two branches that finalise an attempt as retryable; they differ in the
exceptions they swallow once the attempts are used up. -/
def failRetryably (env : CallEnv) (created : CreatedJob) (errorCode : String)
    (swallows : JobError → Bool) : Exec JobError Store (Option CreatedJob) := do
  let (_, job) ← call env .completeRetryable
    (completeAttempt stableHash created.attempt.attemptId created.executionToken
      .failedRetryable (some errorCode) none)
  if job.currentAttemptNumber < job.maxAttempts then
    let retry ← call env .createRetry (createRetryAttempt stableHash job.jobId env.ids)
    return some retry
  else
    tryCatch
      (do let _ ← call env .createRetry (createRetryAttempt stableHash job.jobId env.ids))
      fun e => if swallows e then pure () else throw e
    return none

/-- `except ControlPlaneError`. -/
def JobError.isControlPlane : JobError → Bool
  | .store (.controlPlane _) => true
  | _ => false

/-- The `except` clauses of `_execute`. -/
def handleError (env : CallEnv) (shutdownRequested : Bool) (created : CreatedJob)
    (e : JobError) : Exec JobError Store (Option CreatedJob) :=
  match e with
  | .shutdownRequested => do
    finishSafely stableHash env created .lost "application_shutdown"
    return none
  | .cancelled => do
    finishSafely stableHash env created (if shutdownRequested then .lost else .cancelled)
      (if shutdownRequested then "application_shutdown" else "job_cancelled")
    return none
  | .retryable errorCode => failRetryably stableHash env created errorCode fun _ => true
  | e =>
    if (classifyJobError e).1 = .failedRetryable then
      failRetryably stableHash env created (classifyJobError e).2 JobError.isControlPlane
    else do
      finishSafely stableHash env created (classifyJobError e).1 (classifyJobError e).2
      return none

/-- Where a segment of `_execute` leaves its task. -/
inductive Progress
  | inHandler
  | ended (retry : Option CreatedJob)
  deriving DecidableEq

/-- The segment from the semaphore on. -/
def executeStart (env : CallEnv) (hasHandler shutdownRequested : Bool) (created : CreatedJob) :
    Exec JobError Store Progress :=
  tryCatch
    (do
      if ← beginExecution stableHash env hasHandler created then return .inHandler
      else return .ended none)
    fun e => do return .ended (← handleError stableHash env shutdownRequested created e)

/-- The segment from the handler's outcome on. -/
def executeEnd (env : CallEnv) (shutdownRequested : Bool) (created : CreatedJob)
    (outcome : Except JobError (List String)) : Exec JobError Store Progress :=
  tryCatch
    (do
      completeExecution stableHash env created outcome
      return .ended none)
    fun e => do return .ended (← handleError stableHash env shutdownRequested created e)

def Progress.ofResult : Except JobError Progress → Progress
  | .ok p => p
  | .error _ => .ended none

theorem Progress.ofResult_some {r : Except JobError Progress × Store} {retry : CreatedJob}
    (h : Progress.ofResult r.1 = .ended (some retry)) :
    ∃ s, r = (.ok (.ended (some retry)), s) := by
  rcases r with ⟨_ | p, s⟩
  · simp [Progress.ofResult] at h
  · exact ⟨s, by rw [← h]; rfl⟩

end Hashing

end CodeResearch.ControlPlane
