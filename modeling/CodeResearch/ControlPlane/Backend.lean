import CodeResearch.ControlPlane.Execution

/-!
# The in-process job backend as an event-loop machine

A state is the persistent store together with the tasks of the process. An event
is what the loop runs between two awaits: an API call, one segment of a task, a
heartbeat, one step of the shutdown, the start of a new process. Tasks that are
still in their handlers when a shutdown gives up on them go on as `detached`
tasks next to the following process, until the old loop or the process ends.
-/
namespace CodeResearch.ControlPlane

/-- A scheduled `_execute` task, waiting for the semaphore or in its handler. -/
structure Task where
  created : CreatedJob
  running : Bool
  deriving DecidableEq

def Task.jobId (t : Task) : String := t.created.job.jobId
def Task.attemptId (t : Task) : String := t.created.attempt.attemptId

structure Backend where
  store : Store
  /-- `_tasks` and `_active` -/
  tasks : List Task
  detached : List Task
  accepting : Bool
  shutdownRequested : Bool
  started : Bool

/-- A new process over a store. -/
def Backend.boot (s : Store) (detached : List Task) : Backend where
  store := s
  tasks := []
  detached := detached
  accepting := true
  shutdownRequested := false
  started := false

structure BackendConfig where
  stableHash : String → String
  concurrency : ℕ
  /-- the job types in `handlers` -/
  hasHandler : JobType → Bool

inductive Event
  | start (fresh : String → AttemptIds) (now : Timestamp)
  | submit (sub : JobSubmission) (ids : JobIds) (now : Timestamp)
  | cancel (jobId : String) (now : Timestamp)
  | retry (jobId manualHex : String) (ids : JobIds) (now : Timestamp)
  | beginTask (attemptId : String) (env : CallEnv)
  | heartbeat (attemptId : String) (now : Timestamp)
  | finishTask (attemptId : String) (outcome : Except JobError (List String)) (env : CallEnv)
  | shutdownBegin
  | shutdownDeadline
  | shutdownLost (attemptId : String) (env : CallEnv)
  | shutdownEnd
  | crash

namespace Backend

/-- `_schedule`; no task of the job is scheduled when it is called. -/
def schedule (b : Backend) (created : CreatedJob) : Backend :=
  { b with tasks := b.tasks ++ [⟨created, false⟩] }

/-- The task of an attempt, if it has reached its handler exactly when `running`. -/
def task? (tasks : List Task) (attemptId : String) (running : Bool) : Option Task :=
  tasks.find? fun t => t.attemptId = attemptId ∧ t.running = running

def drop (tasks : List Task) (attemptId : String) : List Task :=
  tasks.filter fun t => t.attemptId ≠ attemptId

def enter (tasks : List Task) (attemptId : String) : List Task :=
  tasks.map fun t => if t.attemptId = attemptId then { t with running := true } else t

/-- The `finally` clause of `_execute` and the scheduling of its retry. -/
def settle (b : Backend) (attemptId : String) : Progress → Backend
  | .inHandler => { b with tasks := enter b.tasks attemptId }
  | .ended none => { b with tasks := drop b.tasks attemptId }
  | .ended (some retry) =>
    if b.shutdownRequested then { b with tasks := drop b.tasks attemptId }
    else schedule { b with tasks := drop b.tasks attemptId } retry

variable (cfg : BackendConfig)

/-- `start`; if the recovery raises, the process ends. -/
def start (b : Backend) (fresh : String → AttemptIds) (now : Timestamp) : Backend :=
  match recoverIncompleteJobs cfg.stableHash fresh now b.store with
  | (.ok recovered, s) =>
    { b with store := s, started := true, tasks := recovered.map fun c => ⟨c, false⟩ }
  | (.error _, s) => boot s b.detached

def submit (b : Backend) (sub : JobSubmission) (ids : JobIds) (now : Timestamp) : Backend :=
  if b.accepting then
    match createJob cfg.stableHash sub ids now b.store with
    | (.ok created, s) =>
      if created.executionToken ≠ "" ∧ created.job.jobId ∉ b.tasks.map Task.jobId then
        schedule { b with store := s } created
      else { b with store := s }
    | (.error _, s) => { b with store := s }
  else b

def cancel (b : Backend) (jobId : String) (now : Timestamp) : Backend :=
  match (getJob jobId b.store).1 with
  | .ok job =>
    if job.status.Terminal then b
    else { b with store := (requestCancel jobId now b.store).2 }
  | .error _ => b

/-- `retry` creates the job before it asks whether the backend still accepts jobs. -/
def retry (b : Backend) (jobId manualHex : String) (ids : JobIds) (now : Timestamp) : Backend :=
  match createManualRetry cfg.stableHash jobId manualHex ids now b.store with
  | (.ok created, s) =>
    if b.accepting then schedule { b with store := s } created else { b with store := s }
  | (.error _, s) => { b with store := s }

def beginTask (b : Backend) (t : Task) (env : CallEnv) : Backend :=
  let result := (executeStart cfg.stableHash env (cfg.hasHandler t.created.job.jobType)
    b.shutdownRequested t.created).runOn b.store
  settle { b with store := result.2 } t.attemptId (.ofResult result.1)

def finishTask (b : Backend) (t : Task) (outcome : Except JobError (List String))
    (env : CallEnv) : Backend :=
  let result := (executeEnd cfg.stableHash env b.shutdownRequested t.created outcome).runOn b.store
  settle { b with store := result.2 } t.attemptId (.ofResult result.1)

def finishDetached (b : Backend) (t : Task) (outcome : Except JobError (List String))
    (env : CallEnv) : Backend :=
  let result := (executeEnd cfg.stableHash env true t.created outcome).runOn b.store
  { b with store := result.2, detached := drop b.detached t.attemptId }

/-- `context.checkpoint` of a task in its handler. -/
def heartbeat (b : Backend) (t : Task) (now : Timestamp) : Backend :=
  { b with store := (heartbeatAttempt cfg.stableHash t.attemptId t.created.executionToken now
      b.store).2 }

/-- The shutdown gives up on a task: a waiting task ends, a running one is told
to. If `_finish_safely` raises, the task is not cancelled. -/
def shutdownLost (b : Backend) (t : Task) (env : CallEnv) : Backend :=
  let result := (finishSafely cfg.stableHash env t.created .lost "application_shutdown").runOn
    b.store
  match result.1 with
  | .ok _ =>
    if t.running then { b with store := result.2 }
    else { b with store := result.2, tasks := drop b.tasks t.attemptId }
  | .error _ => { b with store := result.2 }

/-- One event; `none` if the event cannot happen in the state. -/
def step (b : Backend) : Event → Option Backend
  | .start fresh now => if ¬ b.started ∧ b.tasks = [] then some (start cfg b fresh now) else none
  | .submit sub ids now => some (submit cfg b sub ids now)
  | .cancel jobId now => some (cancel b jobId now)
  | .retry jobId manualHex ids now => some (retry cfg b jobId manualHex ids now)
  | .beginTask attemptId env =>
    if (b.tasks.filter Task.running).length < cfg.concurrency then
      (task? b.tasks attemptId false).map fun t => beginTask cfg b t env
    else none
  | .heartbeat attemptId now =>
    (task? (b.tasks ++ b.detached) attemptId true).map fun t => heartbeat cfg b t now
  | .finishTask attemptId outcome env =>
    match task? b.tasks attemptId true with
    | some t => some (finishTask cfg b t outcome env)
    | none => (task? b.detached attemptId true).map fun t => finishDetached cfg b t outcome env
  | .shutdownBegin => some { b with accepting := false }
  | .shutdownDeadline => if b.accepting then none else some { b with shutdownRequested := true }
  | .shutdownLost attemptId env =>
    if b.shutdownRequested then
      (b.tasks.find? fun t => t.attemptId = attemptId).map fun t => shutdownLost cfg b t env
    else none
  | .shutdownEnd =>
    if b.shutdownRequested then some (boot b.store (b.detached ++ b.tasks)) else none
  | .crash => some (boot b.store [])

def machine : Machine Backend Event := ⟨step cfg⟩

end Backend

/-- A configuration on which runs are evaluated. -/
def sampleConfig : BackendConfig where
  stableHash := id
  concurrency := 2
  hasHandler := fun _ => true

end CodeResearch.ControlPlane
