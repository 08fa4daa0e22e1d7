import CodeResearch.ControlPlane.Cancellation
import CodeResearch.ControlPlane.Completion
import CodeResearch.DomainJobs.Runs

/-!
# Jobs that wait for a domain run

The handler of a research, alignment or evaluation job creates its run, or finds the
one that an earlier attempt created, and polls it. The job backend, the three stores
and the handlers move in any order; a handler may raise at each of its awaits.
-/
namespace CodeResearch.DomainJobs

open ControlPlane
open Research (LeaseEvent)

inductive RunKind
  | research | alignment | evaluation
  deriving DecidableEq

/-- The store that the handler of a job waits for. -/
def runKind : JobType → Option RunKind
  | .research => some .research
  | .alignment => some .alignment
  | .evaluation => some .evaluation
  | _ => none

/-- The reference that the handler of a job returns. -/
def RunKind.reference : RunKind → String → String
  | research, runId => "business:research_run:" ++ runId
  | alignment, runId => "business:alignment_run:" ++ runId
  | evaluation, runId => "business:evaluation_run:" ++ runId

/-- The statuses at which a poll loop ends, and the text that it raises for a failed run. -/
structure Wait where
  doneStatuses : List String
  failure : String

/-- `_wait_research`. -/
def waitResearch : Wait :=
  ⟨["completed", "partial", "failed", "cancelled", "interrupted"], "research_run_failed"⟩

/-- `_wait_alignment`. -/
def waitAlignment : Wait :=
  ⟨["completed", "partial", "failed", "cancelled", "abandoned"], "alignment_run_failed"⟩

/-- `_wait_evaluation`. -/
def waitEvaluation : Wait :=
  ⟨["completed", "partial", "failed", "cancelled"], "evaluation_run_failed"⟩

def RunKind.wait : RunKind → Wait
  | research => waitResearch
  | alignment => waitAlignment
  | evaluation => waitEvaluation

/-- The tables of the three stores. -/
structure RunStores where
  research : ResearchRuns
  alignment : AlignmentRuns
  evaluation : EvaluationRuns
  /-- evaluation updates that were checked and are not yet written -/
  updates : List EvaluationRun

namespace RunStores

def empty : RunStores := ⟨.empty, .empty, .empty, []⟩

/-- `get_run(run_id)["status"]`. -/
def status? (runs : RunStores) : RunKind → String → Option String
  | .research, runId => (runs.research.find? runId).map fun r => r.leased.row.status.name
  | .alignment, runId => (runs.alignment.find? runId).map fun r => r.status.name
  | .evaluation, runId => (runs.evaluation.find? runId).map fun r => r.status.name

/-- What `get_run` raises for an unknown run. -/
def notFound : RunKind → String → JobError
  | .research, runId =>
    storeError "agent_run_not_found" ("Research run " ++ runId ++ " was not found.")
  | .alignment, runId => storeError "alignment_run_not_found" runId
  | .evaluation, runId => evaluationError "evaluation_run_not_found" runId

/-- `request_cancel` of the store of a kind. -/
def requestCancel (runs : RunStores) (now : Timestamp) :
    RunKind → String → Except JobError RunStores
  | .research, runId =>
    match stepResearch runId .cancel runs.research with
    | some research => .ok { runs with research }
    | none => .error (notFound .research runId)
  | .alignment, runId => do
    let alignment ← cancelAlignmentRun runId runs.alignment
    return { runs with alignment }
  | .evaluation, runId => do
    let evaluation ← cancelEvaluationRun runId now runs.evaluation
    return { runs with evaluation }

end RunStores

/-- What the services, the coordinators and the public API do to the stores. -/
inductive RunEvent
  | createResearch (request : ResearchRunRequest) (hex : String)
  | research (runId : String) (e : LeaseEvent)
  | createAlignment (request : AlignmentRunRequest)
  | alignmentStatus (runId : String) (status : AlignmentStatus)
      (allowedFrom : List AlignmentStatus) (errorCode : Option String)
  | cancelAlignment (runId : String)
  | activateAlignment (runId : String) (complete : Bool)
  | prepareEvaluation (request : EvaluationRunRequest) (now : Timestamp)
  | checkEvaluation (run : EvaluationRun)
  | writeEvaluation (k : ℕ)

/-- What the handler of a job has worked out when it creates its run. -/
inductive Preparation
  /-- the payload, the version or the runtime is refused -/
  | raised (e : JobError)
  | research (requestJson hex : String)
  | alignment (identity : AlignmentIdentity) (requestJson : String)
      (retryOfRunId : Option String)
  | evaluation (runFingerprintHash : String) (retryOfRunId : Option String) (content : String)
      (now : Timestamp)

section Stores

variable (cfg : RunConfig)

/-- One event of the stores; `none` if it cannot happen. -/
def RunStores.step (runs : RunStores) : RunEvent → Option RunStores
  | .createResearch request hex =>
    match createResearchRun cfg request hex runs.research with
    | .ok (_, research) => some { runs with research }
    | .error _ => some runs
  | .research runId e => (stepResearch runId e runs.research).map fun research =>
      { runs with research }
  | .createAlignment request =>
    match createAlignmentRun cfg request runs.alignment with
    | .ok (_, alignment) => some { runs with alignment }
    | .error _ => some runs
  | .alignmentStatus runId status allowedFrom errorCode =>
    some { runs with
      alignment := updateAlignmentStatus runId status allowedFrom errorCode runs.alignment }
  | .cancelAlignment runId =>
    match cancelAlignmentRun runId runs.alignment with
    | .ok alignment => some { runs with alignment }
    | .error _ => some runs
  | .activateAlignment runId complete =>
    some { runs with alignment := activateAlignmentRun runId complete runs.alignment }
  | .prepareEvaluation request now =>
    match prepareEvaluationRun cfg request now runs.evaluation with
    | .ok (_, evaluation) => some { runs with evaluation }
    | .error _ => some runs
  | .checkEvaluation run =>
    match checkEvaluationUpdate run runs.evaluation with
    | .ok _ => some { runs with updates := runs.updates ++ [run] }
    | .error _ => some runs
  | .writeEvaluation k => runs.updates[k]?.map fun run =>
    match writeEvaluationUpdate run runs.evaluation with
    | .ok evaluation => { runs with evaluation, updates := runs.updates.eraseIdx k }
    | .error _ => { runs with updates := runs.updates.eraseIdx k }

/-- `_caller_scope`. -/
def callerScope (job : JobRecord) : String :=
  "control:" ++ job.workspaceId ++ ":" ++ (job.projectId.filter (· ≠ "")).getD "shared"

/-- The run of a job, created or found; `none` if the preparation is not one of its kind. -/
def prepareRun (job : JobRecord) (runs : RunStores) (p : Preparation) :
    Option (Except JobError String × RunStores) :=
  match runKind job.jobType, p with
  | some _, .raised e => some (.error e, runs)
  | some .research, .research requestJson hex =>
    some <| match createResearchRun cfg ⟨requestJson, callerScope job, some job.jobId⟩ hex
        runs.research with
    | .ok (runId, research) => (.ok runId, { runs with research })
    | .error e => (.error e, runs)
  | some .alignment, .alignment identity requestJson retryOfRunId =>
    some <| match createAlignmentRun cfg
        ⟨identity, requestJson, callerScope job, some job.jobId, retryOfRunId⟩ runs.alignment with
    | .ok (runId, alignment) => (.ok runId, { runs with alignment })
    | .error e => (.error e, runs)
  | some .evaluation, .evaluation fingerprint retryOfRunId content now =>
    some <| match prepareEvaluationRun cfg ⟨fingerprint, retryOfRunId, false, none, content⟩ now
        runs.evaluation with
    | .ok (runId, evaluation) => (.ok runId, { runs with evaluation })
    | .error e => (.error e, runs)
  | _, _ => none

end Stores

inductive HandlerState
  | waiting (runId : String)
  /-- the status at which the poll loop ended -/
  | returned (runId status : String)
  | raised (e : JobError)
  deriving DecidableEq

/-- A domain handler of a running task. -/
structure Handler where
  attemptId : String
  kind : RunKind
  state : HandlerState
  deriving DecidableEq

/-- What a handler hands to `_execute`, once it has ended. -/
def Handler.outcome (h : Handler) : Option (Except JobError (List String)) :=
  match h.state with
  | .waiting _ => none
  | .returned runId _ => some (.ok [h.kind.reference runId])
  | .raised e => some (.error e)

structure DomainSystem where
  backend : Backend
  runs : RunStores
  handlers : Table Handler.attemptId

inductive DomainEvent
  /-- an event of the backend that ends no domain handler -/
  | backend (ev : Event)
  | runs (ev : RunEvent)
  | prepare (attemptId : String) (p : Preparation)
  | poll (attemptId : String) (due : Bool) (now : Timestamp)
  /-- an exception at an await of a handler -/
  | raise (attemptId : String) (e : JobError)
  | finish (attemptId : String) (env : CallEnv)

/-- The configuration of the backend and of the stores. -/
structure DomainConfig where
  backend : BackendConfig
  runs : RunConfig

namespace DomainSystem

def empty : DomainSystem := ⟨.boot .empty [], .empty, .empty⟩

variable (cfg : DomainConfig) (d : DomainSystem)

/-- The handlers of tasks that ended or died are forgotten. -/
def settle (b : Backend) : DomainSystem :=
  { d with
    backend := b
    handlers := d.handlers.deleteWhere fun h => (b.handling h.attemptId).isNone }

def become (h : Handler) (state : HandlerState) : DomainSystem :=
  { d with handlers := d.handlers.replace { h with state } }

/-- `context.cancel_requested()`. -/
def cancelRequested (t : Task) : Except JobError Bool :=
  match (getJob t.jobId d.backend.store).1 with
  | .ok job => .ok job.cancelRequested
  | .error e => .error (.store e)

/-- `checkpoint_if_due`; the heartbeat is recorded in the backend. -/
def checkpointIfDue (t : Task) (due : Bool) (now : Timestamp) : Except JobError Unit := do
  if due then
    let _ ← ((heartbeatAttempt cfg.backend.stableHash t.attemptId t.created.executionToken now
      d.backend.store).1.mapError .store)
  if d.backend.flagOf t.attemptId then throw .shutdownRequested
  if ← d.cancelRequested t then throw .cancelled

/-- One round of a poll loop after its checkpoint. -/
def pollRun (t : Task) (h : Handler) (runId : String) (now : Timestamp) : DomainSystem :=
  match d.runs.status? h.kind runId with
  | none => d.become h (.raised (RunStores.notFound h.kind runId))
  | some status =>
    if status ∈ h.kind.wait.doneStatuses then
      if status = "failed" then d.become h (.raised (.other none h.kind.wait.failure))
      else d.become h (.returned runId status)
    else
      match d.cancelRequested t with
      | .error e => d.become h (.raised e)
      | .ok false => d
      | .ok true =>
        match d.runs.requestCancel now h.kind runId with
        | .error e => d.become h (.raised e)
        | .ok runs => { d with runs }

def poll (t : Task) (h : Handler) (runId : String) (due : Bool) (now : Timestamp) :
    DomainSystem :=
  let beaten :=
    if due then { d with backend := Backend.heartbeat cfg.backend d.backend t now } else d
  match d.checkpointIfDue cfg t due now with
  | .error e => beaten.become h (.raised e)
  | .ok _ => beaten.pollRun t h runId now

def Foreign : Event → Prop
  | .finishTask attemptId _ _ =>
    ∀ t ∈ d.backend.handling attemptId, runKind t.created.job.jobType = none
  | _ => True

instance (ev : Event) : Decidable (d.Foreign ev) :=
  match ev with
  | .finishTask attemptId _ _ =>
    inferInstanceAs (Decidable (∀ t ∈ d.backend.handling attemptId, _))
  | .start .. | .submit .. | .cancel .. | .retry .. | .beginTask .. | .heartbeat ..
  | .shutdownBegin | .shutdownDeadline | .shutdownLost .. | .shutdownEnd | .crash => isTrue trivial

/-- One event; `none` if it cannot happen in the state. -/
def step : DomainEvent → Option DomainSystem
  | .backend ev =>
    if d.Foreign ev then (d.backend.step cfg.backend ev).map d.settle else none
  | .runs ev => (d.runs.step cfg.runs ev).map fun runs => { d with runs }
  | .prepare attemptId p =>
    (d.backend.handling attemptId).bind fun t =>
      (runKind t.created.job.jobType).bind fun kind =>
        (prepareRun cfg.runs t.created.job d.runs p).bind fun (result, runs) =>
          let state := match result with
            | .ok runId => .waiting runId
            | .error e => .raised e
          (d.handlers.insert ⟨attemptId, kind, state⟩).map fun handlers => { d with runs, handlers }
  | .poll attemptId due now =>
    (d.backend.handling attemptId).bind fun t =>
      (d.handlers.find? attemptId).bind fun h =>
        match h.state with
        | .waiting runId => some (d.poll cfg t h runId due now)
        | _ => none
  | .raise attemptId e =>
    (d.handlers.find? attemptId).map fun h => d.become h (.raised e)
  | .finish attemptId env =>
    (d.handlers.find? attemptId).bind fun h =>
      h.outcome.bind fun outcome =>
        if ∃ t ∈ d.backend.handling attemptId, runKind t.created.job.jobType = some h.kind then
          (d.backend.step cfg.backend (.finishTask attemptId outcome env)).map d.settle
        else none

def machine : Machine DomainSystem DomainEvent := ⟨step cfg⟩

end DomainSystem

end CodeResearch.DomainJobs
