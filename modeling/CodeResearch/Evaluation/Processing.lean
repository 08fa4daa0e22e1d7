import CodeResearch.DomainJobs.Runs

/-!
# Evaluation runs in process

`process_run`, `_mark_failed_if_needed` and `request_cancel` move a run through
`update_run`, which checks the change against one reading of the row and then writes
the whole record. A call is in flight between two of its transactions and holds the
copy of the record that it works on.
-/
namespace CodeResearch.DomainJobs

open ControlPlane (Timestamp)

/-- `_transition`. -/
def EvaluationRun.transition (run : EvaluationRun) (status : EvaluationStatus) (now : Timestamp) :
    EvaluationRun :=
  { run with status, updatedAt := now }

/-- `_terminal`. -/
def EvaluationRun.terminal (run : EvaluationRun) (status : EvaluationStatus) (complete : Bool)
    (reasons : List String) (now : Timestamp) : EvaluationRun :=
  { run with
    status, complete
    incompleteReasonCodes := reasons
    updatedAt := now
    finishedAt := some now }

/-- The record of `_mark_failed_if_needed`. -/
def EvaluationRun.fail (run : EvaluationRun) (errorCode : String) (now : Timestamp) :
    EvaluationRun :=
  { run with
    status := .failed
    complete := false
    errorCode := some errorCode
    incompleteReasonCodes := ["execution_failure"]
    updatedAt := now
    finishedAt := some now }

/-- The record of `request_cancel`. -/
def EvaluationRun.cancel (run : EvaluationRun) (now : Timestamp) : EvaluationRun :=
  { run with cancelRequested := true, updatedAt := now }

/-- What follows an update that has returned. -/
inductive Resumption
  | prepared | running | aggregated | ended | marked | cancelled
  deriving DecidableEq

inductive EvaluationCall
  /-- `process_run` before it reads the run -/
  | starting (runId : String)
  /-- its cases are executed -/
  | executing (run : EvaluationRun)
  /-- its metrics and bad cases are saved -/
  | scoring (run : EvaluationRun)
  /-- `_mark_failed_if_needed` before it reads the run -/
  | failing (runId errorCode : String)
  /-- `request_cancel` before it reads the run -/
  | cancelling (runId : String)
  /-- `update_run` before its reading; `copy` is the record that `new` was made from -/
  | checking (copy new : EvaluationRun) (next : Resumption)
  /-- `update_run` before its write -/
  | writing (copy new : EvaluationRun) (next : Resumption)
  deriving DecidableEq

namespace EvaluationCall

/-- `process_run` once its run is no longer queued. -/
def afterPrepared (run : EvaluationRun) (now : Timestamp) : EvaluationCall :=
  if run.cancelRequested then
    .checking run (run.terminal .cancelled false ["cancel_requested"] now) .ended
  else if run.status = .preparing then .checking run (run.transition .running now) .running
  else .executing run

/-- `process_run` after its first reading. -/
def afterStart (run : EvaluationRun) (now : Timestamp) : EvaluationCall :=
  if run.status = .queued then .checking run (run.transition .preparing now) .prepared
  else afterPrepared run now

/-- `process_run` once it is past the execution of its cases. -/
def afterAggregated (run : EvaluationRun) : EvaluationCall :=
  if run.status ∈ [EvaluationStatus.aggregating, .comparing] then .scoring run
  else .failing run.runId "evaluation_run_recovery_state_invalid"

/-- `process_run` after its reading of the latest run. -/
def afterExecuted (latest : EvaluationRun) (now : Timestamp) : EvaluationCall :=
  if latest.cancelRequested then
    .checking latest (latest.terminal .cancelled false ["cancel_requested"] now) .ended
  else if latest.status = .running then
    .checking latest (latest.transition .aggregating now) .aggregated
  else afterAggregated latest

/-- The end of `process_run`; `content` holds the new case counts. -/
def afterScored (run : EvaluationRun) (complete : Bool) (content : String) (now : Timestamp) :
    EvaluationCall :=
  .checking run
    ({ run with content }.terminal (if complete then .completed else .partialResult) complete
      (if complete then [] else ["case_result_incomplete"]) now) .ended

def afterUpdate (new : EvaluationRun) (now : Timestamp) : Resumption → Option EvaluationCall
  | .prepared => some (afterPrepared new now)
  | .running => some (.executing new)
  | .aggregated => some (afterAggregated new)
  | .ended | .marked | .cancelled => none

/-- What follows an error: `process_run` has its run marked as failed, the other calls raise. -/
def afterError (errorCode : String) : EvaluationCall → Option EvaluationCall
  | .starting runId => some (.failing runId errorCode)
  | .executing run | .scoring run => some (.failing run.runId errorCode)
  | .checking copy _ next | .writing copy _ next =>
    if next ∈ [Resumption.prepared, .running, .aggregated, .ended] then
      some (.failing copy.runId errorCode)
    else none
  | .failing _ _ | .cancelling _ => none

end EvaluationCall

structure Processing where
  runs : EvaluationRuns
  calls : List EvaluationCall
  /-- the runs for which `request_cancel` has returned -/
  cancelled : List String

inductive ProcessingLabel
  | prepare (request : EvaluationRunRequest) (now : Timestamp)
  | process (runId : String)
  | requestCancel (runId : String)
  /-- a call commits its next transaction -/
  | advance (k : ℕ) (now : Timestamp)
  /-- a call has saved its metrics and bad cases -/
  | score (k : ℕ) (complete : Bool) (content : String) (now : Timestamp)
  /-- an adapter, the metrics or the store raise in a call -/
  | raise (k : ℕ) (errorCode : String)
  /-- a call ends with its process -/
  | crash (k : ℕ)

namespace Processing

def init : Processing := ⟨.empty, [], []⟩

variable (cfg : RunConfig)

/-- The call goes on as `next`, or ends. -/
def resume (p : Processing) (k : ℕ) (next : Option EvaluationCall) : Processing :=
  { p with calls := next.toList ++ p.calls.eraseIdx k }

def advance (p : Processing) (k : ℕ) (now : Timestamp) : EvaluationCall → Option Processing
  | .starting runId => some <| p.resume k <|
    (p.runs.find? runId).map fun run => .afterStart run now
  | .executing run => some <| p.resume k <|
    (p.runs.find? run.runId).map fun latest => .afterExecuted latest now
  | .scoring _ => none
  | .failing runId errorCode => some <| p.resume k <|
    ((p.runs.find? runId).filter fun run => ¬ run.status.Terminal).map fun run =>
      .checking run (run.fail errorCode now) .marked
  | .cancelling runId => some <| p.resume k <|
    ((p.runs.find? runId).filter fun run => ¬ run.status.Terminal).map fun run =>
      .checking run (run.cancel now) .cancelled
  | .checking copy new next => some <|
    match checkEvaluationUpdate new p.runs with
    | .ok _ => p.resume k (some (.writing copy new next))
    | .error e => p.resume k (EvaluationCall.afterError (e.errorCode.getD "evaluation_run_failed")
        (.checking copy new next))
  | .writing copy new next => some <|
    match writeEvaluationUpdate new p.runs with
    | .ok runs =>
      { p.resume k (EvaluationCall.afterUpdate new now next) with
        runs
        cancelled := if next = .cancelled then new.runId :: p.cancelled else p.cancelled }
    | .error e => p.resume k (EvaluationCall.afterError (e.errorCode.getD "evaluation_run_failed")
        (.writing copy new next))

def step (p : Processing) : ProcessingLabel → Option Processing
  | .prepare request now =>
    match prepareEvaluationRun cfg request now p.runs with
    | .ok (_, runs) => some { p with runs }
    | .error _ => some p
  | .process runId => some { p with calls := .starting runId :: p.calls }
  | .requestCancel runId => some { p with calls := .cancelling runId :: p.calls }
  | .advance k now => p.calls[k]?.bind (p.advance k now)
  | .score k complete content now => p.calls[k]?.bind fun
    | .scoring run => some (p.resume k (some (.afterScored run complete content now)))
    | _ => none
  | .raise k errorCode => p.calls[k]?.map fun c => p.resume k (c.afterError errorCode)
  | .crash k => p.calls[k]?.map fun _ => p.resume k none

def machine : Machine Processing ProcessingLabel := ⟨step cfg⟩

end Processing

end CodeResearch.DomainJobs
