import CodeResearch.Research.Graph
import CodeResearch.Research.RunStore

/-!
# One execution of a run by the coordinator

`_execute_run_impl` streams the graph and publishes every state that it emits.
Each publication reads the row first and then compares the status that it saw,
so that a cancellation may come between the two.
-/
namespace CodeResearch.Research

/-- `_current_runtime`. -/
def currentRuntime (s : ResearchState) : Option PlanStepRuntime :=
  let active := s.stepRuntime.filter fun r => r.status = .resolving ∨ r.status = .running
  active.getLast? <|> s.stepRuntime.getLast?

def resultView (s : ResearchState) : ResultView where
  currentStep := currentRuntime s
  observations := s.observations
  evidenceIds := s.evidenceIds
  answer := s.answer
  context := s.context
  warnings := s.errors.map AgentError.message

/-- `AgentBudget().snapshot(state)`. -/
def budgetSnapshot (s : ResearchState) : BudgetSnapshot where
  toolCallCount := s.toolCallCount
  toolReuseCount := s.toolReuseCount
  replanCount := s.replanCount
  toolFailureCount := s.toolFailureCount

/-- What the coordinator catches. -/
inductive RunFault
  | agent (fault : AgentFault)
  | store (error : RunStoreError)
  deriving DecidableEq

def RunFault.errorCode : RunFault → String
  | agent fault => fault.errorCode "agent_run_failed"
  | store error => error.errorCode

def RunFault.message : RunFault → String
  | agent fault => fault.message
  | store error => error.message

section Publications

variable (s : ResearchState) (fault : RunFault) (seen : RunStatus) (row : RunRow)

/-- The write of `_publish_state`; a refused one is suppressed. -/
def publishState : RunRow :=
  (updateStatus row s.status seen
    { route := some s.route
      result := some (resultView s)
      budget := some (budgetSnapshot s)
      errors := some s.errors }).toOption.getD row

/-- The status that `_publish_terminal` writes. -/
def terminalTarget : RunStatus :=
  let target := if seen = .cancelling ∨ s.cancelRequested then .cancelled else s.status
  if target.Terminal then target else .partialResult

/-- The write of `_publish_terminal`. -/
def publishTerminal : Except RunStoreError RunRow :=
  updateStatus row (terminalTarget s seen) seen
    { route := some s.route
      stopReason := s.stopReason
      result := some (resultView s)
      budget := some (budgetSnapshot s)
      errors := some s.errors }

/-- The write of the `except Exception` handler. -/
def publishFailure : RunRow :=
  (updateStatus row .failed seen
    { stopReason := some fault.errorCode
      retryable := some false
      errors := some
        [{ errorCode := fault.errorCode
           component := "research_coordinator"
           message := fault.message }] }).toOption.getD row

def publishInterrupted (reason : String) : RunRow :=
  (updateStatus row .interrupted seen
    { stopReason := some reason, retryable := some true }).toOption.getD row

end Publications

inductive Phase
  | opening
  /-- a run that was cancelled before it started -/
  | stopping (seen : RunStatus)
  | streaming (p : Position)
  | emitted (p : Position)
  | publishing (p : Position) (seen : RunStatus)
  | finished (s : ResearchState)
  | finalizing (s : ResearchState) (seen : RunStatus)
  | raised (fault : RunFault)
  | failing (fault : RunFault) (seen : RunStatus)
  | done
  deriving DecidableEq

structure Coordination where
  row : RunRow
  phase : Phase
  deriving DecidableEq

inductive CoordinatorEvent
  /-- `request_cancel`, from the API or from a control-plane job -/
  | cancel
  /-- the graph runs its next node -/
  | node (i : Input)
  /-- the coordinator takes its next step -/
  | proceed
  deriving DecidableEq

def Position.resume : Position → Phase
  | running node s => .streaming (running node s)
  | ended s => .finished s
  | raised _ _ fault => .raised (.agent fault)

def Position.emit : Position → Phase
  | raised _ _ fault => .raised (.agent fault)
  | p => .emitted p

def Input.Reads (i : Input) (row : RunRow) : Prop :=
  i.cancelRequested = row.cancelRequested ∧ (row.cancelRequested = true → i.cancelBefore = true) ∧
    (i.cancelBefore = true → i.cancelAfter = true)

instance (i : Input) (row : RunRow) : Decidable (i.Reads row) :=
  inferInstanceAs (Decidable (_ ∧ _))

namespace Coordination

variable (rt : Runtime) (request : ResearchRequest)

/-- A new run before its execution. -/
def start : Coordination := ⟨{ runId := request.runId }, .opening⟩

/-- The next step of `_execute_run_impl` outside the graph. -/
def proceed (row : RunRow) : Phase → Option Coordination
  | .opening =>
    if row.status = .cancelling ∨ row.cancelRequested then some ⟨row, .stopping row.status⟩
    else some ⟨row, .emitted (.start request)⟩
  | .stopping seen =>
    match updateStatus row .cancelled seen {} with
    | .ok row' => some ⟨row', .done⟩
    | .error error => some ⟨row, .raised (.store error)⟩
  | .streaming _ => none
  | .emitted p =>
    if p.state.status.Terminal ∨ row.status = .cancelling then some ⟨row, p.resume⟩
    else some ⟨row, .publishing p row.status⟩
  | .publishing p seen => some ⟨publishState p.state seen row, p.resume⟩
  | .finished s => some ⟨row, .finalizing s row.status⟩
  | .finalizing s seen =>
    match publishTerminal s seen row with
    | .ok row' => some ⟨row', .done⟩
    | .error error => some ⟨row, .raised (.store error)⟩
  | .raised fault =>
    if row.status.Terminal then some ⟨row, .done⟩ else some ⟨row, .failing fault row.status⟩
  | .failing fault seen => some ⟨publishFailure fault seen row, .done⟩
  | .done => none

def runNode (i : Input) (row : RunRow) : Phase → Option Coordination
  | .streaming p =>
    if i.Reads row then
      (p.step rt i).map fun q => ⟨if i.cancelAfter then requestCancel row else row, q.emit⟩
    else none
  | _ => none

def step (c : Coordination) : CoordinatorEvent → Option Coordination
  | .cancel => some { c with row := requestCancel c.row }
  | .node i => runNode rt i c.row c.phase
  | .proceed => proceed request c.row c.phase

def machine : Machine Coordination CoordinatorEvent := ⟨step rt request⟩

end Coordination

end CodeResearch.Research
