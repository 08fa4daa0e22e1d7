import CodeResearch.Library.Machine
import CodeResearch.Research.Answer
import CodeResearch.Research.Tools

/-!
# The research graph

A node maps the state to the state with its update merged in, or raises. What a
node asks of its environment is the input of the step: the stored cancel flag,
the router, the planner, the tool's handler, the read stores and the generator.
-/
namespace CodeResearch.Research

inductive Node
  | routeQuery | directRetrieve | createPlan | validatePlan | resolveStepArguments
  | markStepRunning | executeStep | assessEvidence | replan | markRemainingStepsSkipped
  | buildContext | generateAnswer | validateCitations | verifyClaims | finalizeAnswer
  | finishPartial
  deriving DecidableEq

structure RouteDecision where
  route : ResearchRoute
  queryType : QueryType
  reasons : List String
  deriving DecidableEq

structure Input where
  /-- `run_store.is_cancel_requested(run_id)` when the node starts -/
  cancelRequested : Bool := false
  decision : RouteDecision
  plan : ResearchPlan
  /-- the two readings of the flag around a tool's handler -/
  cancelBefore : Bool := false
  cancelAfter : Bool := false
  outcome : HandlerOutcome
  observationId : String
  context : ContextBundle
  draft : DraftResearchAnswer
  deriving DecidableEq

/-- `_cancel_update`. -/
def ResearchState.cancel (s : ResearchState) : ResearchState :=
  { s with
    cancelRequested := true
    status := .cancelled
    stopReason := some "cancel_requested" }

/-- `_failure`. -/
def ResearchState.failure (s : ResearchState) (errorCode message : String) : ResearchState :=
  { s with
    status := .failed
    stopReason := some errorCode
    errors := [{ errorCode, message }] }

/-- `runtime.cancelled(state)`. -/
def Cancelled (i : Input) (s : ResearchState) : Prop :=
  s.cancelRequested = true ∨ i.cancelRequested = true

instance (i : Input) (s : ResearchState) : Decidable (Cancelled i s) :=
  inferInstanceAs (Decidable (_ ∨ _))

/-- `if runtime.cancelled(state): return _cancel_update()`. -/
def unlessCancelled (i : Input) (s : ResearchState) (body : Except AgentFault ResearchState) :
    Except AgentFault ResearchState :=
  if Cancelled i s then .ok s.cancel else body

/-- `_current_step`. -/
def currentStep (s : ResearchState) : Option (ResearchPlan × PlanStep) :=
  s.plan.bind fun plan => plan.steps[s.currentStepIndex]?.map fun step => (plan, step)

/-- `_replace_runtime` on the list of runtimes. -/
def replaceRuntime (values : List PlanStepRuntime) (runtime : PlanStepRuntime) :
    List PlanStepRuntime :=
  match values with
  | [] => [runtime]
  | item :: rest =>
    if item.stepId = runtime.stepId ∧ item.planVersion = runtime.planVersion then runtime :: rest
    else item :: replaceRuntime rest runtime

variable (rt : Runtime) (i : Input) (s : ResearchState)

/-- `_execute_step` on resolved arguments. -/
def runStep (step : PlanStep) (planVersion : String) (resolved : ResolvedStepArguments) :
    Except AgentFault ResearchState := do
  let outcome ← execute rt s step planVersion resolved i.observationId
    (invoke step.toolName i.cancelBefore i.outcome i.cancelAfter)
  return { s with
    observations := s.observations ++ [outcome.observation]
    stepRuntime := replaceRuntime s.stepRuntime outcome.runtime
    currentStepIndex := if planVersion ≠ "direct" then s.currentStepIndex + 1 else 0
    toolCallCount := s.toolCallCount + outcome.actualToolCalls
    toolReuseCount := s.toolReuseCount + outcome.reusedToolCalls
    toolFailureCount := s.toolFailureCount + outcome.toolFailures
    resolvedArguments := resolved.arguments
    stepResolutionFailed := false }

/-- `_failed_step_update`. -/
def failedStep (step : PlanStep) (planVersion errorCode message : String) : ResearchState :=
  { s with
    stepRuntime := replaceRuntime s.stepRuntime
      { stepId := step.stepId, planVersion, status := .failed, errorCode := some errorCode }
    currentStepIndex := s.currentStepIndex + 1
    toolFailureCount := s.toolFailureCount + 1
    errors := s.errors ++ [{ errorCode, message }]
    stepResolutionFailed := true
    status := .executing }

def routeQuery : Except AgentFault ResearchState :=
  unlessCancelled i s <| .ok { s with
    queryType := some i.decision.queryType
    route := i.decision.route
    routeReason := i.decision.reasons
    status := .routing }

/-- The step that `direct_retrieve` makes up. -/
def directStep (query : String) (queryType : QueryType) : PlanStep where
  stepId := "direct_retrieve"
  ordinal := 0
  toolName := .searchHybrid
  literalArguments :=
    [("query", .text query), ("query_type", .text queryType.name), ("top_k", .number 10)]

def directRetrieve : Except AgentFault ResearchState :=
  unlessCancelled i s do
    let queryType ← orError (.key "query_type") s.queryType
    let step := directStep s.query queryType
    let resolved ← resolve rt step "direct" s.observations
    let t ← runStep rt i s step "direct" resolved
    return { t with status := .retrieving }

def ownPlan (plan : ResearchPlan) : ResearchPlan :=
  { plan with
    planId := "plan_" ++
      String.ofList ((rt.sha ("\x00".intercalate [s.runId, plan.planId])).toList.take 24) }

def createPlan : Except AgentFault ResearchState :=
  unlessCancelled i s do
    let _ ← orError (.key "query_type") s.queryType
    let plan := ownPlan rt s i.plan
    return { s with
      pendingPlan := some plan
      planHistoryIds :=
        if plan.planId ∈ s.planHistoryIds then s.planHistoryIds
        else s.planHistoryIds ++ [plan.planId]
      route := .planned
      status := if s.plan.isNone then .planning else .replanning }

def validatePendingPlan : Except AgentFault ResearchState :=
  unlessCancelled i s <|
    match s.pendingPlan with
    | none => .ok (s.failure "plan_missing" "No pending plan is available.")
    | some pending =>
      match validatePlan rt pending with
      | .error (.planValidation code message) => .ok (s.failure code message)
      | .error fault => .error fault
      | .ok plan => .ok { s with
          plan := some plan
          pendingPlan := none
          currentStepIndex := 0
          stepRuntime := s.stepRuntime.filter (fun r => r.planVersion ≠ plan.planVersion) ++
            plan.steps.map fun step =>
              { stepId := step.stepId, planVersion := plan.planVersion, status := .pending }
          status := .planning }

def stepMissing : ResearchState :=
  s.failure "plan_step_missing" "No executable plan step is available."

def resolveStepArguments : Except AgentFault ResearchState :=
  unlessCancelled i s <|
    match currentStep s with
    | none => .ok (stepMissing s)
    | some (plan, step) =>
      match resolve rt step plan.planVersion s.observations with
      | .error fault => .ok (failedStep s step plan.planVersion
          (fault.errorCode "step_argument_resolution_failed") fault.message)
      | .ok resolved => .ok { s with
          resolvedArguments := resolved.arguments
          stepResolutionFailed := false
          stepRuntime := replaceRuntime s.stepRuntime
            { stepId := step.stepId, planVersion := plan.planVersion, status := .resolving }
          status := .executing }

def markStepRunning : Except AgentFault ResearchState :=
  unlessCancelled i s <|
    match currentStep s with
    | none => .ok (stepMissing s)
    | some (plan, step) => .ok { s with
        stepRuntime := replaceRuntime s.stepRuntime
          { stepId := step.stepId
            planVersion := plan.planVersion
            status := .running
            stepExecutionId := some (stepExecutionId rt s.runId plan.planVersion step.stepId) }
        status := .executing }

def executeStep : Except AgentFault ResearchState :=
  unlessCancelled i s <|
    match currentStep s with
    | none => .ok (stepMissing s)
    | some (plan, step) => do
      let spec ← rt.getTool step.toolName
      let dump ← (spec.revalidate s.resolvedArguments).mapError .value
      let resolved ← resolve rt step plan.planVersion s.observations
      if resolved.canonicalJson ≠ rt.canonical dump then
        return s.failure "resolved_arguments_changed"
          "Resolved arguments changed before execution."
      else
        match runStep rt i s step plan.planVersion resolved with
        | .error (.budgetExceeded code) => return s.failure code code
        | .error fault => .error fault
        | .ok t => return t

/-- `bool(plan and current_step_index < len(plan.steps))`. -/
def hasRemaining : Bool := s.plan.any fun plan => s.currentStepIndex < plan.steps.length

def assessEvidence : Except AgentFault ResearchState :=
  unlessCancelled i s do
    let queryType ← orError (.key "query_type") s.queryType
    let assessment := assess queryType s.route s.observations (hasRemaining s)
      s.directEscalatedToPlanned (rt.limits.CanReplan s)
    return { s with
      evidenceAssessment := some assessment
      evidenceSufficient := assessment.sufficient
      missingEvidence := assessment.missingEvidence
      evidenceIds := unique (s.evidenceIds ++ assessment.coveredEvidenceIds)
      entityIds := unique (s.entityIds ++ assessment.coveredEntityIds)
      status := .assessing
      directEscalatedToPlanned :=
        if assessment.nextAction = .escalateToPlan then true else s.directEscalatedToPlanned }

def replan : Except AgentFault ResearchState :=
  if rt.limits.CanReplan s then
    .ok { s with replanCount := s.replanCount + 1, status := .replanning }
  else .ok { s with stopReason := some "replan_budget_exhausted", status := .assessing }

/-- The runtimes of a plan whose remaining steps are skipped: `by_id[step_id]`. -/
def skippedRuntimes (plan : ResearchPlan) : Except AgentFault (List PlanStepRuntime) :=
  let current := s.stepRuntime.filter fun r => r.planVersion = plan.planVersion
  plan.steps.zipIdx.mapM fun (step, index) =>
    if s.currentStepIndex ≤ index then
      .ok
        { stepId := step.stepId
          planVersion := plan.planVersion
          status := .skipped
          skipReason := some "evidence_sufficient" }
    else orError (.key step.stepId) (current.reverse.find? fun r => r.stepId = step.stepId)

def markRemainingStepsSkipped : Except AgentFault ResearchState :=
  match s.plan with
  | none => .ok s
  | some plan => do
    let runtimes ← skippedRuntimes s plan
    return { s with
      stepRuntime := s.stepRuntime.filter (fun r => r.planVersion ≠ plan.planVersion) ++ runtimes }

def buildContext : Except AgentFault ResearchState :=
  unlessCancelled i s <| .ok { s with context := some i.context, status := .buildingContext }

def generateAnswer : Except AgentFault ResearchState :=
  unlessCancelled i s <|
    match s.context with
    | none => .ok (s.failure "context_missing" "Context was not built.")
    | some _ =>
      if s.answerEnabled then .ok { s with draftAnswer := some i.draft, status := .generating }
      else .ok { s with
        answer := some { answer := "", confidence := s.confidence.getD 0, evidenceOnly := true }
        status := .generating }

def validateDraftCitations : Except AgentFault ResearchState :=
  if s.answerEnabled then do
    let draft ← orError (.key "draft_answer") s.draftAnswer
    let context ← orError (.key "context") s.context
    let outcome := validateCitations draft context
    return { s with
      draftAnswer := some outcome.1
      errors :=
        if outcome.2 ≠ [] then s.errors ++
          [{ errorCode := "invalid_citations_removed"
             component := "citation_validator"
             message := "Generated citations not present in ContextBundle were removed."
             citationIds := outcome.2 }]
        else s.errors
      status := .validating }
  else .ok { s with status := .validating }

def verifyDraftClaims : Except AgentFault ResearchState :=
  if s.answerEnabled then do
    let draft ← orError (.key "draft_answer") s.draftAnswer
    return { s with validatedAnswer := some (verifyClaims draft), status := .verifying }
  else .ok { s with status := .verifying }

/-- The answer that `finalize_answer` publishes. -/
def finalAnswer : Except AgentFault (Option AgentResearchAnswer) :=
  if s.answerEnabled then
    (orError (.key "validated_answer") s.validatedAnswer).map fun v => some (finalize v)
  else .ok s.answer

/-- `answer.confidence if answer else state.get("evidence_assessment").confidence`. -/
def finalConfidence (answer : Option AgentResearchAnswer) : Except AgentFault ℚ :=
  match answer with
  | some a => .ok a.confidence
  | none => (orError (.noAttribute "confidence") s.evidenceAssessment).map EvidenceAssessment.confidence

/-- The terminal status that `finalize_answer` chooses. -/
def finalStatus (answer : Option AgentResearchAnswer) : RunStatus :=
  if s.evidenceSufficient ∧ ¬ (s.answerEnabled ∧ answer.any AgentResearchAnswer.evidenceOnly) then
    .completed
  else .partialResult

def finalizeAnswer : Except AgentFault ResearchState := do
  let answer ← finalAnswer s
  let confidence ← finalConfidence s answer
  let terminal := finalStatus s answer
  return { s with
    answer
    confidence := some confidence
    status := terminal
    stopReason := some
      (if terminal = .completed then "completed" else "insufficient_evidence") }

def finishPartial : Except AgentFault ResearchState :=
  let context := s.context.getD i.context
  let draft :=
    if s.answerEnabled ∧ context.items ≠ [] then some (validateCitations i.draft context).1
    else none
  let validated := draft.map verifyClaims
  .ok { s with
    context := some context
    draftAnswer := draft
    validatedAnswer := validated
    answer := some ((validated.map finalize).getD
      { answer := "现有证据不足，研究运行已在预算边界内结束。"
        confidence := (s.evidenceAssessment.map EvidenceAssessment.confidence).getD 0
        evidenceOnly := true })
    status := .partialResult
    stopReason := some ((s.stopReason.filter (· ≠ "")).getD "insufficient_evidence") }

/-- `nodes`. -/
def runNode : Node → Except AgentFault ResearchState
  | .routeQuery => routeQuery i s
  | .directRetrieve => directRetrieve rt i s
  | .createPlan => createPlan rt i s
  | .validatePlan => validatePendingPlan rt i s
  | .resolveStepArguments => resolveStepArguments rt i s
  | .markStepRunning => markStepRunning rt i s
  | .executeStep => executeStep rt i s
  | .assessEvidence => assessEvidence rt i s
  | .replan => replan rt s
  | .markRemainingStepsSkipped => markRemainingStepsSkipped s
  | .buildContext => buildContext i s
  | .generateAnswer => generateAnswer i s
  | .validateCitations => validateDraftCitations s
  | .verifyClaims => verifyDraftClaims s
  | .finalizeAnswer => finalizeAnswer s
  | .finishPartial => finishPartial i s

/-- `_route_after_router`. -/
def routeAfterRouter : Option Node :=
  if s.status = .cancelled ∨ s.status = .failed then none
  else
    match s.route with
    | .direct => some .directRetrieve
    | .planned => some .createPlan

/-- `_route_after_validation`. -/
def routeAfterValidation : Option Node :=
  if s.status = .cancelled then none
  else if s.status = .failed then some .finishPartial
  else some .resolveStepArguments

/-- `_route_after_resolution`. -/
def routeAfterResolution : Option Node :=
  if s.status = .cancelled then none
  else if s.status = .failed ∨ s.stepResolutionFailed then some .assessEvidence
  else some .markStepRunning

def NextAction.node : NextAction → Node
  | .buildContext => .markRemainingStepsSkipped
  | .resolveNext => .resolveStepArguments
  | .escalateToPlan => .createPlan
  | .replan => .replan
  | .finishPartial => .finishPartial

/-- `_route_after_assessment`. -/
def routeAfterAssessment : Except AgentFault (Option Node) :=
  if s.status = .cancelled then .ok none
  else if s.status = .failed then .ok (some .finishPartial)
  else
    (orError (.key "evidence_assessment") s.evidenceAssessment).map fun assessment =>
      some assessment.nextAction.node

/-- The edges of the graph; `none` is `END`. -/
def nextNode : Node → Except AgentFault (Option Node)
  | .routeQuery => .ok (routeAfterRouter s)
  | .directRetrieve => .ok (some .assessEvidence)
  | .createPlan => .ok (some .validatePlan)
  | .validatePlan => .ok (routeAfterValidation s)
  | .resolveStepArguments => .ok (routeAfterResolution s)
  | .markStepRunning => .ok (some .executeStep)
  | .executeStep => .ok (some .assessEvidence)
  | .assessEvidence => routeAfterAssessment s
  | .replan => .ok (some .createPlan)
  | .markRemainingStepsSkipped => .ok (some .buildContext)
  | .buildContext => .ok (some .generateAnswer)
  | .generateAnswer => .ok (some .validateCitations)
  | .validateCitations => .ok (some .verifyClaims)
  | .verifyClaims => .ok (some .finalizeAnswer)
  | .finalizeAnswer => .ok none
  | .finishPartial => .ok none

/-- Where the execution of a graph stands. -/
inductive Position
  | running (node : Node) (s : ResearchState)
  | ended (s : ResearchState)
  | raised (node : Node) (s : ResearchState) (fault : AgentFault)
  deriving DecidableEq

namespace Position

/-- `START`. -/
def start (request : ResearchRequest) : Position :=
  running .routeQuery (initialResearchState request)

def state : Position → ResearchState
  | running _ s => s
  | ended s => s
  | raised _ s _ => s

def execute (node : Node) (s : ResearchState) : Position :=
  match runNode rt i s node with
  | .error fault => raised node s fault
  | .ok t =>
    match nextNode t node with
    | .error fault => raised node t fault
    | .ok none => ended t
    | .ok (some next) => running next t

/-- One node execution; a graph that has ended or raised takes no step. -/
def step : Position → Input → Option Position
  | running node s, i => some (execute rt i node s)
  | _, _ => none

end Position

def machine : Machine Position Input := ⟨Position.step rt⟩

end CodeResearch.Research
