import CodeResearch.Library.Result
import CodeResearch.Research.Schemas

/-!
# Plan validation, argument resolution and tool execution

A tool is known by its input model: the names of its fields, which of them are
collections, and validation itself, whose result is the dumped model. Hashing
and canonical JSON are parameters.
-/
namespace CodeResearch.Research

structure ToolSpec where
  /-- the names of `input_model.model_fields` -/
  properties : List String
  /-- `_expects_collection(annotation)` -/
  expectsCollection : String → Bool
  /-- `TypeAdapter(field.annotation).validate_python(value)` passes -/
  acceptsLiteral : String → Argument → Bool
  outputFields : List OutputField := [.entityIds, .chunkIds, .edgeIds, .evidenceIds]
  /-- `input_model.model_validate(values).model_dump(mode="json")` -/
  validate : List (String × Argument) → Except String String
  /-- the same on values that were dumped before -/
  revalidate : String → Except String String
  /-- A dumped model validates to itself. -/
  revalidate_dump : ∀ values dump, validate values = .ok dump → revalidate dump = .ok dump

structure Runtime where
  registry : ToolName → Option ToolSpec
  limits : AgentBudgetLimits := {}
  /-- `_sha` -/
  sha : String → String
  /-- `canonical_arguments` -/
  canonical : String → String

variable (rt : Runtime)

/-- `ToolRegistry.get`. -/
def Runtime.getTool (name : ToolName) : Except AgentFault ToolSpec :=
  orError (.value ("tool_not_found:" ++ name.name)) (rt.registry name)

/-- `str` of a list of names. -/
def pyNames (names : List String) : String :=
  "[" ++ ", ".intercalate (names.map fun n => "'" ++ n ++ "'") ++ "]"

/-- `by_id.get(step_id)`. -/
def findStep (steps : List PlanStep) (stepId : String) : Option PlanStep :=
  steps.find? fun step => step.stepId = stepId

/-- `_require_prior`. -/
def requirePrior (ordered : List PlanStep) (ordinal : ℕ) (stepId : String) :
    Except AgentFault PlanStep :=
  orError (.planValidation "step_reference_invalid" ("Step " ++ stepId ++ " is not a prior step."))
    ((findStep ordered stepId).filter fun source => source.ordinal < ordinal)

def validateBinding (ordered : List PlanStep) (step : PlanStep) (spec : ToolSpec)
    (binding : ArgumentBinding) : Except AgentFault Unit := do
  let source ← requirePrior ordered step.ordinal binding.fromStep.stepId
  ensure (source.stepId ∈ step.dependencies)
    (.planValidation "step_binding_invalid" "A bound source step must also be a dependency.")
  let sourceSpec ← rt.getTool source.toolName
  ensure (binding.fromStep.field ∈ sourceSpec.outputFields)
    (.planValidation "step_binding_invalid" "Unknown tool output field.")
  ensure (binding.argumentName ∈ spec.properties)
    (.planValidation "invalid_tool_arguments" binding.argumentName)
  ensure (decide (binding.fromStep.selection ∈ [Selection.all, .unique]) =
      spec.expectsCollection binding.argumentName)
    (.planValidation "step_binding_cardinality" binding.argumentName)

def validateStep (ordered : List PlanStep) (step : PlanStep) : Except AgentFault Unit := do
  let spec ← orError (.planValidation "tool_not_allowed" ("Unknown tool " ++ step.toolName.name ++ "."))
    (rt.registry step.toolName)
  let unknown := (step.literalArguments.map Prod.fst).filter (· ∉ spec.properties)
  ensure (unknown = [])
    (.planValidation "invalid_tool_arguments" (pyNames (unknown.insertionSort (· ≤ ·))))
  step.dependencies.forM fun dependency => do
    let _ ← requirePrior ordered step.ordinal dependency
  step.argumentBindings.forM (validateBinding rt ordered step spec)
  step.literalArguments.forM fun literal =>
    ensure (spec.acceptsLiteral literal.1 literal.2 = true)
      (.planValidation "invalid_tool_arguments" literal.1)

/-- `sorted(plan.steps, key=lambda item: item.ordinal)`. -/
def orderedSteps (plan : ResearchPlan) : List PlanStep :=
  plan.steps.insertionSort fun a b => a.ordinal ≤ b.ordinal

theorem orderedSteps_ne_nil (plan : ResearchPlan) : orderedSteps plan ≠ [] := by
  apply List.ne_nil_of_length_pos
  rw [orderedSteps, List.length_insertionSort]
  exact List.length_pos_iff.mpr plan.nonempty

/-- `PlanValidator.validate`. -/
def validatePlan (plan : ResearchPlan) : Except AgentFault ResearchPlan := do
  ensure (plan.steps.length ≤ rt.limits.maxPlanSteps) (.value "plan_step_budget_exceeded")
  let ordered := orderedSteps plan
  ensure (ordered.map PlanStep.ordinal = List.range ordered.length)
    (.planValidation "plan_invalid" "Plan ordinals must be contiguous from zero.")
  ensure (ordered.map PlanStep.stepId).Nodup
    (.planValidation "plan_invalid" "Plan step IDs must be unique.")
  ordered.forM (validateStep rt ordered)
  return { plan with steps := ordered, nonempty := orderedSteps_ne_nil plan }

structure ResolvedStepArguments where
  /-- `model.model_dump(mode="json")` -/
  arguments : String
  canonicalJson : String
  argumentsHash : String
  deriving DecidableEq

/-- `_select`; `none` also stands for an empty list, which the caller skips too. -/
def select (values : List String) (ref : StepOutputRef) : Option Argument :=
  match ref.index with
  | some i => values[i]?.map .text
  | none =>
    match ref.selection with
    | .first => values.head?.map .text
    | .unique => if values = [] then none else some (.texts values.eraseDups)
    | .all => if values = [] then none else some (.texts values)

/-- `by_step.get(step_id)`: the last usable observation of the step. -/
def observationOf (observations : List ToolObservation) (planVersion stepId : String) :
    Option ToolObservation :=
  observations.reverse.find? fun o =>
    (o.status = .success ∨ o.status = .empty) ∧ o.planVersion = planVersion ∧ o.stepId = stepId

def bindArgument (observations : List ToolObservation) (planVersion : String)
    (binding : ArgumentBinding) : Except AgentFault (List (String × Argument)) :=
  let ref := binding.fromStep
  let candidates := ((observationOf observations planVersion ref.stepId).map
    fun o => o.output ref.field).getD []
  match select candidates ref with
  | some value => .ok [(binding.argumentName, value)]
  | none =>
    if ref.required then
      .error (.argumentResolution "required_step_output_missing"
        ("Required output " ++ ref.stepId ++ "." ++ ref.field.name ++ " is missing."))
    else .ok []

/-- `StepArgumentResolver.resolve`. -/
def resolve (step : PlanStep) (planVersion : String) (observations : List ToolObservation) :
    Except AgentFault ResolvedStepArguments := do
  let bound ← step.argumentBindings.mapM (bindArgument observations planVersion)
  let spec ← rt.getTool step.toolName
  match spec.validate (step.literalArguments ++ bound.flatten) with
  | .ok dump => return ⟨dump, rt.canonical dump, rt.sha (rt.canonical dump)⟩
  | .error message => .error (.argumentResolution "invalid_tool_arguments" message)

/-- `step_execution_id`. -/
def stepExecutionId (runId planVersion stepId : String) : String :=
  rt.sha ("\x00".intercalate [runId, planVersion, stepId])

/-- `semantic_tool_call_key`. -/
def semanticToolCallKey (s : ResearchState) (toolName : ToolName) (canonicalJson : String) : String :=
  rt.sha ("\x00".intercalate [s.runId, s.repoId, s.indexVersionId, toolName.name, canonicalJson])

/-- How a tool's handler ends. -/
inductive HandlerOutcome
  | returned (result : ToolResult)
  | timedOut
  | raised (message : String)
  deriving DecidableEq

structure ToolInvocationResult where
  status : ToolStatus
  result : ToolResult
  error : Option AgentError
  deriving DecidableEq

/-- `ToolRegistry.invoke` on a registered tool, between two readings of the cancel flag. -/
def invoke (name : ToolName) (cancelBefore : Bool) (outcome : HandlerOutcome) (cancelAfter : Bool) :
    ToolInvocationResult :=
  if cancelBefore then
    ⟨.failed, {}, some
      { errorCode := "agent_cancelled", message := "Run cancellation was requested." }⟩
  else
    match outcome with
    | .timedOut => ⟨.timeout, {}, some
        { errorCode := "tool_timeout", message := "Tool " ++ name.name ++ " timed out.",
          retryable := true }⟩
    | .raised message => ⟨.failed, {}, some { errorCode := "tool_internal_error", message }⟩
    | .returned result =>
      if cancelAfter then
        ⟨.failed, {}, some
          { errorCode := "agent_cancelled", message := "Late tool result was discarded." }⟩
      else ⟨if result.resultCount ≠ 0 then .success else .empty, result, none⟩

structure StepExecutionOutcome where
  observation : ToolObservation
  runtime : PlanStepRuntime
  actualToolCalls : ℕ
  reusedToolCalls : ℕ
  toolFailures : ℕ
  deriving DecidableEq

/-- `_runtime`. -/
def runtimeOf (step : PlanStep) (planVersion executionId : String) (observation : ToolObservation) :
    PlanStepRuntime where
  stepId := step.stepId
  planVersion := planVersion
  status :=
    match observation.status with
    | .success => .success
    | .empty => .empty
    | _ => .failed
  stepExecutionId := some executionId
  observationId := some observation.observationId
  errorCode := observation.error.map AgentError.errorCode

def reusable (s : ResearchState) (callKey : String) : Option ToolObservation :=
  s.observations.reverse.find? fun o => o.toolCallKey = callKey ∧ o.status = .success

def observe (s : ResearchState) (step : PlanStep) (planVersion : String)
    (resolved : ResolvedStepArguments) (observationId : String) (invocation : ToolInvocationResult) :
    ToolObservation where
  observationId := observationId
  stepId := step.stepId
  planVersion := planVersion
  toolName := step.toolName
  resolvedArgumentsHash := resolved.argumentsHash
  toolCallKey := semanticToolCallKey rt s step.toolName resolved.canonicalJson
  stepExecutionId := stepExecutionId rt s.runId planVersion step.stepId
  status := invocation.status
  entityIds := invocation.result.entityIds
  chunkIds := invocation.result.chunkIds
  edgeIds := invocation.result.edgeIds
  evidenceIds := invocation.result.evidenceIds
  summary := invocation.result.summary
  resultCount := invocation.result.resultCount
  warnings := invocation.result.warnings
  error := invocation.error

/-- The copy of a successful observation that stands for a repeated call. -/
def reuse (s : ResearchState) (step : PlanStep) (planVersion observationId : String)
    (o : ToolObservation) : ToolObservation :=
  { o with
    observationId := observationId
    stepId := step.stepId
    planVersion := planVersion
    stepExecutionId := stepExecutionId rt s.runId planVersion step.stepId
    reused := true
    reusedObservationId := some o.observationId
    reusedFromPlanVersion := some o.planVersion }

/-- `ResearchExecutor.execute`; `invocation` is what the tool call would give. -/
def execute (s : ResearchState) (step : PlanStep) (planVersion : String)
    (resolved : ResolvedStepArguments) (observationId : String) (invocation : ToolInvocationResult) :
    Except AgentFault StepExecutionOutcome :=
  let executionId := stepExecutionId rt s.runId planVersion step.stepId
  match reusable s (semanticToolCallKey rt s step.toolName resolved.canonicalJson) with
  | some o =>
    let observation := reuse rt s step planVersion observationId o
    .ok ⟨observation, runtimeOf step planVersion executionId observation, 0, 1, 0⟩
  | none =>
    if rt.limits.CanCallTool s then
      let observation := observe rt s step planVersion resolved observationId invocation
      .ok ⟨observation, runtimeOf step planVersion executionId observation, 1, 0,
        if invocation.status = .failed ∨ invocation.status = .timeout then 1 else 0⟩
    else .error (.budgetExceeded "tool_call_budget_exhausted")

end CodeResearch.Research
