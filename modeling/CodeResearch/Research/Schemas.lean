import Mathlib.Data.Rat.Defs
import Mathlib.Data.List.Sort

/-!
# The data of the research agent

Goals, success criteria and time stamps are left out, since no node reads them.
A confidence is a rational number, and JSON literals are kept as text.
-/
namespace CodeResearch.Research

inductive QueryType
  | symbolLookup | implementationExplanation | callChain | architecture | tensorShape
  | configuration | trainingProcess | inferenceProcess | paperAlignment | generalRepository
  deriving DecidableEq

def QueryType.name : QueryType → String
  | symbolLookup => "symbol_lookup"
  | implementationExplanation => "implementation_explanation"
  | callChain => "call_chain"
  | architecture => "architecture"
  | tensorShape => "tensor_shape"
  | configuration => "configuration"
  | trainingProcess => "training_process"
  | inferenceProcess => "inference_process"
  | paperAlignment => "paper_alignment"
  | generalRepository => "general_repository"

inductive ToolName
  | searchHybrid | getSymbolSource | getGraphNeighbors | getCallPath | getModelFlow
  | searchPaper | getAlignment | inspectConfig
  deriving DecidableEq

def ToolName.name : ToolName → String
  | searchHybrid => "search_hybrid"
  | getSymbolSource => "get_symbol_source"
  | getGraphNeighbors => "get_graph_neighbors"
  | getCallPath => "get_call_path"
  | getModelFlow => "get_model_flow"
  | searchPaper => "search_paper"
  | getAlignment => "get_alignment"
  | inspectConfig => "inspect_config"

inductive ResearchRoute
  | direct | planned
  deriving DecidableEq

/-- `ResearchRunStatus`. -/
inductive RunStatus
  | queued | routing | planning | retrieving | executing | assessing | replanning
  | buildingContext | generating | validating | verifying | finalizing | paused | interrupted
  | cancelling | completed | partialResult | failed | cancelled
  deriving DecidableEq

/-- `TERMINAL_STATUSES`. -/
def RunStatus.Terminal (s : RunStatus) : Prop :=
  s ∈ [completed, partialResult, failed, cancelled]

instance (s : RunStatus) : Decidable s.Terminal :=
  inferInstanceAs (Decidable (_ ∈ _))

/-- What a node or one of its callees raises. -/
inductive AgentFault
  /-- `PlanValidationError` -/
  | planValidation (errorCode message : String)
  /-- `ArgumentResolutionError` -/
  | argumentResolution (errorCode message : String)
  /-- `AgentBudgetExceeded` -/
  | budgetExceeded (errorCode : String)
  | value (message : String)
  | key (name : String)
  | noAttribute (name : String)
  deriving DecidableEq

/-- `getattr(exc, "error_code", default)`. -/
def AgentFault.errorCode (default : String) : AgentFault → String
  | planValidation code _ => code
  | argumentResolution code _ => code
  | _ => default

/-- `str(exc)`. -/
def AgentFault.message : AgentFault → String
  | planValidation _ message => message
  | argumentResolution _ message => message
  | budgetExceeded code => code
  | value message => message
  | key name => "'" ++ name ++ "'"
  | noAttribute name => name

structure AgentError where
  errorCode : String
  component : String := "research_agent"
  message : String
  retryable : Bool := false
  /-- `context["citation_ids"]` -/
  citationIds : List String := []
  deriving DecidableEq

/-- A value of `literal_arguments` or of a bound argument. -/
inductive Argument
  | json (text : String)
  | number (n : ℕ)
  | text (s : String)
  | texts (l : List String)
  deriving DecidableEq

inductive OutputField
  | entityIds | chunkIds | edgeIds | evidenceIds
  deriving DecidableEq

def OutputField.name : OutputField → String
  | entityIds => "entity_ids"
  | chunkIds => "chunk_ids"
  | edgeIds => "edge_ids"
  | evidenceIds => "evidence_ids"

inductive Selection
  | first | all | unique
  deriving DecidableEq

structure StepOutputRef where
  stepId : String
  field : OutputField
  index : Option ℕ := none
  selection : Selection := .first
  required : Bool := true
  deriving DecidableEq

structure ArgumentBinding where
  argumentName : String
  fromStep : StepOutputRef
  deriving DecidableEq

structure PlanStep where
  stepId : String
  ordinal : ℕ
  toolName : ToolName
  literalArguments : List (String × Argument) := []
  argumentBindings : List ArgumentBinding := []
  dependencies : List String := []
  deriving DecidableEq

structure ResearchPlan where
  planId : String
  planVersion : String
  steps : List PlanStep
  nonempty : steps ≠ []
  deriving DecidableEq

inductive StepStatus
  | pending | resolving | running | success | empty | failed | skipped
  deriving DecidableEq

structure PlanStepRuntime where
  stepId : String
  planVersion : String
  status : StepStatus
  stepExecutionId : Option String := none
  observationId : Option String := none
  skipReason : Option String := none
  errorCode : Option String := none
  deriving DecidableEq

structure ToolResult where
  entityIds : List String := []
  chunkIds : List String := []
  edgeIds : List String := []
  evidenceIds : List String := []
  summary : String := ""
  warnings : List String := []
  deriving DecidableEq

def ToolResult.resultCount (r : ToolResult) : ℕ :=
  max (max r.entityIds.length r.chunkIds.length) (max r.edgeIds.length r.evidenceIds.length)

inductive ToolStatus
  | success | empty | failed | timeout
  deriving DecidableEq

structure ToolObservation where
  observationId : String
  stepId : String
  planVersion : String
  toolName : ToolName
  resolvedArgumentsHash : String
  toolCallKey : String
  stepExecutionId : String
  reused : Bool := false
  reusedObservationId : Option String := none
  reusedFromPlanVersion : Option String := none
  status : ToolStatus
  entityIds : List String
  chunkIds : List String
  edgeIds : List String
  evidenceIds : List String
  summary : String
  resultCount : ℕ
  warnings : List String
  error : Option AgentError
  deriving DecidableEq

/-- `getattr(observation, field)`. -/
def ToolObservation.output (o : ToolObservation) : OutputField → List String
  | .entityIds => o.entityIds
  | .chunkIds => o.chunkIds
  | .edgeIds => o.edgeIds
  | .evidenceIds => o.evidenceIds

inductive NextAction
  | resolveNext | escalateToPlan | replan | buildContext | finishPartial
  deriving DecidableEq

structure EvidenceCriterionResult where
  criterion : String
  satisfied : Bool
  evidenceIds : List String
  reason : Option String
  deriving DecidableEq

structure EvidenceAssessment where
  queryType : QueryType
  sufficient : Bool
  criteria : List EvidenceCriterionResult
  coveredEntityIds : List String
  coveredEvidenceIds : List String
  missingEvidence : List String
  confidence : ℚ
  nextAction : NextAction
  deriving DecidableEq

structure RetrievalEvidence where
  evidenceId : String
  path : Option String
  startLine : Option ℤ
  endLine : Option ℤ
  paperId : Option String
  pageNumber : Option ℤ
  deriving DecidableEq

structure ContextItem where
  contextId : String
  entityId : String
  title : String
  evidence : List RetrievalEvidence
  deriving DecidableEq

structure ContextBundle where
  items : List ContextItem
  deriving DecidableEq

structure AnswerCitation where
  citationId : String
  contextId : String
  evidenceId : String
  entityId : String
  path : Option String
  startLine : Option ℤ
  endLine : Option ℤ
  paperId : Option String
  pageNumber : Option ℤ
  deriving DecidableEq

structure DraftAnswerClaim where
  claimId : String
  text : String
  citationIds : List String
  important : Bool := true
  deriving DecidableEq

structure DraftResearchAnswer where
  answer : String
  claims : List DraftAnswerClaim
  citations : List AnswerCitation
  confidence : ℚ
  deriving DecidableEq

inductive SupportStatus
  | supported | partiallySupported | unsupported
  deriving DecidableEq

structure ValidatedAnswerClaim extends DraftAnswerClaim where
  supportStatus : SupportStatus
  supportReason : Option String
  deriving DecidableEq

structure ValidatedResearchAnswer where
  answer : String
  claims : List ValidatedAnswerClaim
  citations : List AnswerCitation
  confidence : ℚ
  deriving DecidableEq

structure AgentResearchAnswer where
  answer : String
  claims : List ValidatedAnswerClaim := []
  citations : List AnswerCitation := []
  unsupportedClaims : List String := []
  confidence : ℚ
  evidenceOnly : Bool := false
  deriving DecidableEq

structure AgentBudgetLimits where
  maxPlanSteps : ℕ := 6
  maxToolCalls : ℕ := 10
  maxReplanCount : ℕ := 2
  maxToolFailures : ℕ := 3
  deriving DecidableEq

structure ResearchState where
  runId : String
  repoId : String
  indexVersionId : String
  query : String
  queryType : Option QueryType
  route : ResearchRoute := .direct
  routeReason : List String := []
  directEscalatedToPlanned : Bool := false
  plan : Option ResearchPlan := none
  pendingPlan : Option ResearchPlan := none
  planHistoryIds : List String := []
  currentStepIndex : ℕ := 0
  stepRuntime : List PlanStepRuntime := []
  resolvedArguments : String := "{}"
  stepResolutionFailed : Bool := false
  observations : List ToolObservation := []
  evidenceIds : List String
  entityIds : List String := []
  evidenceAssessment : Option EvidenceAssessment := none
  evidenceSufficient : Bool := false
  missingEvidence : List String := []
  context : Option ContextBundle := none
  draftAnswer : Option DraftResearchAnswer := none
  validatedAnswer : Option ValidatedResearchAnswer := none
  answer : Option AgentResearchAnswer := none
  confidence : Option ℚ := none
  answerEnabled : Bool
  externalTextConsent : Bool
  toolCallCount : ℕ := 0
  toolReuseCount : ℕ := 0
  replanCount : ℕ := 0
  toolFailureCount : ℕ := 0
  status : RunStatus := .queued
  stopReason : Option String := none
  errors : List AgentError := []
  cancelRequested : Bool := false
  deriving DecidableEq

/-- What `initial_research_state` reads of a run and its request. -/
structure ResearchRequest where
  runId : String
  repoId : String
  indexVersionId : String
  query : String
  queryType : Option QueryType
  seedEvidenceIds : List String
  answerEnabled : Bool
  externalTextConsent : Bool
  deriving DecidableEq

/-- `initial_research_state`. -/
def initialResearchState (request : ResearchRequest) : ResearchState where
  runId := request.runId
  repoId := request.repoId
  indexVersionId := request.indexVersionId
  query := request.query
  queryType := request.queryType
  evidenceIds := request.seedEvidenceIds
  answerEnabled := request.answerEnabled
  externalTextConsent := request.externalTextConsent

variable (limits : AgentBudgetLimits)

/-- `can_call_tool`. -/
def AgentBudgetLimits.CanCallTool (s : ResearchState) : Prop := s.toolCallCount < limits.maxToolCalls

/-- `can_replan`. -/
def AgentBudgetLimits.CanReplan (s : ResearchState) : Prop := s.replanCount < limits.maxReplanCount

/-- `failures_available`, which no node calls. -/
def AgentBudgetLimits.FailuresAvailable (s : ResearchState) : Prop :=
  s.toolFailureCount < limits.maxToolFailures

instance (s : ResearchState) : Decidable (limits.CanCallTool s) :=
  inferInstanceAs (Decidable (_ < _))

instance (s : ResearchState) : Decidable (limits.CanReplan s) :=
  inferInstanceAs (Decidable (_ < _))

instance (s : ResearchState) : Decidable (limits.FailuresAvailable s) :=
  inferInstanceAs (Decidable (_ < _))

end CodeResearch.Research
