import CodeResearch.Evaluation.BadCases
import Mathlib.Data.Finset.Basic

/-!
# Gold requirements and the verdicts of the adapters

`evaluation/adapters/components.py`: each of the six adapters compares the outcome of a case
with its gold, and `execute` says passed if it finds no failure. What a gold requires of an
outcome is stated here apart from what the adapters check.
-/
namespace CodeResearch.Evaluation.Requirements

structure IndexGold where
  requiredEntityIds : List String
  requiredEdgeIds : List String
  requiredEvidenceIds : List String
  requiredChunkIds : List String
  allowedUnresolvedSymbols : List String

structure RetrievalGold where
  requiredEntityIds : List String
  requiredChunkIds : List String
  requiredPaths : List (List String)

structure AgentGold where
  expectedRoute : String
  requiredTools : List String
  forbiddenTools : List String
  allowedToolOrders : List (List String)
  requiredEvidenceIds : List String
  requiredEdgeIds : List String
  expectedSufficient : Bool
  expectedTerminalStatus : String
  maxToolCalls : ℕ
  expectedPartialReasonCodes : List String

structure AlignmentSelection where
  codeEntityId : String
  relationType : String
deriving DecidableEq

structure AlignmentGold where
  profileId : String
  goldSelections : List AlignmentSelection
  acceptableAlternativeSets : List (List AlignmentSelection)
  requiredPaperEvidenceIds : List String
  requiredCodeEvidenceIds : List String

structure AnswerGold where
  requiredAnswerPoints : List String
  forbiddenClaims : List String
  requiredEvidenceIds : List String
  allowedCitationSets : List (List String)
  partialExpected : Bool

/-- `partialStatus` is the source's `partial`. -/
inductive Completeness where
  | complete | partialStatus | unknown
deriving DecidableEq

/-- `dict[str, str]`, as the set of its items. -/
abbrev Link := Finset (String × String)

structure ObservabilityGold where
  requiredOperations : List String
  requiredParentChildEdges : List (String × String)
  requiredLinks : List Link
  forbiddenAttributes : List String
  requiredIntegrityState : Completeness
  allowedIntegrityFlags : List String
  maxDropCount : ℕ
  maxMissingSpanCount : ℕ

inductive Gold where
  | index (gold : IndexGold)
  | retrieval (gold : RetrievalGold)
  | agent (gold : AgentGold)
  | alignment (gold : AlignmentGold)
  | answer (gold : AnswerGold)
  | observability (gold : ObservabilityGold)

structure IndexOutcome where
  entityIds : List String
  edgeIds : List String
  evidenceIds : List String
  chunkIds : List String
  unresolvedSymbols : List String

structure RetrievalOutcome where
  rankedEntityIds : List String
  rankedChunkIds : List String
  graphPaths : List (List String)

/-- A JSON object, with the texts that `str` gives of its values. -/
abbrev JsonObject := List (String × String)

/-- `str(item.get(key, ""))`. -/
def textOf (key : String) (item : JsonObject) : String := (item.lookup key).getD ""

structure AgentOutcome where
  route : String
  toolCalls : List JsonObject
  evidenceIds : List String
  edgeIds : List String
  sufficient : Bool
  terminalStatus : String
  partialReasonCodes : List String

def AgentOutcome.tools (outcome : AgentOutcome) : List String :=
  outcome.toolCalls.map (textOf "tool_name")

structure AlignmentOutcome where
  profileId : String
  selections : List AlignmentSelection
  paperEvidenceIds : List String
  codeEvidenceIds : List String

structure AnswerOutcome where
  answerPointIds : List String
  claims : List JsonObject
  citationIds : List String
  evidenceIds : List String
  isPartial : Bool

structure ObservabilityOutcome where
  operationNames : List String
  parentChildEdges : List (String × String)
  links : List Link
  observedAttributeKeys : List String
  completeness : Completeness
  integrityFlags : List String
  dropCount : ℕ
  missingSpanCount : ℕ

inductive Outcome where
  | index (outcome : IndexOutcome)
  | retrieval (outcome : RetrievalOutcome)
  | agent (outcome : AgentOutcome)
  | alignment (outcome : AlignmentOutcome)
  | answer (outcome : AnswerOutcome)
  | observability (outcome : ObservabilityOutcome)

def Gold.component : Gold → Component
  | .index _ => .index
  | .retrieval _ => .retrieval
  | .agent _ => .agent
  | .alignment _ => .alignment
  | .answer _ => .answer
  | .observability _ => .observability

def Outcome.component : Outcome → Component
  | .index _ => .index
  | .retrieval _ => .retrieval
  | .agent _ => .agent
  | .alignment _ => .alignment
  | .answer _ => .answer
  | .observability _ => .observability

/-- `set(expected) <= set(actual)`. -/
def Within {α : Type} (expected actual : List α) : Prop := ∀ x ∈ expected, x ∈ actual

/-- `set(expected) & set(actual)` is empty. -/
def Apart {α : Type} (expected actual : List α) : Prop := ∀ x ∈ expected, x ∉ actual

/-- `set(expected) == set(actual)`. -/
def SameSet {α : Type} (expected actual : List α) : Prop :=
  Within expected actual ∧ Within actual expected

instance {α : Type} [DecidableEq α] (l m : List α) : Decidable (Within l m) :=
  inferInstanceAs (Decidable (∀ x ∈ l, x ∈ m))

instance {α : Type} [DecidableEq α] (l m : List α) : Decidable (Apart l m) :=
  inferInstanceAs (Decidable (∀ x ∈ l, x ∉ m))

instance {α : Type} [DecidableEq α] (l m : List α) : Decidable (SameSet l m) :=
  inferInstanceAs (Decidable (_ ∧ _))

def failure (required : Prop) [Decidable required] (code : String) : List String :=
  if required then [] else [code]

/-- `_missing`. -/
def missing (kind : String) (expected actual : List String) : List String :=
  failure (Within expected actual) (kind ++ "_missing")

def indexFailures (gold : IndexGold) (actual : IndexOutcome) : List String :=
  missing "entity" gold.requiredEntityIds actual.entityIds ++
  missing "edge" gold.requiredEdgeIds actual.edgeIds ++
  missing "evidence" gold.requiredEvidenceIds actual.evidenceIds ++
  missing "chunk" gold.requiredChunkIds actual.chunkIds ++
  failure (Within actual.unresolvedSymbols gold.allowedUnresolvedSymbols)
    "index_unexpected_unresolved_symbol"

def retrievalFailures (gold : RetrievalGold) (actual : RetrievalOutcome) : List String :=
  missing "entity" gold.requiredEntityIds actual.rankedEntityIds ++
  missing "chunk" gold.requiredChunkIds actual.rankedChunkIds ++
  failure (¬ (gold.requiredPaths ≠ [] ∧ ¬ Within gold.requiredPaths actual.graphPaths))
    "retrieval_graph_path_missing"

def agentFailures (gold : AgentGold) (actual : AgentOutcome) : List String :=
  failure (actual.route = gold.expectedRoute) "agent_route_mismatch" ++
  failure (Within gold.requiredTools actual.tools) "agent_required_tool_missing" ++
  failure (Apart gold.forbiddenTools actual.tools) "agent_forbidden_tool" ++
  failure (actual.tools.length ≤ gold.maxToolCalls) "agent_tool_budget_exceeded" ++
  missing "evidence" gold.requiredEvidenceIds actual.evidenceIds ++
  missing "edge" gold.requiredEdgeIds actual.edgeIds ++
  failure (actual.terminalStatus = gold.expectedTerminalStatus) "agent_terminal_status_mismatch"

def alignmentFailures (gold : AlignmentGold) (actual : AlignmentOutcome) : List String :=
  failure (SameSet actual.selections gold.goldSelections ∨
      ∃ group ∈ gold.acceptableAlternativeSets, SameSet actual.selections group)
    "alignment_selection_mismatch"

def answerFailures (gold : AnswerGold) (actual : AnswerOutcome) : List String :=
  missing "answer_point" gold.requiredAnswerPoints actual.answerPointIds ++
  missing "evidence" gold.requiredEvidenceIds actual.evidenceIds ++
  failure (Apart gold.forbiddenClaims (actual.claims.map (textOf "text")))
    "answer_forbidden_claim" ++
  failure (actual.isPartial = gold.partialExpected) "answer_partial_mismatch"

def observabilityFailures (gold : ObservabilityGold) (actual : ObservabilityOutcome) :
    List String :=
  missing "operation" gold.requiredOperations actual.operationNames ++
  failure (Apart gold.forbiddenAttributes actual.observedAttributeKeys)
    "observability_forbidden_attribute" ++
  failure (actual.completeness = gold.requiredIntegrityState)
    "observability_completeness_mismatch" ++
  failure (Within actual.integrityFlags gold.allowedIntegrityFlags)
    "observability_unexpected_integrity_flag" ++
  failure (actual.dropCount ≤ gold.maxDropCount) "observability_drop_exceeded" ++
  failure (actual.missingSpanCount ≤ gold.maxMissingSpanCount)
    "observability_missing_span_exceeded"

/-- What is raised: `ArtifactResolverError`, or another exception with its `error_code`. -/
inductive Raised where
  | resolver (errorCode : String)
  | other (errorCode : Option String)
deriving DecidableEq

/-- `quality_failures`: an outcome of another component fails the assertion. -/
def qualityFailures : Gold → Outcome → Except Raised (List String)
  | .index gold, .index actual => .ok (indexFailures gold actual)
  | .retrieval gold, .retrieval actual => .ok (retrievalFailures gold actual)
  | .agent gold, .agent actual => .ok (agentFailures gold actual)
  | .alignment gold, .alignment actual => .ok (alignmentFailures gold actual)
  | .answer gold, .answer actual => .ok (answerFailures gold actual)
  | .observability gold, .observability actual => .ok (observabilityFailures gold actual)
  | _, _ => .error (.other none)

structure Case where
  caseId : String
  component : Component
  inputArtifactRefIds : List String
  gold : Gold
  consistent : gold.component = component

/-- What `execute` finds in its context. -/
structure Context (Ref Content : Type) where
  artifactRefs : String → Option Ref
  resolve : Ref → Except Raised Content
  isPrediction : Ref → Bool
  resolvedArtifacts : String → Option Content
  fixedOutcomes : String → Option Outcome
  executor : Option (Case → Except Raised Outcome)
  /-- `TypeAdapter(EvaluationOutcome).validate_json` -/
  validateJson : Content → Except Raised Outcome

section Execute

variable {Ref Content : Type} (component : Component) (case : Case) (context : Context Ref Content)

/-- The loop of `prepare`. -/
def resolveAll : List String → (String → Option Content) → Except Raised (String → Option Content)
  | [], resolved => .ok resolved
  | refId :: rest, resolved => do
    let ref ← orError (.other none) (context.artifactRefs refId)
    let content ← context.resolve ref
    resolveAll rest fun id => if id = refId then some content else resolved id

/-- `prepare`. -/
def prepare : Except Raised (String → Option Content) := do
  ensure (case.component = component) (.other none)
  resolveAll context case.inputArtifactRefIds context.resolvedArtifacts

/-- `_artifact_outcome`. -/
def artifactOutcome (resolved : String → Option Content) : Except Raised (Option Outcome) :=
  let predicted := case.inputArtifactRefIds.findSome? fun refId =>
    match context.artifactRefs refId with
    | some ref => if context.isPrediction ref then resolved refId else none
    | none => none
  match predicted with
  | none => .ok none
  | some content => do
    let outcome ← context.validateJson content
    ensure (outcome.component = component) (.other none)
    return some outcome

/-- The outcome that is judged, if there is one. -/
def outcomeOf : Except Raised (Option Outcome) := do
  let resolved ← prepare component case context
  match context.fixedOutcomes case.caseId with
  | some outcome => return some outcome
  | none =>
    match context.executor with
    | some executor => do
      let outcome ← executor case
      return some outcome
    | none => artifactOutcome component case context resolved

structure Result where
  executionStatus : ExecutionStatus
  evaluationOutcome : Option EvaluationOutcome
  complete : Bool
  incompleteReasonCodes : List String
  executionErrorCode : Option String
  qualityFailureCodes : List String
deriving DecidableEq

def raisedResult : Raised → Result
  | .resolver errorCode => ⟨.completed, some .indeterminate, false, [errorCode], none, []⟩
  | .other errorCode =>
    ⟨.error, none, false, ["execution_error"], some (errorCode.getD "evaluation_adapter_error"), []⟩

/-- `execute`. -/
def execute : Result :=
  match outcomeOf component case context with
  | .error e => raisedResult e
  | .ok none => ⟨.completed, some .notEvaluable, true, [], none, []⟩
  | .ok (some outcome) =>
    match qualityFailures case.gold outcome with
    | .error e => raisedResult e
    | .ok codes =>
      ⟨.completed, some (if codes = [] then .passed else .failed), true, [], none, codes⟩

end Execute

structure IndexChecked (gold : IndexGold) (actual : IndexOutcome) : Prop where
  entities : Within gold.requiredEntityIds actual.entityIds
  edges : Within gold.requiredEdgeIds actual.edgeIds
  evidence : Within gold.requiredEvidenceIds actual.evidenceIds
  chunks : Within gold.requiredChunkIds actual.chunkIds
  unresolved : Within actual.unresolvedSymbols gold.allowedUnresolvedSymbols

structure RetrievalChecked (gold : RetrievalGold) (actual : RetrievalOutcome) : Prop where
  entities : Within gold.requiredEntityIds actual.rankedEntityIds
  chunks : Within gold.requiredChunkIds actual.rankedChunkIds
  paths : Within gold.requiredPaths actual.graphPaths

structure AgentChecked (gold : AgentGold) (actual : AgentOutcome) : Prop where
  route : actual.route = gold.expectedRoute
  tools : Within gold.requiredTools actual.tools
  forbidden : Apart gold.forbiddenTools actual.tools
  budget : actual.tools.length ≤ gold.maxToolCalls
  evidence : Within gold.requiredEvidenceIds actual.evidenceIds
  edges : Within gold.requiredEdgeIds actual.edgeIds
  terminal : actual.terminalStatus = gold.expectedTerminalStatus

/-- What no adapter looks at. -/
structure AgentUnchecked (gold : AgentGold) (actual : AgentOutcome) : Prop where
  order : gold.allowedToolOrders ≠ [] → actual.tools ∈ gold.allowedToolOrders
  sufficient : actual.sufficient = gold.expectedSufficient
  reasons : SameSet gold.expectedPartialReasonCodes actual.partialReasonCodes

def AlignmentChecked (gold : AlignmentGold) (actual : AlignmentOutcome) : Prop :=
  SameSet actual.selections gold.goldSelections ∨
    ∃ group ∈ gold.acceptableAlternativeSets, SameSet actual.selections group

structure AlignmentUnchecked (gold : AlignmentGold) (actual : AlignmentOutcome) : Prop where
  profile : actual.profileId = gold.profileId
  paper : Within gold.requiredPaperEvidenceIds actual.paperEvidenceIds
  code : Within gold.requiredCodeEvidenceIds actual.codeEvidenceIds

structure AnswerChecked (gold : AnswerGold) (actual : AnswerOutcome) : Prop where
  points : Within gold.requiredAnswerPoints actual.answerPointIds
  evidence : Within gold.requiredEvidenceIds actual.evidenceIds
  forbidden : Apart gold.forbiddenClaims (actual.claims.map (textOf "text"))
  isPartial : actual.isPartial = gold.partialExpected

def AnswerUnchecked (gold : AnswerGold) (actual : AnswerOutcome) : Prop :=
  gold.allowedCitationSets ≠ [] →
    ∃ citations ∈ gold.allowedCitationSets, SameSet citations actual.citationIds

structure ObservabilityChecked (gold : ObservabilityGold) (actual : ObservabilityOutcome) :
    Prop where
  operations : Within gold.requiredOperations actual.operationNames
  forbidden : Apart gold.forbiddenAttributes actual.observedAttributeKeys
  completeness : actual.completeness = gold.requiredIntegrityState
  flags : Within actual.integrityFlags gold.allowedIntegrityFlags
  drops : actual.dropCount ≤ gold.maxDropCount
  spans : actual.missingSpanCount ≤ gold.maxMissingSpanCount

structure ObservabilityUnchecked (gold : ObservabilityGold) (actual : ObservabilityOutcome) :
    Prop where
  edges : Within gold.requiredParentChildEdges actual.parentChildEdges
  links : Within gold.requiredLinks actual.links

def Checked : Gold → Outcome → Prop
  | .index gold, .index actual => IndexChecked gold actual
  | .retrieval gold, .retrieval actual => RetrievalChecked gold actual
  | .agent gold, .agent actual => AgentChecked gold actual
  | .alignment gold, .alignment actual => AlignmentChecked gold actual
  | .answer gold, .answer actual => AnswerChecked gold actual
  | .observability gold, .observability actual => ObservabilityChecked gold actual
  | _, _ => False

/-- The requirements that no adapter checks. -/
def Unchecked : Gold → Outcome → Prop
  | .agent gold, .agent actual => AgentUnchecked gold actual
  | .alignment gold, .alignment actual => AlignmentUnchecked gold actual
  | .answer gold, .answer actual => AnswerUnchecked gold actual
  | .observability gold, .observability actual => ObservabilityUnchecked gold actual
  | _, _ => True

def Satisfied (gold : Gold) (outcome : Outcome) : Prop :=
  Checked gold outcome ∧ Unchecked gold outcome

/-- A gold with more in its lists of what is required and of what is forbidden. -/
inductive Extends : Gold → Gold → Prop
  | index {gold gold' : IndexGold}
      (entities : Within gold.requiredEntityIds gold'.requiredEntityIds)
      (edges : Within gold.requiredEdgeIds gold'.requiredEdgeIds)
      (evidence : Within gold.requiredEvidenceIds gold'.requiredEvidenceIds)
      (chunks : Within gold.requiredChunkIds gold'.requiredChunkIds)
      (unresolved : gold'.allowedUnresolvedSymbols = gold.allowedUnresolvedSymbols) :
      Extends (.index gold) (.index gold')
  | retrieval {gold gold' : RetrievalGold}
      (entities : Within gold.requiredEntityIds gold'.requiredEntityIds)
      (chunks : Within gold.requiredChunkIds gold'.requiredChunkIds)
      (paths : Within gold.requiredPaths gold'.requiredPaths) :
      Extends (.retrieval gold) (.retrieval gold')
  | agent {gold gold' : AgentGold}
      (tools : Within gold.requiredTools gold'.requiredTools)
      (forbidden : Within gold.forbiddenTools gold'.forbiddenTools)
      (evidence : Within gold.requiredEvidenceIds gold'.requiredEvidenceIds)
      (edges : Within gold.requiredEdgeIds gold'.requiredEdgeIds)
      (same : gold' = { gold with
        requiredTools := gold'.requiredTools, forbiddenTools := gold'.forbiddenTools
        requiredEvidenceIds := gold'.requiredEvidenceIds
        requiredEdgeIds := gold'.requiredEdgeIds }) :
      Extends (.agent gold) (.agent gold')
  | alignment {gold gold' : AlignmentGold}
      (paper : Within gold.requiredPaperEvidenceIds gold'.requiredPaperEvidenceIds)
      (code : Within gold.requiredCodeEvidenceIds gold'.requiredCodeEvidenceIds)
      (same : gold' = { gold with
        requiredPaperEvidenceIds := gold'.requiredPaperEvidenceIds
        requiredCodeEvidenceIds := gold'.requiredCodeEvidenceIds }) :
      Extends (.alignment gold) (.alignment gold')
  | answer {gold gold' : AnswerGold}
      (points : Within gold.requiredAnswerPoints gold'.requiredAnswerPoints)
      (evidence : Within gold.requiredEvidenceIds gold'.requiredEvidenceIds)
      (forbidden : Within gold.forbiddenClaims gold'.forbiddenClaims)
      (same : gold' = { gold with
        requiredAnswerPoints := gold'.requiredAnswerPoints
        requiredEvidenceIds := gold'.requiredEvidenceIds
        forbiddenClaims := gold'.forbiddenClaims }) :
      Extends (.answer gold) (.answer gold')
  | observability {gold gold' : ObservabilityGold}
      (operations : Within gold.requiredOperations gold'.requiredOperations)
      (edges : Within gold.requiredParentChildEdges gold'.requiredParentChildEdges)
      (links : Within gold.requiredLinks gold'.requiredLinks)
      (forbidden : Within gold.forbiddenAttributes gold'.forbiddenAttributes)
      (same : gold' = { gold with
        requiredOperations := gold'.requiredOperations
        requiredParentChildEdges := gold'.requiredParentChildEdges
        requiredLinks := gold'.requiredLinks
        forbiddenAttributes := gold'.forbiddenAttributes }) :
      Extends (.observability gold) (.observability gold')

section Verdicts

@[simp] theorem failure_eq_nil_iff {required : Prop} [Decidable required] {code : String} :
    failure required code = [] ↔ required := by
  unfold failure
  split_ifs <;> simp_all

@[simp] theorem missing_eq_nil_iff {kind : String} {expected actual : List String} :
    missing kind expected actual = [] ↔ Within expected actual := failure_eq_nil_iff

theorem Within.trans {α : Type} {l m n : List α} (h : Within l m) (h' : Within m n) : Within l n :=
  fun x hx => h' x (h x hx)

theorem Within.apart {α : Type} {l m n : List α} (h : Within l m) (h' : Apart m n) : Apart l n :=
  fun x hx => h' x (h x hx)

theorem indexFailures_eq_nil_iff {gold : IndexGold} {actual : IndexOutcome} :
    indexFailures gold actual = [] ↔ IndexChecked gold actual := by
  simp only [indexFailures, List.append_eq_nil_iff, missing_eq_nil_iff, failure_eq_nil_iff]
  constructor
  · rintro ⟨⟨⟨⟨entities, edges⟩, evidence⟩, chunks⟩, unresolved⟩
    exact ⟨entities, edges, evidence, chunks, unresolved⟩
  · intro h
    exact ⟨⟨⟨⟨h.entities, h.edges⟩, h.evidence⟩, h.chunks⟩, h.unresolved⟩

theorem retrievalFailures_eq_nil_iff {gold : RetrievalGold} {actual : RetrievalOutcome} :
    retrievalFailures gold actual = [] ↔ RetrievalChecked gold actual := by
  have hpaths : ¬ (gold.requiredPaths ≠ [] ∧ ¬ Within gold.requiredPaths actual.graphPaths) ↔
      Within gold.requiredPaths actual.graphPaths := by
    rw [not_and_not_right]
    refine ⟨fun h path hpath => h (List.ne_nil_of_mem hpath) path hpath, fun h _ => h⟩
  simp only [retrievalFailures, List.append_eq_nil_iff, missing_eq_nil_iff, failure_eq_nil_iff,
    hpaths]
  constructor
  · rintro ⟨⟨entities, chunks⟩, paths⟩
    exact ⟨entities, chunks, paths⟩
  · intro h
    exact ⟨⟨h.entities, h.chunks⟩, h.paths⟩

theorem agentFailures_eq_nil_iff {gold : AgentGold} {actual : AgentOutcome} :
    agentFailures gold actual = [] ↔ AgentChecked gold actual := by
  simp only [agentFailures, List.append_eq_nil_iff, missing_eq_nil_iff, failure_eq_nil_iff]
  constructor
  · rintro ⟨⟨⟨⟨⟨⟨route, tools⟩, forbidden⟩, budget⟩, evidence⟩, edges⟩, terminal⟩
    exact ⟨route, tools, forbidden, budget, evidence, edges, terminal⟩
  · intro h
    exact ⟨⟨⟨⟨⟨⟨h.route, h.tools⟩, h.forbidden⟩, h.budget⟩, h.evidence⟩, h.edges⟩, h.terminal⟩

theorem answerFailures_eq_nil_iff {gold : AnswerGold} {actual : AnswerOutcome} :
    answerFailures gold actual = [] ↔ AnswerChecked gold actual := by
  simp only [answerFailures, List.append_eq_nil_iff, missing_eq_nil_iff, failure_eq_nil_iff]
  constructor
  · rintro ⟨⟨⟨points, evidence⟩, forbidden⟩, hpartial⟩
    exact ⟨points, evidence, forbidden, hpartial⟩
  · intro h
    exact ⟨⟨⟨h.points, h.evidence⟩, h.forbidden⟩, h.isPartial⟩

theorem observabilityFailures_eq_nil_iff {gold : ObservabilityGold}
    {actual : ObservabilityOutcome} :
    observabilityFailures gold actual = [] ↔ ObservabilityChecked gold actual := by
  simp only [observabilityFailures, List.append_eq_nil_iff, missing_eq_nil_iff,
    failure_eq_nil_iff]
  constructor
  · rintro ⟨⟨⟨⟨⟨operations, forbidden⟩, completeness⟩, flags⟩, drops⟩, spans⟩
    exact ⟨operations, forbidden, completeness, flags, drops, spans⟩
  · intro h
    exact ⟨⟨⟨⟨⟨h.operations, h.forbidden⟩, h.completeness⟩, h.flags⟩, h.drops⟩, h.spans⟩

variable {gold gold' : Gold} {outcome : Outcome}

theorem qualityFailures_eq_nil_iff :
    qualityFailures gold outcome = .ok [] ↔ Checked gold outcome := by
  cases gold <;> cases outcome <;> simp only [qualityFailures, Checked, reduceCtorEq,
    Except.ok.injEq, indexFailures_eq_nil_iff, retrievalFailures_eq_nil_iff,
    agentFailures_eq_nil_iff, answerFailures_eq_nil_iff, observabilityFailures_eq_nil_iff]
  case alignment.alignment gold actual => exact failure_eq_nil_iff

theorem exists_qualityFailures (h : outcome.component = gold.component) :
    ∃ codes, qualityFailures gold outcome = .ok codes := by
  cases gold <;> cases outcome <;> first | exact ⟨_, rfl⟩ | cases h

theorem Extends.component (h : Extends gold gold') : gold'.component = gold.component := by
  cases h <;> rfl

/-- What a gold with more in its lists accepts, the gold accepts. -/
theorem Extends.checked (h : Extends gold gold') (hchecked : Checked gold' outcome) :
    Checked gold outcome := by
  cases h <;> cases outcome <;> try exact hchecked.elim
  case index.index entities edges evidence chunks unresolved actual =>
    have h : IndexChecked _ actual := hchecked
    exact ⟨entities.trans h.entities, edges.trans h.edges, evidence.trans h.evidence,
      chunks.trans h.chunks, unresolved ▸ h.unresolved⟩
  case retrieval.retrieval entities chunks paths actual =>
    have h : RetrievalChecked _ actual := hchecked
    exact ⟨entities.trans h.entities, chunks.trans h.chunks, paths.trans h.paths⟩
  case agent.agent tools forbidden evidence edges same actual =>
    rw [same] at hchecked
    have h : AgentChecked _ actual := hchecked
    exact ⟨h.route, tools.trans h.tools, forbidden.apart h.forbidden, h.budget,
      evidence.trans h.evidence, edges.trans h.edges, h.terminal⟩
  case alignment.alignment paper code same actual =>
    rw [same] at hchecked
    exact hchecked
  case answer.answer points evidence forbidden same actual =>
    rw [same] at hchecked
    have h : AnswerChecked _ actual := hchecked
    exact ⟨points.trans h.points, evidence.trans h.evidence, forbidden.apart h.forbidden,
      h.isPartial⟩
  case observability.observability operations edges links forbidden same actual =>
    rw [same] at hchecked
    have h : ObservabilityChecked _ actual := hchecked
    exact ⟨operations.trans h.operations, forbidden.apart h.forbidden, h.completeness, h.flags,
      h.drops, h.spans⟩

variable {Ref Content : Type} {component : Component} {case : Case}
  {context : Context Ref Content}

/-- The verdict on an outcome says whether the checked requirements hold. -/
theorem execute_evaluationOutcome (h : outcomeOf component case context = .ok (some outcome))
    (hmatch : outcome.component = case.component) :
    ((execute component case context).evaluationOutcome = some .passed ↔
      Checked case.gold outcome) ∧
    ((execute component case context).evaluationOutcome = some .failed ↔
      ¬ Checked case.gold outcome) := by
  obtain ⟨codes, hcodes⟩ := exists_qualityFailures (hmatch.trans case.consistent.symm)
  have hnil : codes = [] ↔ Checked case.gold outcome := by
    rw [← qualityFailures_eq_nil_iff, hcodes, Except.ok.injEq]
  rw [← hnil, execute, h]
  dsimp only
  rw [hcodes]
  dsimp only
  by_cases hempty : codes = []
  · rw [if_pos hempty]
    simp [hempty]
  · rw [if_neg hempty]
    simp [hempty]

end Verdicts

/-- The verdict is passed where every requirement holds, and failed where one does not. -/
structure Enforced (gold : Gold) (outcome : Outcome) (result : Result) : Prop where
  passed : result.evaluationOutcome = some .passed ↔ Satisfied gold outcome
  failed : result.evaluationOutcome = some .failed ↔ ¬ Satisfied gold outcome

/-- The requirements of a gold are enforced exactly on the outcomes that fail one which the
adapters check or meet all of the others, and no failed outcome passes with more required or
forbidden. -/
theorem execute_enforced_iff {Ref Content : Type} (component : Component) (case : Case)
    (context : Context Ref Content) (outcome : Outcome)
    (houtcome : outcomeOf component case context = .ok (some outcome))
    (hmatch : outcome.component = case.component) :
    (Enforced case.gold outcome (execute component case context) ↔
      (Checked case.gold outcome → Unchecked case.gold outcome)) ∧
    ∀ (case' : Case) (context' : Context Ref Content),
      outcomeOf component case' context' = .ok (some outcome) →
        Extends case.gold case'.gold →
          (execute component case context).evaluationOutcome = some .failed →
            (execute component case' context').evaluationOutcome = some .failed := by
  obtain ⟨hpassed, hfailed⟩ := execute_evaluationOutcome houtcome hmatch
  constructor
  · constructor
    · intro h hchecked
      exact (h.passed.mp (hpassed.mpr hchecked)).2
    · intro h
      have hsatisfied : Satisfied case.gold outcome ↔ Checked case.gold outcome :=
        and_iff_left_of_imp h
      exact ⟨hpassed.trans hsatisfied.symm, hfailed.trans (not_congr hsatisfied.symm)⟩
  · intro case' context' houtcome' hextends hfailure
    have hmatch' : outcome.component = case'.component := by
      rw [hmatch, ← case.consistent, ← case'.consistent, hextends.component]
    exact (execute_evaluationOutcome houtcome' hmatch').2.mpr fun hchecked =>
      hfailed.mp hfailure (hextends.checked hchecked)

namespace Sample

def gold : ObservabilityGold where
  requiredOperations := ["agent.run"]
  requiredParentChildEdges := []
  requiredLinks := [{("span", "agent.run"), ("replay_of", "run_1")}]
  forbiddenAttributes := []
  requiredIntegrityState := .complete
  allowedIntegrityFlags := []
  maxDropCount := 0
  maxMissingSpanCount := 0

def outcome (links : List Link) : Outcome :=
  .observability ⟨["agent.run"], [], links, [], .complete, [], 0, 0⟩

def case : Case := ⟨"case_1", .observability, [], .observability gold, rfl⟩

def context (links : List Link) : Context Unit Unit where
  artifactRefs _ := none
  resolve _ := .ok ()
  isPrediction _ := false
  resolvedArtifacts _ := none
  fixedOutcomes _ := some (outcome links)
  executor := none
  validateJson _ := .error (.other none)

end Sample

/-- An outcome with the link that is required. -/
theorem linked_enforced : Enforced (.observability Sample.gold)
    (Sample.outcome Sample.gold.requiredLinks)
    (execute .observability Sample.case (Sample.context Sample.gold.requiredLinks)) :=
  (execute_enforced_iff .observability Sample.case (Sample.context Sample.gold.requiredLinks)
    (Sample.outcome Sample.gold.requiredLinks) rfl rfl).1.mpr
      fun _ => ⟨fun _ h => h, fun _ h => h⟩

/-- Without the link that is required the case is passed. -/
theorem unlinked_passed : ¬ Enforced (.observability Sample.gold) (Sample.outcome [])
    (execute .observability Sample.case (Sample.context [])) := by
  intro h
  have hpassed : (execute .observability Sample.case (Sample.context [])).evaluationOutcome =
      some .passed := by decide
  have hunchecked : ObservabilityUnchecked Sample.gold
      ⟨["agent.run"], [], [], [], .complete, [], 0, 0⟩ := (h.passed.mp hpassed).2
  exact absurd (hunchecked.links _ List.mem_cons_self) List.not_mem_nil

end CodeResearch.Evaluation.Requirements
