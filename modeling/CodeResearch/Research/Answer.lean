import CodeResearch.Research.Schemas
import Mathlib

/-!
# Evidence assessment and the answer pipeline
-/
namespace CodeResearch.Research

/-- `_unique`: the first occurrences of the values that are not empty. -/
def unique (values : List String) : List String := (values.filter (· ≠ "")).eraseDups

def successful (observations : List ToolObservation) : List ToolObservation :=
  observations.filter fun o => o.status = .success

def graphRequired (t : QueryType) : Prop :=
  t ∈ [.callChain, .architecture, .trainingProcess, .inferenceProcess, .paperAlignment]

instance (t : QueryType) : Decidable (graphRequired t) :=
  inferInstanceAs (Decidable (_ ∈ _))

def criterion (name : String) (satisfied : Bool) (evidenceIds : List String) (reason : String) :
    EvidenceCriterionResult :=
  ⟨name, satisfied, evidenceIds, if satisfied then none else some reason⟩

/-- The criteria of `EvidenceSufficiencyChecker.assess`. -/
def criteria (queryType : QueryType) (observations : List ToolObservation) :
    List EvidenceCriterionResult :=
  let successful := successful observations
  let entityIds := unique (successful.flatMap ToolObservation.entityIds)
  let evidenceIds := unique (successful.flatMap ToolObservation.evidenceIds)
  let edgeIds := unique (successful.flatMap ToolObservation.edgeIds)
  let code := criterion "code_evidence" (entityIds ≠ [] ∧ evidenceIds ≠ []) evidenceIds
    "No entity with path/page evidence was returned."
  let graph := criterion "graph_evidence" (edgeIds ≠ []) edgeIds
    "No resolved graph edge was returned."
  let paper := criterion "paper_alignment_evidence"
    (successful.any fun o => o.toolName ∈ [ToolName.searchPaper, .getAlignment])
    (evidenceIds ++ edgeIds) "No paper/alignment result was returned."
  code :: ((if graphRequired queryType then [graph] else []) ++
    if queryType = .paperAlignment then [paper] else [])

/-- `EvidenceSufficiencyChecker.assess`. -/
def assess (queryType : QueryType) (route : ResearchRoute) (observations : List ToolObservation)
    (hasRemainingSteps directEscalatedToPlanned canReplan : Bool) : EvidenceAssessment :=
  let successful := successful observations
  let criteria := criteria queryType observations
  let sufficient := criteria.all EvidenceCriterionResult.satisfied
  let missing := (criteria.filter fun c => !c.satisfied).map EvidenceCriterionResult.criterion
  { queryType
    sufficient
    criteria
    coveredEntityIds := unique (successful.flatMap ToolObservation.entityIds)
    coveredEvidenceIds := unique (successful.flatMap ToolObservation.evidenceIds)
    missingEvidence := missing
    confidence :=
      if sufficient then 1
      else (criteria.countP EvidenceCriterionResult.satisfied : ℚ) / (criteria.length : ℚ)
    nextAction :=
      if sufficient then .buildContext
      else if hasRemainingSteps then .resolveNext
      else if route = .direct ∧ ¬ directEscalatedToPlanned then .escalateToPlan
      else if route = .planned ∧ canReplan then .replan
      else .finishPartial }

/-- `lookup.get((context_id, evidence_id))`: the last entry of a key counts. -/
def lookupEvidence (context : ContextBundle) (contextId evidenceId : String) :
    Option (ContextItem × RetrievalEvidence) :=
  (context.items.flatMap fun item => item.evidence.map fun evidence => (item, evidence)).reverse.find?
    fun p => p.1.contextId = contextId ∧ p.2.evidenceId = evidenceId

/-- The citation that the validator keeps in the place of a generated one. -/
def validCitation (context : ContextBundle) (citation : AnswerCitation) : Option AnswerCitation :=
  (lookupEvidence context citation.contextId citation.evidenceId).bind fun (item, evidence) =>
    if citation.entityId = item.entityId then
      some
        { citationId := citation.citationId
          contextId := item.contextId
          evidenceId := evidence.evidenceId
          entityId := item.entityId
          path := evidence.path
          startLine := evidence.startLine
          endLine := evidence.endLine
          paperId := evidence.paperId
          pageNumber := evidence.pageNumber }
    else none

/-- `AgentCitationValidator.validate`: the draft and the identifiers it lost. -/
def validateCitations (draft : DraftResearchAnswer) (context : ContextBundle) :
    DraftResearchAnswer × List String :=
  let valid := draft.citations.filterMap (validCitation context)
  let invalid := draft.citations.filter fun c => (validCitation context c).isNone
  let validIds := valid.map AnswerCitation.citationId
  ({ draft with
      citations := valid
      claims := draft.claims.map fun claim =>
        { claim with citationIds := claim.citationIds.filter (· ∈ validIds) } },
    invalid.map AnswerCitation.citationId)

/-- `ClaimVerifier.verify`. -/
def verifyClaims (draft : DraftResearchAnswer) : ValidatedResearchAnswer :=
  let claims := draft.claims.map fun claim =>
    if claim.citationIds ≠ [] then
      { claim with supportStatus := .supported, supportReason := none }
    else
      { claim with
        supportStatus := SupportStatus.unsupported
        supportReason := some "No valid citation supports this claim." }
  { answer := draft.answer
    claims
    citations := draft.citations
    confidence :=
      if claims.any fun c => c.supportStatus = .supported then draft.confidence
      else min draft.confidence (1 / 5) }

/-- `AnswerFinalizer.finalize`. -/
def finalize (validated : ValidatedResearchAnswer) : AgentResearchAnswer :=
  let having := fun status => validated.claims.filter fun c => c.supportStatus = status
  let visible := (having .supported).map (·.text) ++
    (having .partiallySupported).map fun c => "证据仅部分支持：" ++ c.text
  { answer :=
      if visible ≠ [] then "\n".intercalate visible
      else "现有证据不足，以下仅返回已检索到的证据。"
    claims := validated.claims
    citations := validated.citations
    unsupportedClaims := (having .unsupported).map (·.text)
    confidence := if visible = [] then min validated.confidence (1 / 5) else validated.confidence
    evidenceOnly := visible = [] }

end CodeResearch.Research
