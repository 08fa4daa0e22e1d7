import CodeResearch.Research.Answer

/-!
# The citation validator of retrieval

`CitationValidator.validate` checks a generated answer against the evidence of its
context. The research agent has a validator of its own, over its own schemas.
-/
namespace CodeResearch.Retrieval

open Research (AnswerCitation ContextBundle lookupEvidence validCitation)

structure AnswerClaim where
  claimId : String
  text : String
  citationIds : List String
  supported : Bool
  deriving DecidableEq

structure ResearchAnswer where
  answer : String
  claims : List AnswerClaim
  citations : List AnswerCitation
  unsupportedClaims : List String := []
  confidence : ℚ
  deriving DecidableEq

structure CitationValidationResult where
  answer : ResearchAnswer
  evidenceOnly : Bool
  warnings : List String
  deriving DecidableEq

/-- The loop over the citations, with those that are valid and their identifiers. -/
def keepCitation (context : ContextBundle) (kept : List AnswerCitation × List String)
    (citation : AnswerCitation) : List AnswerCitation × List String :=
  match lookupEvidence context citation.contextId citation.evidenceId with
  | none => kept
  | some (item, evidence) =>
    if citation.entityId ≠ item.entityId then kept
    else
      let valid : AnswerCitation :=
        { citationId := citation.citationId
          contextId := item.contextId
          evidenceId := evidence.evidenceId
          entityId := item.entityId
          path := evidence.path
          startLine := evidence.startLine
          endLine := evidence.endLine
          paperId := evidence.paperId
          pageNumber := evidence.pageNumber }
      (kept.1 ++ [valid], kept.2 ++ [valid.citationId])

def checkClaim (validIds : List String) (checked : List AnswerClaim × List String)
    (claim : AnswerClaim) : List AnswerClaim × List String :=
  let citationIds := claim.citationIds.filter (· ∈ validIds)
  let supported := citationIds ≠ []
  let unsupported :=
    if ¬ supported ∧ claim.text ∉ checked.2 then checked.2 ++ [claim.text] else checked.2
  (checked.1 ++ [{ claim with citationIds, supported }], unsupported)

/-- `CitationValidator.validate`. -/
def validate (generated : ResearchAnswer) (context : ContextBundle) : CitationValidationResult :=
  let (citations, validIds) := generated.citations.foldl (keepCitation context) ([], [])
  let (claims, unsupportedClaims) :=
    generated.claims.foldl (checkClaim validIds) ([], generated.unsupportedClaims)
  let evidenceOnly := decide (claims ≠ []) && !claims.any AnswerClaim.supported
  { answer :=
      { generated with
        claims
        citations
        unsupportedClaims
        confidence :=
          if evidenceOnly then min generated.confidence (1 / 4) else generated.confidence }
    evidenceOnly
    warnings :=
      (if citations.length ≠ generated.citations.length then ["invalid_citations_removed"]
        else []) ++
      if evidenceOnly then ["all_claims_unsupported_evidence_only"] else [] }

theorem keepCitation_eq (context : ContextBundle) (kept : List AnswerCitation × List String)
    (citation : AnswerCitation) :
    keepCitation context kept citation =
      (kept.1 ++ (validCitation context citation).toList,
        kept.2 ++ (validCitation context citation).toList.map AnswerCitation.citationId) := by
  unfold keepCitation validCitation
  cases lookupEvidence context citation.contextId citation.evidenceId with
  | none => simp
  | some found =>
    by_cases hentity : citation.entityId = found.1.entityId <;> simp [hentity]

theorem foldl_keepCitation (context : ContextBundle) (citations : List AnswerCitation)
    (kept : List AnswerCitation × List String) :
    citations.foldl (keepCitation context) kept =
      (kept.1 ++ citations.filterMap (validCitation context),
        kept.2 ++ (citations.filterMap (validCitation context)).map AnswerCitation.citationId) := by
  induction citations generalizing kept with
  | nil => simp
  | cons citation citations ih =>
    rw [List.foldl_cons, ih, keepCitation_eq, List.filterMap_cons]
    cases validCitation context citation <;> simp

theorem foldl_checkClaim (validIds : List String) (claims : List AnswerClaim)
    (checked : List AnswerClaim × List String) :
    (claims.foldl (checkClaim validIds) checked).1.map AnswerClaim.citationIds =
      checked.1.map AnswerClaim.citationIds ++
        claims.map fun claim => claim.citationIds.filter (· ∈ validIds) := by
  induction claims generalizing checked with
  | nil => simp
  | cons claim claims ih =>
    rw [List.foldl_cons, ih]
    simp [checkClaim]

theorem validate_citations (generated : ResearchAnswer) (context : ContextBundle) :
    (validate generated context).answer.citations =
      generated.citations.filterMap (validCitation context) := by
  simp [validate, foldl_keepCitation]

theorem validate_citationIds (generated : ResearchAnswer) (context : ContextBundle) :
    (validate generated context).answer.claims.map AnswerClaim.citationIds =
      generated.claims.map fun claim => claim.citationIds.filter
        (· ∈ (generated.citations.filterMap (validCitation context)).map
          AnswerCitation.citationId) := by
  simp only [validate, foldl_keepCitation, foldl_checkClaim, List.map_nil, List.nil_append]

end CodeResearch.Retrieval
