import CodeResearch.Alignment.Verifier
import CodeResearch.Library.Json

/-!
# Payloads of the verifier's provider

A provider answers with JSON. The router returns the first answer that is a response and
passes the verifier's check, and the verifier checks it again.
-/
namespace CodeResearch.Alignment

def AlignmentRelation.ofText : String → Option AlignmentRelation
  | "implements" => some .implements
  | "partially_implements" => some .partiallyImplements
  | "supports_training" => some .supportsTraining
  | "supports_inference" => some .supportsInference
  | "configures" => some .configures
  | _ => none

def Verdict.ofText : String → Option Verdict
  | "accept" => some .accept
  | "abstain" => some .abstain
  | "needs_review" => some .needsReview
  | _ => none

/-- `AlignmentSelectionProposal.model_validate`. -/
def SelectionProposal.ofJson (value : Json) : Option SelectionProposal := do
  let entries ← value.entriesWithin
    ["candidate_id", "relation_type", "evidence_ids", "reason_codes"]
  let candidateId ← Json.textField "candidate_id" entries
  let relationType ← (Json.textField "relation_type" entries).bind AlignmentRelation.ofText
  let evidenceIds ← Json.textsField "evidence_ids" entries
  let reasonCodes ← Json.textsField "reason_codes" entries
  return { candidateId, relationType, evidenceIds, reasonCodes }

/-- What the router adds to an answer, and which metadata of its own an answer may hold. -/
structure CallMetadata where
  isMetadata : Json → Bool
  describe : Json → String

/-- `AlignmentVerifierResponse.model_validate`, with the metadata of the router. -/
def VerifierResponse.ofJson (call : CallMetadata) (value : Json) : Option VerifierResponse := do
  let entries ← value.entriesWithin ["selections", "verdict", "uncertainties", "metadata"]
  let items ← match Json.field "selections" entries with
    | none => some []
    | some selections => selections.asList
  guard (items.length ≤ 10)
  let selections ← items.mapM SelectionProposal.ofJson
  let verdict ← (Json.textField "verdict" entries).bind Verdict.ofText
  let uncertainties ← Json.textsField "uncertainties" entries
  guard (uncertainties.length ≤ 20)
  match Json.field "metadata" entries with
  | none | some .null => pure ()
  | some metadata => guard (call.isMetadata metadata)
  return { selections, verdict, uncertainties, metadata := call.describe value }

/-- The answers that the router gets on a request, in order: cached ones, and those of the
providers it asks. -/
structure PayloadRouter where
  answers : PaperModuleProfile → List AlignmentCandidate →
    (String → Option AlignmentCandidateScore) → List Json
  call : CallMetadata

/-- `generate_structured` with the verifier's check as its `result_validator`. -/
def PayloadRouter.generateStructured (router : PayloadRouter) : Provider where
  generate profile candidates lookup :=
    ((router.answers profile candidates lookup).filterMap (VerifierResponse.ofJson router.call)).find?
      fun response => response.Valid candidates
        (profile.evidenceIds ++ candidates.flatMap AlignmentCandidate.codeEvidenceIds)

def shownCandidates (candidates : List AlignmentCandidate) (scores : List AlignmentCandidateScore) :
    List AlignmentCandidate :=
  (ranked (fun c : AlignmentCandidate =>
    ((scoreByCandidate scores c.candidateId).map AlignmentCandidateScore.probability).getD 0)
      AlignmentCandidate.candidateId candidates).take 5

structure Trusted (profile : PaperModuleProfile) (scores : List AlignmentCandidateScore)
    (scorerDecision : AlignmentDecision) (candidate : AlignmentCandidate)
    (selection : AlignmentSelection) : Prop where
  candidateId : selection.candidateId = candidate.candidateId
  paperEvidenceIds : selection.paperEvidenceIds = profile.evidenceIds
  codeEvidenceIds : selection.codeEvidenceIds = candidate.codeEvidenceIds
  scored : ∀ score, scoreByCandidate scores candidate.candidateId = some score →
    selection.rawScore = some score.coverageAdjustedScore ∧
      selection.calibratedMatchProbability = score.calibratedMatchProbability
  unscored : scoreByCandidate scores candidate.candidateId = none →
    selection.rawScore = (dictBy AlignmentSelection.candidateId scorerDecision.selections
      candidate.candidateId).bind AlignmentSelection.rawScore ∧
    selection.calibratedMatchProbability =
      (dictBy AlignmentSelection.candidateId scorerDecision.selections
        candidate.candidateId).bind AlignmentSelection.calibratedMatchProbability

variable {ids : AlignmentIds} {verificationIds : VerificationIds} {profile : PaperModuleProfile}
  {candidates : List AlignmentCandidate} {scores : List AlignmentCandidateScore}
  {scorerDecision : AlignmentDecision}

theorem trusted_proposedSelection {shown : List AlignmentCandidate} {candidate : AlignmentCandidate}
    {proposal : SelectionProposal}
    (h : candidateById shown proposal.candidateId = some candidate) :
    Trusted profile scores scorerDecision candidate
      (proposedSelection ids profile candidate (scoreByCandidate scores proposal.candidateId)
        scorerDecision proposal) := by
  have hid : candidate.candidateId = proposal.candidateId := (mem_of_dictBy h).2
  refine ⟨hid.symm, rfl, rfl, fun score hscore => ?_, fun hnone => ?_⟩
  · rw [hid] at hscore
    unfold proposedSelection
    rw [hscore]
    exact ⟨rfl, rfl⟩
  · rw [hid] at hnone ⊢
    unfold proposedSelection
    rw [hnone]
    exact ⟨rfl, rfl⟩

/-- What an accepted answer is stored as: the selections of its proposals, one for each. -/
theorem verify_ok {provider : Provider} {result : AlignmentVerification × List AlignmentSelection}
    (h : provider.verify ids verificationIds profile candidates scores scorerDecision =
      some result) :
    result.1.status = .success ∧
    (∀ proposal ∈ result.1.proposedSelections, ∀ id ∈ proposal.evidenceIds,
      id ∈ profile.evidenceIds ∨
        ∃ candidate ∈ shownCandidates candidates scores, id ∈ candidate.codeEvidenceIds) ∧
    (result.1.verdict ≠ .accept → result.1.proposedSelections = []) ∧
    result.2.map AlignmentSelection.candidateId =
      result.1.proposedSelections.map SelectionProposal.candidateId ∧
    (result.2.map AlignmentSelection.candidateId).Nodup ∧
    ∀ selection ∈ result.2, ∃ candidate ∈ shownCandidates candidates scores,
      Trusted profile scores scorerDecision candidate selection := by
  obtain ⟨response, _, hvalidate⟩ := Option.bind_eq_some_iff.mp h
  unfold validateVerifierOutput at hvalidate
  dsimp only at hvalidate
  split_ifs at hvalidate with hvalid
  cases hvalidate
  obtain ⟨hknown, hnodup, hverdict⟩ := hvalid
  have hlookup : ∀ proposal ∈ response.selections, ∃ candidate,
      candidateById (shownCandidates candidates scores) proposal.candidateId = some candidate :=
    fun proposal hproposal => exists_dictBy (hknown proposal hproposal).1
  have hids : (response.selections.filterMap fun proposal =>
      (candidateById (shownCandidates candidates scores) proposal.candidateId).map fun candidate =>
        proposedSelection ids profile candidate (scoreByCandidate scores proposal.candidateId)
          scorerDecision proposal).map AlignmentSelection.candidateId =
      response.selections.map SelectionProposal.candidateId := by
    apply map_filterMap_of_some
    intro proposal hproposal
    obtain ⟨candidate, hcandidate⟩ := hlookup proposal hproposal
    exact ⟨_, by rw [hcandidate]; rfl, rfl⟩
  refine ⟨rfl, fun proposal hproposal id hid => ?evidence, hverdict, hids, ?nodup, ?trusted⟩
  case evidence =>
    rcases List.mem_append.mp ((hknown proposal hproposal).2 id hid) with hpaper | hcode
    · exact .inl hpaper
    · exact .inr (List.mem_flatMap.mp hcode)
  case nodup => exact (congrArg List.Nodup hids).mpr hnodup
  case trusted =>
    intro selection hselection
    obtain ⟨proposal, hproposal, hsome⟩ := List.mem_filterMap.mp hselection
    obtain ⟨candidate, hcandidate, rfl⟩ := Option.map_eq_some_iff.mp hsome
    exact ⟨candidate, (mem_of_dictBy hcandidate).1, trusted_proposedSelection hcandidate⟩

/-- What the verified decision of a profile and its stored verification may hold. -/
structure Contained (profile : PaperModuleProfile) (candidates : List AlignmentCandidate)
    (scores : List AlignmentCandidateScore) (scorerDecision : AlignmentDecision)
    (decision : AlignmentDecision) (verification : AlignmentVerification) : Prop where
  trusted : ∀ selection ∈ decision.selections, ∃ candidate ∈ shownCandidates candidates scores,
    Trusted profile scores scorerDecision candidate selection
  distinct : (decision.selections.map AlignmentSelection.candidateId).Nodup
  cited : ∀ proposal ∈ verification.proposedSelections, ∀ id ∈ proposal.evidenceIds,
    id ∈ profile.evidenceIds ∨
      ∃ candidate ∈ shownCandidates candidates scores, id ∈ candidate.codeEvidenceIds
  proposed : decision.selections.map AlignmentSelection.candidateId =
    verification.proposedSelections.map SelectionProposal.candidateId
  accepts : decision.status = .accepted ↔
    verification.verdict = .accept ∧ verification.proposedSelections ≠ []
  defers : decision.status = .needsReview ↔ verification.verdict = .needsReview

/-- Whatever the provider answers, the decision of the scorer stands beside a fallback
verification, or the answer is contained in what the server supplied. -/
theorem verifyProfile_contained (ids : AlignmentIds) (verificationIds : VerificationIds)
    (router : Option PayloadRouter) (profile : PaperModuleProfile)
    (candidates : List AlignmentCandidate) (scores : List AlignmentCandidateScore)
    (scorerDecision : AlignmentDecision) :
    let result := verifyProfile ids verificationIds (router.map PayloadRouter.generateStructured)
      profile candidates scores scorerDecision
    result = (scorerDecision, fallbackVerification verificationIds profile candidates) ∨
      result.2.status = .success ∧
        Contained profile candidates scores scorerDecision result.1 result.2 := by
  dsimp only
  unfold verifyProfile
  cases hverify : (router.map PayloadRouter.generateStructured).bind fun provider =>
      provider.verify ids verificationIds profile candidates scores scorerDecision with
  | none => exact .inl rfl
  | some result =>
    obtain ⟨provider, _, hprovider⟩ := Option.bind_eq_some_iff.mp hverify
    obtain ⟨hsuccess, hcited, hverdict, hids, hnodup, htrusted⟩ := verify_ok hprovider
    refine .inr ⟨hsuccess, ?_⟩
    have hempty : result.2 = [] ↔ result.1.proposedSelections = [] := by
      rw [← List.map_eq_nil_iff (f := AlignmentSelection.candidateId), hids, List.map_eq_nil_iff]
    unfold applyVerifierDecision
    dsimp only
    split_ifs with haccept hreview
    · exact ⟨htrusted, hnodup, hcited, hids, by simp [haccept.1, hempty.not.mp haccept.2],
        by simp [haccept.1]⟩
    · have hnone := hverdict (by rw [hreview]; decide)
      exact ⟨by simp, by simp, hcited, by simp [hnone], by simp [hreview], by simp [hreview]⟩
    · have hnone : result.1.proposedSelections = [] := by
        by_cases hverdictAccept : result.1.verdict = .accept
        · by_contra hne
          exact haccept ⟨hverdictAccept, hempty.not.mpr hne⟩
        · exact hverdict hverdictAccept
      exact ⟨by simp, by simp, hcited, by simp [hnone], by simp [hnone], by simp [hreview]⟩

def demoCandidates : List AlignmentCandidate :=
  [⟨"first", "run", "profile", "first entity", ["first evidence"], ""⟩,
    ⟨"second", "run", "profile", "second entity", ["second evidence"], ""⟩]

def demoScorerDecision : AlignmentDecision where
  decisionId := "decision"
  alignmentRunId := "run"
  profileId := "profile"
  decisionVersion := "alignment-decision-v1"
  status := .needsReview
  selections := []
  decisionSource := .scorer
  reasonCodes := []
  scores := ""
  selects := selects_needsReview
  selectsNone := selectsNone_nil _

def demoVerify (answer : Json) : AlignmentDecision × AlignmentVerification :=
  verifyProfile ⟨id, fun decision candidate _ => decision ++ "/" ++ candidate, fun _ _ _ => ""⟩
    ⟨fun profile _ => profile, id⟩
    (some (PayloadRouter.generateStructured ⟨fun _ _ _ => [answer], ⟨fun _ => true, fun _ => ""⟩⟩))
    ⟨"profile", "run", .module, ["paper evidence"], ""⟩ demoCandidates [] demoScorerDecision

/-- A proposal for one candidate may cite the evidence of another, and a verdict that accepts
nothing is stored beside a decision that abstains. -/
theorem cross_citation_and_empty_accept :
    (∃ proposal ∈ (demoVerify (.dict [("verdict", .text "accept"), ("selections", .list [.dict
        [("candidate_id", .text "first"), ("relation_type", .text "implements"),
          ("evidence_ids", .list [.text "second evidence"])]])])).2.proposedSelections,
      proposal.candidateId = "first" ∧ proposal.evidenceIds = ["second evidence"]) ∧
    (demoVerify (.dict [("verdict", .text "accept")])).1.status = .abstained ∧
    (demoVerify (.dict [("verdict", .text "accept")])).2.verdict = .accept := by
  decide +kernel

end CodeResearch.Alignment
