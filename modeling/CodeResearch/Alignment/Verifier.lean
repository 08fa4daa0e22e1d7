import CodeResearch.Alignment.Decisions

/-!
# The verifier

A provider is asked about the five best candidates of a profile. What it answers is
checked and turned into a verification and selections; when it does not answer, a fallback
verification is stored and the decision of the scorer stands.
-/
namespace CodeResearch.Alignment

inductive Verdict
  | accept | abstain | needsReview
  deriving DecidableEq

def Verdict.name : Verdict → String
  | accept => "accept"
  | abstain => "abstain"
  | needsReview => "needs_review"

inductive VerificationStatus
  | success | fallback | failed | skipped
  deriving DecidableEq

structure SelectionProposal where
  candidateId : String
  relationType : AlignmentRelation
  evidenceIds : List String
  reasonCodes : List String
  deriving DecidableEq

/-- `AlignmentVerifierResponse`. -/
structure VerifierResponse where
  selections : List SelectionProposal
  verdict : Verdict
  uncertainties : List String
  /-- the provider, the model and the tokens as canonical text -/
  metadata : String
  deriving DecidableEq

structure AlignmentVerification where
  verificationId : String
  alignmentRunId : String
  profileId : String
  allowedCandidateIds : List String
  proposedSelections : List SelectionProposal
  verdict : Verdict
  evidenceIds : List String
  uncertainties : List String
  status : VerificationStatus
  metadata : String
  deriving DecidableEq

/-- The ids of verifications, which are digests. -/
structure VerificationIds where
  success : String → VerifierResponse → String
  fallback : String → String

/-- What a provider answers on a profile, its best candidates and their scores. -/
structure Provider where
  generate : PaperModuleProfile → List AlignmentCandidate →
    (String → Option AlignmentCandidateScore) → Option VerifierResponse

variable (ids : AlignmentIds) (verificationIds : VerificationIds)

def scoreByCandidate (scores : List AlignmentCandidateScore) :
    String → Option AlignmentCandidateScore :=
  dictBy AlignmentCandidateScore.candidateId scores

/-- `sorted(set(texts))`. -/
def sortedTexts (texts : List String) : List String := texts.dedup.insertionSort (· ≤ ·)

/-- The checks of `validate_verifier_output`. -/
def VerifierResponse.Valid (response : VerifierResponse) (candidates : List AlignmentCandidate)
    (allowedEvidence : List String) : Prop :=
  (∀ proposal ∈ response.selections,
    proposal.candidateId ∈ candidates.map AlignmentCandidate.candidateId ∧
      ∀ id ∈ proposal.evidenceIds, id ∈ allowedEvidence) ∧
    (response.selections.map SelectionProposal.candidateId).Nodup ∧
    (response.verdict ≠ .accept → response.selections = [])

instance (response : VerifierResponse) (candidates : List AlignmentCandidate)
    (allowedEvidence : List String) : Decidable (response.Valid candidates allowedEvidence) :=
  inferInstanceAs (Decidable (_ ∧ _ ∧ _))

/-- A selection of `validate_verifier_output`, with a score of the server's own. -/
def proposedSelection (profile : PaperModuleProfile) (candidate : AlignmentCandidate)
    (score : Option AlignmentCandidateScore) (scorerDecision : AlignmentDecision)
    (proposal : SelectionProposal) : AlignmentSelection :=
  let trusted := dictBy AlignmentSelection.candidateId scorerDecision.selections
    proposal.candidateId
  { selectionId := ids.selectionId scorerDecision.decisionId proposal.candidateId
      proposal.relationType
    candidateId := proposal.candidateId
    relationType := proposal.relationType
    rawScore := match score with
      | some score => some score.coverageAdjustedScore
      | none => trusted.bind AlignmentSelection.rawScore
    calibratedMatchProbability := match score with
      | some score => score.calibratedMatchProbability
      | none => trusted.bind AlignmentSelection.calibratedMatchProbability
    paperEvidenceIds := profile.evidenceIds
    codeEvidenceIds := candidate.codeEvidenceIds
    reasonCodes := proposal.reasonCodes }

/-- `validate_verifier_output`, which raises on an invalid answer. -/
def validateVerifierOutput (profile : PaperModuleProfile) (candidates : List AlignmentCandidate)
    (scores : String → Option AlignmentCandidateScore) (scorerDecision : AlignmentDecision)
    (response : VerifierResponse) : Option (AlignmentVerification × List AlignmentSelection) :=
  let allowedEvidence := profile.evidenceIds ++ candidates.flatMap AlignmentCandidate.codeEvidenceIds
  if response.Valid candidates allowedEvidence then
    let selections := response.selections.filterMap fun proposal =>
      (candidateById candidates proposal.candidateId).map fun candidate =>
        proposedSelection ids profile candidate (scores proposal.candidateId) scorerDecision proposal
    some
      ({ verificationId := verificationIds.success profile.profileId response
         alignmentRunId := profile.alignmentRunId
         profileId := profile.profileId
         allowedCandidateIds := sortedTexts (candidates.map AlignmentCandidate.candidateId)
         proposedSelections := response.selections
         verdict := response.verdict
         evidenceIds := sortedTexts (response.selections.flatMap SelectionProposal.evidenceIds)
         uncertainties := response.uncertainties
         status := .success
         metadata := response.metadata }, selections)
  else none

/-- `ProviderAlignmentVerifier.verify`. -/
def Provider.verify (provider : Provider) (profile : PaperModuleProfile)
    (candidates : List AlignmentCandidate) (scores : List AlignmentCandidateScore)
    (scorerDecision : AlignmentDecision) :
    Option (AlignmentVerification × List AlignmentSelection) := do
  let lookup := scoreByCandidate scores
  let best := (ranked (fun c : AlignmentCandidate =>
    ((lookup c.candidateId).map AlignmentCandidateScore.probability).getD 0)
      AlignmentCandidate.candidateId candidates).take 5
  let response ← provider.generate profile best lookup
  validateVerifierOutput ids verificationIds profile best lookup scorerDecision response

/-- `fallback_verification`. -/
def fallbackVerification (profile : PaperModuleProfile) (candidates : List AlignmentCandidate) :
    AlignmentVerification where
  verificationId := verificationIds.fallback profile.profileId
  alignmentRunId := profile.alignmentRunId
  profileId := profile.profileId
  allowedCandidateIds := candidates.map AlignmentCandidate.candidateId
  proposedSelections := []
  verdict := .abstain
  evidenceIds := []
  uncertainties := ["verifier_unavailable"]
  status := .fallback
  metadata := ""

/-- `apply_verifier_decision`. -/
def applyVerifierDecision (scorerDecision : AlignmentDecision) (verification : AlignmentVerification)
    (selections : List AlignmentSelection) : AlignmentDecision :=
  let update := fun (status : DecisionStatus) (selections : List AlignmentSelection) selects
      selectsNone =>
    { scorerDecision with
      status, selections, decisionSource := .llmVerifier
      verifierId := some verification.verificationId
      reasonCodes := scorerDecision.reasonCodes ++ ["verifier_" ++ verification.verdict.name]
      selects, selectsNone : AlignmentDecision }
  if h : verification.verdict = .accept ∧ selections ≠ [] then
    update .accepted selections (fun _ => h.2) (by simp)
  else if verification.verdict = .needsReview then
    update .needsReview [] selects_needsReview (selectsNone_nil _)
  else update .abstained [] selects_abstained (selectsNone_nil _)

/-- One round of `_verify`. There is no provider without consent to send it text. -/
def verifyProfile (provider : Option Provider) (profile : PaperModuleProfile)
    (candidates : List AlignmentCandidate) (scores : List AlignmentCandidateScore)
    (scorerDecision : AlignmentDecision) : AlignmentDecision × AlignmentVerification :=
  match provider.bind fun p =>
      p.verify ids verificationIds profile candidates scores scorerDecision with
  | some (verification, selections) =>
    (applyVerifierDecision scorerDecision verification selections, verification)
  | none => (scorerDecision, fallbackVerification verificationIds profile candidates)

variable {ids verificationIds}

theorem verification_of_verify {provider : Provider} {profile : PaperModuleProfile}
    {candidates : List AlignmentCandidate} {scores : List AlignmentCandidateScore}
    {scorerDecision : AlignmentDecision} {result : AlignmentVerification × List AlignmentSelection}
    (h : provider.verify ids verificationIds profile candidates scores scorerDecision =
      some result) : result.1.profileId = profile.profileId ∧ result.1.status = .success := by
  obtain ⟨response, _, hvalidate⟩ := Option.bind_eq_some_iff.mp h
  unfold validateVerifierOutput at hvalidate
  dsimp only at hvalidate
  split_ifs at hvalidate
  cases hvalidate
  exact ⟨rfl, rfl⟩

theorem verifierId_applyVerifierDecision (scorerDecision : AlignmentDecision)
    (verification : AlignmentVerification) (selections : List AlignmentSelection) :
    (applyVerifierDecision scorerDecision verification selections).verifierId =
      some verification.verificationId := by
  unfold applyVerifierDecision
  dsimp only
  split_ifs <;> rfl

theorem profileId_applyVerifierDecision (scorerDecision : AlignmentDecision)
    (verification : AlignmentVerification) (selections : List AlignmentSelection) :
    (applyVerifierDecision scorerDecision verification selections).profileId =
      scorerDecision.profileId := by
  unfold applyVerifierDecision
  dsimp only
  split_ifs <;> rfl

end CodeResearch.Alignment
