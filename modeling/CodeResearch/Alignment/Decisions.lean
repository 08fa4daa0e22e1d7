import CodeResearch.Alignment.Schemas
import CodeResearch.Library.Dict
import CodeResearch.Library.Ranking

/-!
# Decisions of the scorer

The scorer ranks the scores of a profile and decides by thresholds, so that its decision
depends on the candidates and the scores but not on the order they come in.
-/
namespace CodeResearch.Alignment

structure AlignmentFeatureVector where
  vectorId : String
  profileId : String
  candidateId : String
  /-- the feature values and the ratios as canonical text -/
  content : String
  deriving DecidableEq

structure AlignmentCandidateScore where
  scoreId : String
  profileId : String
  candidateId : String
  availableWeightRatio : ℚ
  requiredWeightRatio : ℚ
  coverageAdjustedScore : ℚ
  calibratedMatchProbability : Option ℚ
  reasonCodes : List String
  /-- the other fields as canonical text -/
  content : String
  deriving DecidableEq

/-- `calibrated_match_probability or 0.0`. -/
def AlignmentCandidateScore.probability (score : AlignmentCandidateScore) : ℚ :=
  score.calibratedMatchProbability.getD 0

/-- The ids that are digests, and the parts of a decision that are canonical text. -/
structure AlignmentIds where
  decisionId : String → String
  selectionId : String → String → AlignmentRelation → String
  /-- the scores and the confidence of a decision -/
  describe : List AlignmentCandidateScore → List AlignmentSelection → DecisionStatus → String

variable (ids : AlignmentIds)

/-- `_relation`. -/
def relationOf : ProfileType → AlignmentRelation
  | .trainingStrategy => .supportsTraining
  | .inferenceStrategy => .supportsInference
  | .configuration => .configures
  | .generalContribution => .partiallyImplements
  | .«module» | .formula | .figureModule => .implements

def candidateById (candidates : List AlignmentCandidate) : String → Option AlignmentCandidate :=
  dictBy AlignmentCandidate.candidateId candidates

/-- `_selection`. -/
def selectionOf (decisionId : String) (profile : PaperModuleProfile)
    (candidate : AlignmentCandidate) (score : AlignmentCandidateScore) : AlignmentSelection where
  selectionId := ids.selectionId decisionId candidate.candidateId (relationOf profile.profileType)
  candidateId := candidate.candidateId
  relationType := relationOf profile.profileType
  rawScore := some score.coverageAdjustedScore
  calibratedMatchProbability := score.calibratedMatchProbability
  paperEvidenceIds := profile.evidenceIds
  codeEvidenceIds := candidate.codeEvidenceIds
  reasonCodes := ["selected_by_weighted_scorer"]

def AlignmentCandidateScore.Eligible (score : AlignmentCandidateScore) : Prop :=
  72 / 100 ≤ score.probability ∧ score.requiredWeightRatio ≤ score.availableWeightRatio ∧
    "required_feature_missing" ∉ score.reasonCodes

instance (score : AlignmentCandidateScore) : Decidable score.Eligible :=
  inferInstanceAs (Decidable (_ ∧ _ ∧ _))

/-- `build_profile_decision` once the scores are ranked and the candidates are looked up. -/
def decideRanked (profile : PaperModuleProfile) (lookup : String → Option AlignmentCandidate)
    (ranked : List AlignmentCandidateScore) : AlignmentDecision :=
  let probabilityAt := fun k : ℕ => (ranked[k]?.map AlignmentCandidateScore.probability).getD 0
  let margin := max 0 (probabilityAt 0 - probabilityAt 1)
  let identifier := ids.decisionId profile.profileId
  let select := fun scores : List AlignmentCandidateScore => scores.filterMap fun score =>
    (lookup score.candidateId).map fun candidate => selectionOf ids identifier profile candidate score
  let selections := select ((ranked.filter fun score => score.Eligible).take 5)
  let base := fun (status : DecisionStatus) (selections : List AlignmentSelection)
      (reasonCodes : List String) selects selectsNone =>
    { decisionId := identifier, alignmentRunId := profile.alignmentRunId
      profileId := profile.profileId, decisionVersion := "alignment-decision-v1", status, selections
      decisionSource := .scorer, reasonCodes, scores := ids.describe ranked selections status
      selects, selectsNone : AlignmentDecision }
  if h : selections ≠ [] ∧ 8 / 100 ≤ margin then
    base .accepted selections ["candidate_threshold_met", "coverage_gate_met", "margin_gate_met"]
      (fun _ => h.1) (by simp)
  else if ranked ≠ [] ∧ 45 / 100 ≤ probabilityAt 0 then
    base .needsReview (select (ranked.take 5)) ["review_band_or_small_margin"] (by simp) (by simp)
  else
    base .abstained [] ["insufficient_alignment_evidence"] selects_abstained
      (selectsNone_nil _)

/-- `build_profile_decision`. -/
def buildProfileDecision (profile : PaperModuleProfile) (candidates : List AlignmentCandidate)
    (scores : List AlignmentCandidateScore) : AlignmentDecision :=
  decideRanked ids profile (candidateById candidates)
    (ranked AlignmentCandidateScore.probability AlignmentCandidateScore.candidateId scores)

variable {ids}

theorem buildProfileDecision_congr (profile : PaperModuleProfile)
    {candidates candidates' : List AlignmentCandidate} {scores scores' : List AlignmentCandidateScore}
    (hcandidates : candidates.Perm candidates') (hscores : scores.Perm scores')
    (hcandidateIds : (candidates.map AlignmentCandidate.candidateId).Nodup)
    (hscoreIds : (scores.map AlignmentCandidateScore.candidateId).Nodup) :
    buildProfileDecision ids profile candidates scores =
      buildProfileDecision ids profile candidates' scores' := by
  unfold buildProfileDecision
  rw [candidateById, dictBy_congr hcandidates hcandidateIds, ← candidateById, ranked_congr hscores hscoreIds]

theorem profileId_buildProfileDecision (profile : PaperModuleProfile)
    (candidates : List AlignmentCandidate) (scores : List AlignmentCandidateScore) :
    (buildProfileDecision ids profile candidates scores).profileId = profile.profileId := by
  unfold buildProfileDecision decideRanked
  dsimp only
  split_ifs <;> rfl

theorem decisionSource_buildProfileDecision (profile : PaperModuleProfile)
    (candidates : List AlignmentCandidate) (scores : List AlignmentCandidateScore) :
    (buildProfileDecision ids profile candidates scores).decisionSource = .scorer := by
  unfold buildProfileDecision decideRanked
  dsimp only
  split_ifs <;> rfl

end CodeResearch.Alignment
