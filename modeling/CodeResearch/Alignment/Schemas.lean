import CodeResearch.DomainJobs.Runs

/-!
# The records of an alignment run

A run aligns the modules that a paper describes with the entities of a repository. Each
paper module has a profile, candidates with features and scores, one decision, and, when
the verifier is enabled, one verification.
-/
namespace CodeResearch.Alignment

open ControlPlane (Timestamp)

inductive ProfileType
  | «module» | formula | figureModule | trainingStrategy | inferenceStrategy | configuration
  | generalContribution
  deriving DecidableEq

/-- A profile with the fields that the later stages read. -/
structure PaperModuleProfile where
  profileId : String
  alignmentRunId : String
  profileType : ProfileType
  evidenceIds : List String
  /-- the other fields as canonical text -/
  content : String
  deriving DecidableEq

structure AlignmentCandidate where
  candidateId : String
  alignmentRunId : String
  profileId : String
  codeEntityId : String
  codeEvidenceIds : List String
  /-- the other fields as canonical text, without the time at which it was generated -/
  content : String
  deriving DecidableEq

inductive AlignmentRelation
  | implements | partiallyImplements | supportsTraining | supportsInference | configures
  deriving DecidableEq

inductive DecisionStatus
  | accepted | abstained | needsReview | noImplementation
  deriving DecidableEq

inductive DecisionSource
  | scorer | llmVerifier
  deriving DecidableEq

inductive AuthorityLevel
  | legacyHeuristic | derivedScorer | verifiedModel | humanReviewed
  deriving DecidableEq

structure AlignmentSelection where
  selectionId : String
  candidateId : String
  relationType : AlignmentRelation
  rawScore : Option ℚ := none
  calibratedMatchProbability : Option ℚ := none
  paperEvidenceIds : List String
  codeEvidenceIds : List String
  reasonCodes : List String
  deriving DecidableEq

/-- A decision whose selections agree with its status. -/
structure AlignmentDecision where
  decisionId : String
  alignmentRunId : String
  profileId : String
  decisionVersion : String
  status : DecisionStatus
  selections : List AlignmentSelection
  decisionSource : DecisionSource
  verifierId : Option String := none
  reasonCodes : List String
  /-- the scores and the confidence as canonical text -/
  scores : String
  selects : status = .accepted → selections ≠ []
  selectsNone : status ∈ [DecisionStatus.abstained, .noImplementation] → selections = []
  deriving DecidableEq

theorem selects_abstained :
    DecisionStatus.abstained = .accepted → ([] : List AlignmentSelection) ≠ [] := nofun

theorem selects_needsReview :
    DecisionStatus.needsReview = .accepted → ([] : List AlignmentSelection) ≠ [] := nofun

theorem selectsNone_nil (status : DecisionStatus) :
    status ∈ [DecisionStatus.abstained, .noImplementation] → ([] : List AlignmentSelection) = [] :=
  fun _ => rfl

inductive ReviewAction
  | accept | reject | replaceCandidate | acceptMultiple | markNoImplementation | addNote
  deriving DecidableEq

def ReviewAction.Accepts (action : ReviewAction) : Prop :=
  action ∈ [accept, replaceCandidate, acceptMultiple]

instance (action : ReviewAction) : Decidable action.Accepts :=
  inferInstanceAs (Decidable (_ ∈ _))

structure ReviewSelection where
  candidateId : String
  relationType : AlignmentRelation
  paperEvidenceIds : List String
  codeEvidenceIds : List String
  deriving DecidableEq

/-- The characters that `str.strip` removes. -/
def isSpace (c : Char) : Prop :=
  c.toNat ∈ [0x85, 0xa0, 0x1680, 0x2028, 0x2029, 0x202f, 0x205f, 0x3000] ∨
    (9 ≤ c.toNat ∧ c.toNat ≤ 13) ∨ (28 ≤ c.toNat ∧ c.toNat ≤ 32) ∨
    (0x2000 ≤ c.toNat ∧ c.toNat ≤ 0x200a)

instance (c : Char) : Decidable (isSpace c) := inferInstanceAs (Decidable (_ ∨ _))

/-- `AlignmentReviewRequest`. -/
structure ReviewRequest where
  action : ReviewAction
  selections : List ReviewSelection
  note : Option String
  basedOnEffectiveRevision : ℕ
  selects : action.Accepts ∨ action = .reject → selections ≠ []
  selectsNone : action = .markNoImplementation → selections = []
  explains : action ∈ [ReviewAction.markNoImplementation, .addNote] →
    ∃ c ∈ (note.getD "").toList, ¬ isSpace c
  length_note : (note.getD "").length ≤ 4000
  deriving DecidableEq

structure AlignmentReview where
  reviewId : String
  runId : String
  decisionId : String
  action : ReviewAction
  selections : List ReviewSelection
  note : Option String
  reviewerScopeHash : String
  basedOnEffectiveRevision : ℕ
  reviewSequence : ℕ
  createdAt : Timestamp
  deriving DecidableEq

structure EffectiveAlignmentDecision where
  decisionId : String
  decisionVersion : String
  effectiveRevision : ℕ
  reviewSequence : ℕ
  status : DecisionStatus
  selections : List AlignmentSelection
  authorityLevel : AuthorityLevel
  appliedReviewIds : List String
  deriving DecidableEq

end CodeResearch.Alignment
