import CodeResearch.Alignment.Schemas

/-!
# Reviews of decisions

A review is based on a revision of its decision and takes the next number of its log. The
effective decision is a fold of the log over the decision that was saved. Its row and its
log are read in two transactions, and other reviews may be accepted between any two
transactions of a call.
-/
namespace CodeResearch.Alignment

open ControlPlane (Timestamp)

section Fold

abbrev Standing := DecisionStatus × List AlignmentSelection

def AlignmentDecision.standing (base : AlignmentDecision) : Standing :=
  (base.status, base.selections)

def statusOf (selections : List AlignmentSelection) : DecisionStatus :=
  if selections = [] then .abstained else .accepted

def AlignmentReview.selected (review : AlignmentReview) : List AlignmentSelection :=
  review.selections.map fun item =>
    { selectionId := "review:" ++ review.reviewId ++ ":" ++ item.candidateId
      candidateId := item.candidateId
      relationType := item.relationType
      paperEvidenceIds := item.paperEvidenceIds
      codeEvidenceIds := item.codeEvidenceIds
      reasonCodes := ["human_review"] }

def AlignmentReview.remaining (review : AlignmentReview) (selections : List AlignmentSelection) :
    List AlignmentSelection :=
  selections.filter fun item =>
    item.candidateId ∉ review.selections.map ReviewSelection.candidateId

/-- One step of the loop of `effective_decision`. -/
def Standing.apply (standing : Standing) (review : AlignmentReview) : Standing :=
  match review.action with
  | .markNoImplementation => (.noImplementation, [])
  | .reject =>
    (statusOf (review.remaining standing.2), review.remaining standing.2)
  | .accept | .replaceCandidate | .acceptMultiple =>
    (statusOf review.selected, review.selected)
  | .addNote => standing

def authorityOf (base : AlignmentDecision) (reviews : List AlignmentReview) : AuthorityLevel :=
  if reviews ≠ [] then .humanReviewed
  else if base.decisionSource = .llmVerifier then .verifiedModel
  else .derivedScorer

end Fold

structure ProfileRow where
  runId : String
  profileId : String
  evidenceIds : List String
  deriving DecidableEq

def ProfileRow.key (row : ProfileRow) : String × String := (row.runId, row.profileId)

structure CandidateRow where
  runId : String
  candidateId : String
  profileId : String
  codeEvidenceIds : List String
  deriving DecidableEq

def CandidateRow.key (row : CandidateRow) : String × String := (row.runId, row.candidateId)

/-- A row of `alignment_decisions`. -/
structure DecisionRow where
  runId : String
  decisionId : String
  profileId : String
  decision : AlignmentDecision
  effectiveRevision : ℕ := 0
  reviewSequence : ℕ := 0
  deriving DecidableEq

def DecisionRow.reviewed (row : DecisionRow) (sequence : ℕ) : DecisionRow :=
  { row with effectiveRevision := row.effectiveRevision + 1, reviewSequence := sequence }

structure ReviewStore where
  profiles : Table ProfileRow.key
  candidates : Table CandidateRow.key
  decisions : Table DecisionRow.decisionId
  reviews : Table AlignmentReview.reviewId := .empty

/-- `AlignmentStoreError`, and the error of a constraint. -/
structure AlignmentError where
  errorCode : String
  message : String
  deriving DecidableEq

namespace ReviewStore

variable (s : ReviewStore)

/-- `get_decision_row`. -/
def getDecisionRow (decisionId : String) : Except AlignmentError DecisionRow :=
  orError ⟨"alignment_decision_not_found", decisionId⟩ (s.decisions.find? decisionId)

/-- The candidates that a review selects are of the run of its decision, with evidence of
the profile and of their own. -/
def checkSelections (row : DecisionRow) (review : AlignmentReview) : Except AlignmentError Unit :=
  if review.selections = [] then .ok () else do
  ensure (∀ item ∈ review.selections, (s.candidates.find? (row.runId, item.candidateId)).isSome)
    ⟨"candidate_not_in_run", "Review selected an unknown candidate."⟩
  let profile ← orError ⟨"TypeError", ""⟩ (s.profiles.find? (row.runId, row.profileId))
  review.selections.forM fun item => do
    let candidate ← orError ⟨"KeyError", item.candidateId⟩
      (s.candidates.find? (row.runId, item.candidateId))
    ensure (∀ id ∈ item.paperEvidenceIds, id ∈ profile.evidenceIds)
      ⟨"alignment_review_evidence_invalid", "Review used unknown paper evidence."⟩
    ensure (∀ id ∈ item.codeEvidenceIds, id ∈ candidate.codeEvidenceIds)
      ⟨"alignment_review_evidence_invalid", "Review used unknown code evidence."⟩

/-- The last transaction of `add_review`. -/
def insertReview (review : AlignmentReview) : Except AlignmentError ReviewStore := do
  let latest ← orError ⟨"TypeError", ""⟩ (s.decisions.find? review.decisionId)
  ensure (latest.effectiveRevision = review.basedOnEffectiveRevision)
    ⟨"review_conflict", "Effective revision changed concurrently."⟩
  ensure (review.reviewSequence = latest.reviewSequence + 1)
    ⟨"review_sequence_conflict", toString (latest.reviewSequence + 1)⟩
  ensure (∀ r ∈ s.reviews.rows, (r.runId, r.decisionId, r.reviewSequence) ≠
      (review.runId, review.decisionId, review.reviewSequence)) ⟨"IntegrityError", ""⟩
  let reviews ← orError ⟨"IntegrityError", ""⟩ (s.reviews.insert review)
  return { s with reviews, decisions := s.decisions.replace (latest.reviewed review.reviewSequence) }

/-- `list_reviews`. -/
def listReviews (decisionId : String) : List AlignmentReview :=
  (s.reviews.rows.filter fun r => r.decisionId = decisionId).insertionSort
    fun a b => a.reviewSequence ≤ b.reviewSequence

end ReviewStore

/-- `effective_decision` on the row and the log that were read. -/
def effectiveDecision (row : DecisionRow) (reviews : List AlignmentReview) :
    EffectiveAlignmentDecision :=
  let standing := reviews.foldl Standing.apply row.decision.standing
  { decisionId := row.decisionId
    decisionVersion := row.decision.decisionVersion
    effectiveRevision := row.effectiveRevision
    reviewSequence := row.reviewSequence
    status := standing.1
    selections := standing.2
    authorityLevel := authorityOf row.decision reviews
    appliedReviewIds := reviews.map AlignmentReview.reviewId }

/-- `review_id` of a review and of the scope of its reviewer. -/
structure ReviewIds where
  reviewId : String → ℕ → ReviewRequest → String
  reviewerScopeHash : String → String

/-- A call before its next transaction. -/
inductive ReviewCall
  /-- `add_review` of the service before it reads the row -/
  | numbering (decisionId : String) (request : ReviewRequest) (reviewerScope : String)
  /-- `add_review` of the store before it reads the row -/
  | basing (review : AlignmentReview)
  /-- before it reads the candidates and the profile -/
  | checking (row : DecisionRow) (review : AlignmentReview)
  /-- before it inserts the review -/
  | inserting (review : AlignmentReview)
  /-- `effective_decision` before it reads the row -/
  | reading (decisionId : String)
  /-- before it lists the reviews -/
  | listing (row : DecisionRow)
  deriving DecidableEq

/-- What a call returned, and the row that was stored when it read the log. -/
structure ReviewAnswer where
  row : DecisionRow
  latest : DecisionRow
  reviews : List AlignmentReview

def ReviewAnswer.effective (answer : ReviewAnswer) : EffectiveAlignmentDecision :=
  effectiveDecision answer.row answer.reviews

inductive ReviewLabel
  | addReview (decisionId : String) (request : ReviewRequest) (reviewerScope : String)
  | effectiveDecision (decisionId : String)
  /-- a call makes its next transaction -/
  | advance (k : ℕ) (now : Timestamp)
  /-- a call is cut off before its next transaction, or that transaction raises -/
  | raise (k : ℕ)

structure ReviewSystem where
  store : ReviewStore
  calls : List ReviewCall := []
  answers : List ReviewAnswer := []

namespace ReviewSystem

variable (ids : ReviewIds)

def newReview (row : DecisionRow) (request : ReviewRequest) (reviewerScope : String)
    (now : Timestamp) : AlignmentReview where
  reviewId := ids.reviewId row.decisionId (row.reviewSequence + 1) request
  runId := row.runId
  decisionId := row.decisionId
  action := request.action
  selections := request.selections
  note := request.note
  reviewerScopeHash := ids.reviewerScopeHash reviewerScope
  basedOnEffectiveRevision := request.basedOnEffectiveRevision
  reviewSequence := row.reviewSequence + 1
  createdAt := now

/-- A call goes on as `next`, or ends. -/
def resume (s : ReviewSystem) (k : ℕ) (next : Option ReviewCall) : ReviewSystem :=
  { s with calls := next.toList ++ s.calls.eraseIdx k }

def advance (s : ReviewSystem) (k : ℕ) (now : Timestamp) : ReviewCall → ReviewSystem
  | .numbering decisionId request reviewerScope => s.resume k <|
    match s.store.getDecisionRow decisionId with
    | .ok row => some (.basing (newReview ids row request reviewerScope now))
    | .error _ => none
  | .basing review => s.resume k <|
    match s.store.getDecisionRow review.decisionId with
    | .ok row =>
      if row.effectiveRevision = review.basedOnEffectiveRevision then some (.checking row review)
      else none
    | .error _ => none
  | .checking row review => s.resume k <|
    match s.store.checkSelections row review with
    | .ok _ => some (.inserting { review with runId := row.runId })
    | .error _ => none
  | .inserting review =>
    match s.store.insertReview review with
    | .ok store => { s.resume k (some (.reading review.decisionId)) with store }
    | .error _ => s.resume k none
  | .reading decisionId => s.resume k <|
    match s.store.getDecisionRow decisionId with
    | .ok row => some (.listing row)
    | .error _ => none
  | .listing row =>
    { s.resume k none with
      answers :=
        ⟨row, (s.store.decisions.find? row.decisionId).getD row,
          s.store.listReviews row.decisionId⟩ :: s.answers }

def step (s : ReviewSystem) : ReviewLabel → Option ReviewSystem
  | .addReview decisionId request reviewerScope =>
    some { s with calls := .numbering decisionId request reviewerScope :: s.calls }
  | .effectiveDecision decisionId => some { s with calls := .reading decisionId :: s.calls }
  | .advance k now => s.calls[k]?.map (s.advance ids k now)
  | .raise k => s.calls[k]?.map fun _ => s.resume k none

def machine : Machine ReviewSystem ReviewLabel := ⟨step ids⟩

end ReviewSystem

end CodeResearch.Alignment
