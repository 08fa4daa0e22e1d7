import CodeResearch.Evaluation.BadCases

/-!
# Dataset versions and their freezing

Cases are stored for a dataset version until it is frozen. `save_case`, a promotion and
`validate_and_freeze` are several transactions each, and may be cut off between two of them.
-/
namespace CodeResearch.Evaluation

open ControlPlane (JobError Timestamp)
open DomainJobs (evaluationError)

inductive DatasetStatus
  | draft | validating | frozen | superseded | invalid
  deriving DecidableEq

inductive DatasetSplit
  | dev | lockedTest | regression
  deriving DecidableEq

inductive DatasetSource
  | humanAuthored | confirmedBadCase | syntheticFixture
  deriving DecidableEq

inductive AdjudicationStatus
  | notRequired | pending | agreed | adjudicated | disputed
  deriving DecidableEq

/-- An evaluation case of the catalog; `content` is the text of its other fields. -/
structure CatalogCase extends EvaluationCase where
  datasetVersionId : String
  split : DatasetSplit
  source : DatasetSource
  fixture : String
  gold : String
  annotatorScopeHashes : List String
  adjudicationStatus : AdjudicationStatus
  content : String
  deriving DecidableEq

structure EvaluationDatasetVersion where
  datasetVersionId : String
  datasetId : String
  version : String
  status : DatasetStatus
  parentVersionId : Option String
  caseCount : ℕ
  splitCounts : List (DatasetSplit × ℕ)
  sourceCounts : List (DatasetSource × ℕ)
  schemaHash : String
  goldHash : String
  fixtureHash : String
  contentHash : String
  annotationPolicyVersion : String
  authorizationScopeHash : String
  provenance : String
  createdAt : Timestamp
  frozenAt : Option Timestamp
  deriving DecidableEq

inductive ReproductionStatus
  | pending | reproduced | notReproducible | rejected
  deriving DecidableEq

/-- `RegressionCasePromotion`. -/
structure CasePromotion where
  promotionId : String
  badCaseId : String
  sourceDatasetVersionId : String
  targetDatasetVersionId : String
  newCaseId : String
  sourceTraceId : Option String
  preFixReproductionResultId : Option String
  reproductionStatus : ReproductionStatus
  fixReference : Option String
  goldReviewApproved : Bool
  fixtureMinimizationComplete : Bool
  createdAt : Timestamp
  deriving DecidableEq

/-- `require_reproduced_before_freeze` lets the promotion pass. -/
def CasePromotion.ReproducedBeforeFix (p : CasePromotion) : Prop :=
  p.reproductionStatus = .reproduced ∧ ∃ id ∈ p.preFixReproductionResultId, id ≠ ""

/-- `stable_hash` and `stable_id` on the values that the code gives them. -/
structure CatalogHashes where
  cases : List CatalogCase → String
  golds : List String → String
  fixtures : List String → String
  promotionId : String → String → String → String

structure CatalogStore where
  versions : Table EvaluationDatasetVersion.datasetVersionId
  cases : Table fun case : CatalogCase => case.caseId
  promotions : Table CasePromotion.promotionId

namespace CatalogStore

/-- `list_cases`. -/
def listCases (s : CatalogStore) (versionId : String) : List CatalogCase :=
  (s.cases.rows.filter fun case => case.datasetVersionId = versionId).insertionSort
    fun a b => a.caseId ≤ b.caseId

/-- `save_dataset_version`. -/
def saveDatasetVersion (s : CatalogStore) (version : EvaluationDatasetVersion) :
    Except JobError CatalogStore :=
  match s.versions.find? version.datasetVersionId with
  | none =>
    (orError (.other none "IntegrityError") (s.versions.insert version)).map fun versions =>
      { s with versions }
  | some row =>
    if row.status = .frozen ∧ row ≠ version then
      .error (evaluationError "evaluation_dataset_version_frozen" "")
    else if row.status = .draft ∨ row.status = .validating then
      .ok { s with versions := s.versions.replace version }
    else .ok s

/-- The second transaction of `save_case`, with the status that the first one read. -/
def storeCase (s : CatalogStore) (status : DatasetStatus) (case : CatalogCase) :
    Except JobError CatalogStore :=
  match s.cases.find? case.caseId with
  | none =>
    if status = .frozen then .error (evaluationError "evaluation_dataset_version_frozen" "")
    else (orError (.other none "IntegrityError") (s.cases.insert case)).map fun cases =>
      { s with cases }
  | some existing =>
    if existing = case then .ok s else .error (evaluationError "evaluation_case_immutable" "")

def savePromotion (s : CatalogStore) (p : CasePromotion) : Except JobError CatalogStore :=
  (BadCaseStore.immutableJson "promotion_immutable" p s.promotions).map fun promotions =>
    { s with promotions }

end CatalogStore

def checkCases (versionId : String) (cases : List CatalogCase) : Except JobError Unit := do
  ensure (cases ≠ []) (evaluationError "dataset_has_no_cases" versionId)
  ensure (∀ case ∈ cases, case.adjudicationStatus ≠ .pending ∧ case.adjudicationStatus ≠ .disputed)
    (evaluationError "gold_adjudication_incomplete" versionId)
  ensure (∀ case ∈ cases, case.source = .humanAuthored →
      2 ≤ case.annotatorScopeHashes.dedup.length ∧
        (case.adjudicationStatus = .agreed ∨ case.adjudicationStatus = .adjudicated))
    (evaluationError "human_gold_double_review_required" versionId)
  ensure (∀ case ∈ cases, ∀ other ∈ cases,
      case.stableCaseFamilyId = other.stableCaseFamilyId → case.split = other.split)
    (evaluationError "evaluation_case_split_leakage" versionId)

/-- `Counter`. -/
def counts {α : Type} [DecidableEq α] (values : List α) : List (α × ℕ) :=
  values.dedup.map fun value => (value, values.count value)

def EvaluationDatasetVersion.freeze (hashes : CatalogHashes) (version : EvaluationDatasetVersion)
    (cases : List CatalogCase) (now : Timestamp) : EvaluationDatasetVersion :=
  { version with
    status := .frozen
    caseCount := cases.length
    splitCounts := counts (cases.map CatalogCase.split)
    sourceCounts := counts (cases.map CatalogCase.source)
    contentHash := hashes.cases cases
    goldHash := hashes.golds (cases.map CatalogCase.gold)
    fixtureHash := hashes.fixtures (cases.map CatalogCase.fixture)
    frozenAt := some now }

structure PromotionCall where
  badCaseId : String
  sourceDatasetVersionId : String
  targetDatasetVersionId : String
  newCaseId : String
  sourceTraceId : Option String
  preFixReproductionResultId : Option String
  reproduced : Bool
  fixReference : Option String
  regressionCase : Option CatalogCase
  deriving DecidableEq

namespace PromotionCall

/-- The checks before the first write. -/
def check (call : PromotionCall) (status : BadCaseStatus) : Except JobError Unit := do
  ensure (status ∈ [BadCaseStatus.confirmed, .fixing, .fixed, .verified])
    (evaluationError "promotion_not_ready" status.name)
  ensure (call.reproduced = true → call.regressionCase.isSome)
    (evaluationError "regression_case_required" "")
  ensure (∀ case ∈ call.regressionCase, case.caseId = call.newCaseId)
    (evaluationError "regression_case_identity_mismatch" "")
  ensure (∀ case ∈ call.regressionCase, case.datasetVersionId = call.targetDatasetVersionId)
    (evaluationError "regression_case_dataset_mismatch" "")

def target (call : PromotionCall) (source : EvaluationDatasetVersion) (now : Timestamp) :
    EvaluationDatasetVersion :=
  { source with
    datasetVersionId := call.targetDatasetVersionId
    version := source.version ++ "+regression"
    status := .draft
    parentVersionId := some source.datasetVersionId
    caseCount := 0
    splitCounts := []
    sourceCounts := []
    createdAt := now
    frozenAt := none }

def promotion (hashes : CatalogHashes) (call : PromotionCall) (now : Timestamp) : CasePromotion where
  promotionId := hashes.promotionId call.badCaseId call.targetDatasetVersionId call.newCaseId
  badCaseId := call.badCaseId
  sourceDatasetVersionId := call.sourceDatasetVersionId
  targetDatasetVersionId := call.targetDatasetVersionId
  newCaseId := call.newCaseId
  sourceTraceId := call.sourceTraceId
  preFixReproductionResultId := call.preFixReproductionResultId
  reproductionStatus := if call.reproduced then .reproduced else .pending
  fixReference := call.fixReference
  goldReviewApproved := call.reproduced
  fixtureMinimizationComplete := call.reproduced
  createdAt := now

end PromotionCall

/-- A call before its next transaction. -/
inductive CatalogCall
  /-- `save_case` before it reads the version; a promotion goes on after it -/
  | saving (case : CatalogCase) (promotion : Option PromotionCall)
  /-- before the case is stored -/
  | storing (case : CatalogCase) (status : DatasetStatus) (promotion : Option PromotionCall)
  /-- `promote` before it reads the bad case -/
  | promoting (call : PromotionCall)
  /-- before it looks for the target version -/
  | targeting (call : PromotionCall) (case : CatalogCase)
  /-- before it reads the source version -/
  | sourcing (call : PromotionCall) (case : CatalogCase)
  /-- before it saves the target version -/
  | creating (call : PromotionCall) (case : CatalogCase) (target : EvaluationDatasetVersion)
  /-- before it saves the promotion -/
  | recording (call : PromotionCall)
  /-- `validate_and_freeze` before it reads the version -/
  | freezing (versionId : String)
  /-- before it lists the cases -/
  | listing (version : EvaluationDatasetVersion)
  /-- before it saves the frozen version of the cases it listed -/
  | sealing (frozen : EvaluationDatasetVersion) (cases : List CatalogCase)
  deriving DecidableEq

inductive CatalogLabel
  | saveCase (case : CatalogCase)
  | promote (call : PromotionCall)
  | freeze (versionId : String)
  /-- a call makes its next transaction -/
  | advance (k : ℕ) (now : Timestamp)
  /-- a promotion has read the status of its bad case -/
  | read (k : ℕ) (status : BadCaseStatus)
  /-- a call is cut off before its next transaction, or that one raises -/
  | raise (k : ℕ)

structure CatalogSystem where
  store : CatalogStore
  calls : List CatalogCall
  /-- the cases that promotions have stored -/
  promoted : List String

namespace CatalogSystem

variable (hashes : CatalogHashes)

/-- A call goes on as `next`, or ends. -/
def resume (s : CatalogSystem) (k : ℕ) (next : Option CatalogCall) : CatalogSystem :=
  { s with calls := next.toList ++ s.calls.eraseIdx k }

def settle (s : CatalogSystem) (k : ℕ) (result : Except JobError CatalogStore)
    (next : Option CatalogCall) : CatalogSystem :=
  match result with
  | .ok store => { s.resume k next with store }
  | .error _ => s.resume k none

def promotedBy (s : CatalogSystem) (case : CatalogCase) (status : DatasetStatus)
    (promotion : Option PromotionCall) : List String :=
  if promotion.isSome ∧ (s.store.cases.find? case.caseId).isNone ∧ status ≠ .frozen then
    case.caseId :: s.promoted
  else s.promoted

/-- A freezing once it has read its version. -/
def afterVersion (version : EvaluationDatasetVersion) : Option CatalogCall :=
  if version.status = .draft ∨ version.status = .validating then some (.listing version) else none

def afterCases (version : EvaluationDatasetVersion) (cases : List CatalogCase) (now : Timestamp) :
    Option CatalogCall :=
  match checkCases version.datasetVersionId cases with
  | .ok _ => some (.sealing (version.freeze hashes cases now) cases)
  | .error _ => none

def afterChecked (call : PromotionCall) (status : BadCaseStatus) : Option CatalogCall :=
  match call.check status with
  | .ok _ => some (match call.regressionCase with
    | some case => .targeting call case
    | none => .recording call)
  | .error _ => none

def advance (s : CatalogSystem) (k : ℕ) (now : Timestamp) : CatalogCall → Option CatalogSystem
  | .saving case promotion => some <| s.resume k <|
    (s.store.versions.find? case.datasetVersionId).map fun version =>
      .storing case version.status promotion
  | .storing case status promotion => some
    { s.settle k (s.store.storeCase status case) (promotion.map .recording) with
      promoted := s.promotedBy case status promotion }
  | .promoting _ => none
  | .targeting call case => some <| s.resume k <| some <|
    if (s.store.versions.find? call.targetDatasetVersionId).isSome then .saving case (some call)
    else .sourcing call case
  | .sourcing call case => some <| s.resume k <|
    (s.store.versions.find? call.sourceDatasetVersionId).map fun source =>
      .creating call case (call.target source now)
  | .creating call case target => some <|
    s.settle k (s.store.saveDatasetVersion target) (some (.saving case (some call)))
  | .recording call => some <|
    s.settle k (s.store.savePromotion (call.promotion hashes now)) none
  | .freezing versionId => some <| s.resume k <|
    (s.store.versions.find? versionId).bind afterVersion
  | .listing version => some <| s.resume k <|
    afterCases hashes version (s.store.listCases version.datasetVersionId) now
  | .sealing frozen _ => some <| s.settle k (s.store.saveDatasetVersion frozen) none

def step (s : CatalogSystem) : CatalogLabel → Option CatalogSystem
  | .saveCase case => some { s with calls := .saving case none :: s.calls }
  | .promote call => some { s with calls := .promoting call :: s.calls }
  | .freeze versionId => some { s with calls := .freezing versionId :: s.calls }
  | .advance k now => s.calls[k]?.bind (s.advance hashes k now)
  | .read k status => s.calls[k]?.bind fun
    | .promoting call => some (s.resume k (afterChecked call status))
    | _ => none
  | .raise k => s.calls[k]?.map fun _ => s.resume k none

def machine : Machine CatalogSystem CatalogLabel := ⟨step hashes⟩

end CatalogSystem

end CodeResearch.Evaluation
