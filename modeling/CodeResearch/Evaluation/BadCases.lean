import CodeResearch.DomainJobs.Runs
import Mathlib.Data.List.Infix

/-!
# Bad cases and their events

A bad case collects the failing results of one fingerprint. `BadCaseService.transition`
moves it by request and `BadCaseAnalyzer.analyze` counts its recurrences. Both read the
case, append an event and save the case in transactions of their own, and the saved
record has to be the successor of the stored revision.
-/
namespace CodeResearch.Evaluation

open ControlPlane (JobError Timestamp)
open DomainJobs (evaluationError)

inductive Component
  | index | retrieval | agent | alignment | answer | observability
  deriving DecidableEq

inductive ExecutionStatus
  | queued | running | completed | error | skipped | cancelled
  deriving DecidableEq

inductive EvaluationOutcome
  | passed | failed | notEvaluable | indeterminate
  deriving DecidableEq

structure EvaluationCase where
  caseId : String
  stableCaseFamilyId : String
  component : Component
  deriving DecidableEq

structure CaseResult where
  resultId : String
  evaluationRunId : String
  caseId : String
  component : Component
  executionStatus : ExecutionStatus
  evaluationOutcome : Option EvaluationOutcome
  complete : Bool
  incompleteReasonCodes : List String
  executionErrorCode : Option String
  qualityFailureCodes : List String
  traceId : Option String
  outputArtifactRefIds : List String
  finishedAt : Option Timestamp
  deriving DecidableEq

inductive BadCaseStatus
  | «open» | triaged | confirmed | fixing | fixed | verified | closed | rejected
  deriving DecidableEq

def BadCaseStatus.name : BadCaseStatus → String
  | .open => "open"
  | triaged => "triaged"
  | confirmed => "confirmed"
  | fixing => "fixing"
  | fixed => "fixed"
  | verified => "verified"
  | closed => "closed"
  | rejected => "rejected"

/-- `ALLOWED_TRANSITIONS`. -/
def allowedTransitions : BadCaseStatus → List BadCaseStatus
  | .open => [.triaged, .rejected]
  | .triaged => [.confirmed, .rejected]
  | .confirmed => [.fixing, .rejected]
  | .fixing => [.fixed, .rejected]
  | .fixed => [.verified]
  | .verified => [.closed]
  | .closed => [.open]
  | .rejected => []

inductive Symptom
  | wrongAnswer | partialAnswer | emptyResult | wrongAlignment | invalidCitation
  | unsupportedClaim | timeout | budgetExhausted | unexpectedAbstention | falseAccept
  | traceIncomplete
  deriving DecidableEq

inductive TriggerType
  | executionError | qualityFailure | goldInvalid | notEvaluable | telemetryIncomplete
  deriving DecidableEq

inductive Severity
  | low | medium | high | critical
  deriving DecidableEq

structure RootCauseSuggestion where
  rootCause : String
  reasonCodes : List String
  evidenceRefIds : List String
  deriving DecidableEq

structure BadCase where
  badCaseId : String
  fingerprint : String
  sourceResultId : String
  sourceEvaluationRunId : String
  sourceTraceId : Option String
  stableCaseFamilyId : String
  caseId : String
  component : Component
  symptom : Symptom
  triggerType : TriggerType
  suggestedRootCauses : List RootCauseSuggestion
  confirmedRootCause : Option String := none
  status : BadCaseStatus
  revision : ℕ := 0
  severity : Severity
  evidenceRefIds : List String := []
  fixReference : Option String := none
  verificationId : Option String := none
  firstSeenRunId : String
  lastSeenRunId : String
  occurrenceCount : ℕ := 1
  createdAt : Timestamp
  updatedAt : Timestamp
  deriving DecidableEq

structure BadCaseEvent where
  eventId : String
  badCaseId : String
  sequence : ℕ
  fromStatus : BadCaseStatus
  toStatus : BadCaseStatus
  actorScopeHash : String
  basedOnRevision : ℕ
  reasonCode : String
  artifactRefIds : List String := []
  createdAt : Timestamp
  deriving DecidableEq

structure BadCaseOccurrence where
  occurrenceId : String
  badCaseId : String
  evaluationRunId : String
  caseResultId : String
  traceId : Option String
  subjectId : String
  observedAt : Timestamp
  deriving DecidableEq

structure BadCaseVerification where
  verificationId : String
  badCaseId : String
  verificationRunId : String
  verificationCaseResultId : String
  requiredGateRuleIds : List String
  casePassed : Bool
  relevantRulesPassed : Bool
  regressionCasePassed : Bool
  verifiedAt : Timestamp
  deriving DecidableEq

structure RegressionCasePromotion where
  reproduced : Bool
  newCaseId : Option String
  deriving DecidableEq

structure BadCaseTransitionRequest where
  basedOnRevision : ℕ
  reasonCode : String
  confirmedRootCause : Option String
  fixReference : Option String
  verification : Option BadCaseVerification
  artifactRefIds : List String
  deriving DecidableEq

/-- `stable_id` and `stable_hash` on the values that the code gives them. -/
structure StableIds where
  fingerprint : String → Component → Symptom → String → String
  badCaseId : String → String
  occurrenceId : String → String → String
  eventId : String → ℕ → String
  scopeHash : String → String

structure BadCaseStore where
  cases : Table BadCase.badCaseId
  events : Table BadCaseEvent.eventId
  occurrences : Table BadCaseOccurrence.occurrenceId
  verifications : Table BadCaseVerification.verificationId

namespace BadCaseStore

def empty : BadCaseStore := ⟨.empty, .empty, .empty, .empty⟩

/-- `_immutable_json`: a stored record may be written again, and not changed. -/
def immutableJson {ρ : Type} [DecidableEq ρ] {key : ρ → String} (errorCode : String) (r : ρ)
    (t : Table key) : Except JobError (Table key) :=
  match t.find? (key r) with
  | some stored => if stored = r then .ok t else .error (evaluationError errorCode (key r))
  | none => orError (.other none "IntegrityError") (t.insert r)

/-- `append_bad_case_event`; the sequence of an event is unique within its case. -/
def appendEvent (s : BadCaseStore) (e : BadCaseEvent) : Except JobError BadCaseStore :=
  if (s.events.find? e.eventId).isNone ∧
      ∃ x ∈ s.events.rows, x.badCaseId = e.badCaseId ∧ x.sequence = e.sequence then
    .error (.other none "IntegrityError")
  else (immutableJson "bad_case_event_immutable" e s.events).map fun events => { s with events }

def appendOccurrence (s : BadCaseStore) (o : BadCaseOccurrence) : Except JobError BadCaseStore :=
  (immutableJson "bad_case_occurrence_immutable" o s.occurrences).map fun occurrences =>
    { s with occurrences }

def saveVerification (s : BadCaseStore) (v : BadCaseVerification) :
    Except JobError BadCaseStore :=
  (immutableJson "bad_case_verification_immutable" v s.verifications).map fun verifications =>
    { s with verifications }

/-- `find_bad_case_by_fingerprint`. -/
def findByFingerprint (s : BadCaseStore) (fingerprint : String) : Option BadCase :=
  s.cases.rows.find? fun b => b.fingerprint = fingerprint

/-- `save_bad_case`; a fingerprint belongs to one case. -/
def saveBadCase (s : BadCaseStore) (b : BadCase) : Except JobError BadCaseStore :=
  match s.cases.find? b.badCaseId with
  | none =>
    if (s.findByFingerprint b.fingerprint).isSome then .error (.other none "IntegrityError")
    else (orError (.other none "IntegrityError") (s.cases.insert b)).map fun cases =>
      { s with cases }
  | some stored =>
    if stored = b then .ok s
    else if b.revision = stored.revision + 1 then .ok { s with cases := s.cases.replace b }
    else .error (evaluationError "bad_case_conflict" "")

end BadCaseStore

def checkTransition (current : BadCase) (target : BadCaseStatus)
    (request : BadCaseTransitionRequest) : Except JobError Unit := do
  ensure (current.revision = request.basedOnRevision)
    (evaluationError "bad_case_conflict" current.badCaseId)
  ensure (target ∈ allowedTransitions current.status)
    (evaluationError "bad_case_transition_invalid" (current.status.name ++ "->" ++ target.name))
  ensure (target = .confirmed → request.confirmedRootCause.or current.confirmedRootCause ≠ none)
    (evaluationError "bad_case_root_cause_required" "")
  ensure (target = .fixed → request.fixReference.or current.fixReference ≠ none)
    (evaluationError "fix_reference_required" "")

def checkVerification (current : BadCase) (request : BadCaseTransitionRequest)
    (results : List CaseResult) (promotions : List RegressionCasePromotion) :
    Except JobError BadCaseVerification := do
  let verification ← orError (evaluationError "bad_case_verification_required" "")
    (request.verification.filter fun v => v.badCaseId = current.badCaseId)
  ensure (verification.casePassed ∧ verification.regressionCasePassed ∧
    verification.relevantRulesPassed) (evaluationError "bad_case_verification_failed" "")
  let result ← orError (evaluationError "bad_case_verification_result_invalid" "")
    ((results.find? fun r => r.resultId = verification.verificationCaseResultId).filter fun r =>
      r.evaluationOutcome = some .passed ∧ r.complete)
  ensure (∃ p ∈ promotions, p.reproduced ∧ p.newCaseId = some result.caseId)
    (evaluationError "bad_case_regression_case_mismatch" "")
  ensure (verification.requiredGateRuleIds ≠ [])
    (evaluationError "bad_case_relevant_hard_rules_required" "")
  return verification

def checkClosing (current : BadCase) (target : BadCaseStatus) (request : BadCaseTransitionRequest)
    (verificationId : Option String) : Except JobError Unit :=
  ensure (target = .closed → request.confirmedRootCause.or current.confirmedRootCause ≠ none ∧
    request.fixReference.or current.fixReference ≠ none ∧ ∃ id ∈ verificationId, id ≠ "")
    (evaluationError "bad_case_close_requirements_missing" "")

def BadCase.moveTo (current : BadCase) (target : BadCaseStatus)
    (request : BadCaseTransitionRequest) (verificationId : Option String) (now : Timestamp) :
    BadCase :=
  { current with
    status := target
    revision := current.revision + 1
    confirmedRootCause := request.confirmedRootCause.or current.confirmedRootCause
    fixReference := request.fixReference.or current.fixReference
    verificationId
    evidenceRefIds := ((current.evidenceRefIds ++ request.artifactRefIds).dedup).insertionSort (· ≤ ·)
    updatedAt := now }

section Ids

variable (ids : StableIds)

def transitionEvent (current : BadCase) (target : BadCaseStatus)
    (request : BadCaseTransitionRequest) (actorScope : String) (now : Timestamp) :
    BadCaseEvent where
  eventId := ids.eventId current.badCaseId (current.revision + 1)
  badCaseId := current.badCaseId
  sequence := current.revision + 1
  fromStatus := current.status
  toStatus := target
  actorScopeHash := ids.scopeHash actorScope
  basedOnRevision := request.basedOnRevision
  reasonCode := request.reasonCode
  artifactRefIds := request.artifactRefIds
  createdAt := now

/-- `_trigger_type`. -/
def CaseResult.triggerType (r : CaseResult) : Option TriggerType :=
  if r.executionStatus = .error then some .executionError
  else if r.evaluationOutcome = some .failed then some .qualityFailure
  else if r.evaluationOutcome = some .notEvaluable then some .notEvaluable
  else if r.evaluationOutcome = some .indeterminate ∨ r.complete = false then
    some .telemetryIncomplete
  else none

/-- `part in text`. -/
def contains (part text : String) : Bool := decide (part.toList <:+: text.toList)

/-- `_symptom`. -/
def symptom (case : EvaluationCase) (r : CaseResult) : Symptom :=
  let codes := r.qualityFailureCodes ++ r.incompleteReasonCodes
  if ∃ code ∈ r.executionErrorCode, contains "timeout" code then .timeout
  else if case.component = .alignment then
    if "alignment_selection_mismatch" ∈ codes then .wrongAlignment else .unexpectedAbstention
  else if case.component = .observability ∨ r.complete = false then .traceIncomplete
  else if case.component = .answer then
    if "answer_partial_mismatch" ∈ codes then .partialAnswer else .wrongAnswer
  else if ∃ code ∈ codes, contains "empty" code then .emptyResult
  else .wrongAnswer

/-- `_normalized_failure_code`. -/
def CaseResult.failureCode (r : CaseResult) : String :=
  let codes := if r.qualityFailureCodes = [] then r.incompleteReasonCodes else r.qualityFailureCodes
  (r.executionErrorCode.filter (· ≠ "")).getD
    ((codes.insertionSort (· ≤ ·)).head?.getD "not_evaluable")

/-- `_suggest_root_cause`. -/
def suggestRootCause (case : EvaluationCase) (r : CaseResult) : RootCauseSuggestion where
  rootCause :=
    match r.executionErrorCode.filter (· ≠ "") with
    | some code => if contains "provider" code then "provider_error" else "unknown"
    | none =>
      match case.component with
      | .retrieval => "retrieval_miss"
      | .alignment => "alignment_scoring_error"
      | .agent => "tool_selection_error"
      | .observability => "telemetry_drop"
      | .index | .answer => "unknown"
  reasonCodes := [r.failureCode]
  evidenceRefIds := r.outputArtifactRefIds

def caseFingerprint (case : EvaluationCase) (r : CaseResult) : String :=
  ids.fingerprint case.stableCaseFamilyId case.component (symptom case r) r.failureCode

def newBadCase (case : EvaluationCase) (r : CaseResult) (trigger : TriggerType)
    (now : Timestamp) : BadCase where
  badCaseId := ids.badCaseId (caseFingerprint ids case r)
  fingerprint := caseFingerprint ids case r
  sourceResultId := r.resultId
  sourceEvaluationRunId := r.evaluationRunId
  sourceTraceId := r.traceId
  stableCaseFamilyId := case.stableCaseFamilyId
  caseId := case.caseId
  component := case.component
  symptom := symptom case r
  triggerType := trigger
  suggestedRootCauses := [suggestRootCause case r]
  status := .open
  severity := if trigger ∈ [TriggerType.executionError, .qualityFailure] then .high else .medium
  firstSeenRunId := r.evaluationRunId
  lastSeenRunId := r.evaluationRunId
  createdAt := now
  updatedAt := now

def BadCase.recur (existing : BadCase) (r : CaseResult) (now : Timestamp) : BadCase :=
  { existing with
    status := if existing.status = .closed then .open else existing.status
    lastSeenRunId := r.evaluationRunId
    occurrenceCount := existing.occurrenceCount + 1
    revision := existing.revision + 1
    updatedAt := now }

def recurrenceEvent (existing : BadCase) (now : Timestamp) : BadCaseEvent where
  eventId := ids.eventId existing.badCaseId (existing.revision + 1)
  badCaseId := existing.badCaseId
  sequence := existing.revision + 1
  fromStatus := .closed
  toStatus := .open
  actorScopeHash := ids.scopeHash "automatic-recurrence"
  basedOnRevision := existing.revision
  reasonCode := "bad_case_recurred"
  createdAt := now

def occurrenceIdOf (case : EvaluationCase) (r : CaseResult) : String :=
  ids.occurrenceId (ids.badCaseId (caseFingerprint ids case r)) r.resultId

def newOccurrence (case : EvaluationCase) (r : CaseResult) (badCaseId subjectId : String)
    (now : Timestamp) : BadCaseOccurrence where
  occurrenceId := occurrenceIdOf ids case r
  badCaseId := badCaseId
  evaluationRunId := r.evaluationRunId
  caseResultId := r.resultId
  traceId := r.traceId
  subjectId := subjectId
  observedAt := now

end Ids

end CodeResearch.Evaluation
