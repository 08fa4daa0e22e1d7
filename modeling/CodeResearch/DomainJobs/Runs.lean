import CodeResearch.ControlPlane.Execution
import CodeResearch.Research.Leases

/-!
# The runs of the three domain stores

Research, alignment and evaluation runs live in stores of their own. Each store
creates a run at most once for a request, and moves it by its own rules. An
evaluation update is checked against one reading of the row and written later.
-/
namespace CodeResearch.DomainJobs

open ControlPlane (JobError Timestamp)
open Research (LeasedRun LeaseEvent)

/-- The digests and the text normalisation that the stores use. -/
structure RunConfig where
  sha256 : String → String
  strip : String → String
  alignmentRunId : String → String → String → String → ℕ → String
  evaluationRunId : String → ℕ → Option String → Option ℕ → String

/-- `ResearchRunStoreError` and `AlignmentStoreError`. -/
def storeError (errorCode message : String) : JobError := .other (some errorCode) message

/-- `EvaluationStoreError`, whose text repeats its code. -/
def evaluationError (errorCode message : String) : JobError :=
  .other (some errorCode) (if message = "" then errorCode else errorCode ++ ": " ++ message)

section Hashing

variable (cfg : RunConfig)

/-- `_sha256(caller_scope.strip() or "anonymous")`. -/
def callerScopeHash (scope : String) : String :=
  cfg.sha256 (if cfg.strip scope = "" then "anonymous" else cfg.strip scope)

/-- `_sha256(idempotency_key) if idempotency_key else None`. -/
def idempotencyKeyHash (key : Option String) : Option String :=
  (key.filter (· ≠ "")).map cfg.sha256

structure ResearchRun where
  runId : String
  requestHash : String
  keyHash : Option String
  callerHash : String
  leased : LeasedRun
  deriving DecidableEq

abbrev ResearchRuns := Table ResearchRun.runId

/-- The arguments of `create_run`; `requestJson` is the canonical text of the request
with its repository and version. -/
structure ResearchRunRequest where
  requestJson : String
  callerScope : String
  idempotencyKey : Option String

/-- `ResearchRunStore.create_run` with a fresh identifier. -/
def createResearchRun (request : ResearchRunRequest) (hex : String) (runs : ResearchRuns) :
    Except JobError (String × ResearchRuns) :=
  let requestHash := cfg.sha256 request.requestJson
  let callerHash := callerScopeHash cfg request.callerScope
  let keyHash := idempotencyKeyHash cfg request.idempotencyKey
  match runs.rows.find? fun r => keyHash.isSome ∧ r.callerHash = callerHash ∧ r.keyHash = keyHash with
  | some existing =>
    if existing.requestHash = requestHash then .ok (existing.runId, runs)
    else .error (storeError "idempotency_key_conflict"
      "The Idempotency-Key was already used with a different request.")
  | none =>
    let runId := "run_" ++ hex
    match runs.insert
      { runId, requestHash, keyHash, callerHash, leased := { row := { runId } } } with
    | some created => .ok (runId, created)
    | none =>
      let message := "UNIQUE constraint failed: research_runs.run_id"
      .error (if keyHash.isSome then storeError "idempotency_key_conflict" message
        else .other none message)

def stepResearch (runId : String) (e : LeaseEvent) (runs : ResearchRuns) : Option ResearchRuns :=
  (runs.find? runId).bind fun run =>
    (run.leased.step e).map fun leased => runs.replace { run with leased }

inductive AlignmentStatus
  | queued | profiling | recalling | featurizing | scoring | verifying | ready | active
  | failed | superseded | cancelled
  deriving DecidableEq

def AlignmentStatus.name : AlignmentStatus → String
  | queued => "queued"
  | profiling => "profiling"
  | recalling => "recalling"
  | featurizing => "featurizing"
  | scoring => "scoring"
  | verifying => "verifying"
  | ready => "ready"
  | active => "active"
  | failed => "failed"
  | superseded => "superseded"
  | cancelled => "cancelled"

def AlignmentStatus.Successful (s : AlignmentStatus) : Prop := s ∈ [ready, active, superseded]

instance (s : AlignmentStatus) : Decidable s.Successful := inferInstanceAs (Decidable (_ ∈ _))

/-- What an alignment run is computed from. -/
structure AlignmentIdentity where
  repoId : String
  indexVersionId : String
  paperId : String
  inputHash : String
  modelProfileId : String
  deriving DecidableEq

structure AlignmentRun where
  runId : String
  identity : AlignmentIdentity
  attemptNumber : ℕ
  retryOfRunId : Option String
  requestHash : String
  keyHash : Option String
  callerHash : String
  status : AlignmentStatus := .queued
  cancelRequested : Bool := false
  errorCode : Option String := none
  deriving DecidableEq

abbrev AlignmentRuns := Table AlignmentRun.runId

structure AlignmentRunRequest where
  identity : AlignmentIdentity
  requestJson : String
  callerScope : String
  idempotencyKey : Option String
  retryOfRunId : Option String

/-- `find_successful`. -/
def findSuccessful (identity : AlignmentIdentity) (runs : AlignmentRuns) : Option AlignmentRun :=
  let found := runs.rows.filter fun r => r.identity = identity ∧ r.status.Successful
  (found.find? fun r => r.status = .active) <|> (found.find? fun r => r.status = .ready) <|>
    found.head?

/-- The attempt number of a new run, which only a failed or cancelled run of the same
identity may be the parent of. -/
def alignmentAttempt (request : AlignmentRunRequest) (runs : AlignmentRuns) : Except JobError ℕ :=
  match request.retryOfRunId.filter (· ≠ "") with
  | none => .ok 1
  | some parentId =>
    match runs.find? parentId with
    | none => .error (storeError "alignment_run_not_found" parentId)
    | some parent =>
      if parent.status ∉ [AlignmentStatus.failed, .cancelled] then
        .error (storeError "alignment_retry_not_allowed"
          "Only failed/cancelled runs may be retried.")
      else if request.identity ≠ parent.identity then
        .error (storeError "alignment_retry_identity_mismatch" "Retry identity must remain fixed.")
      else .ok (parent.attemptNumber + 1)

/-- `AlignmentStore.create_run`. -/
def createAlignmentRun (request : AlignmentRunRequest) (runs : AlignmentRuns) :
    Except JobError (String × AlignmentRuns) :=
  let requestHash := cfg.sha256 request.requestJson
  let callerHash := callerScopeHash cfg request.callerScope
  let keyHash := idempotencyKeyHash cfg request.idempotencyKey
  match runs.rows.find? fun r => keyHash.isSome ∧ r.callerHash = callerHash ∧ r.keyHash = keyHash with
  | some existing =>
    if existing.requestHash = requestHash then .ok (existing.runId, runs)
    else .error (storeError "idempotency_key_conflict" "Idempotency-Key request mismatch.")
  | none =>
    match findSuccessful request.identity runs with
    | some reusable => .ok (reusable.runId, runs)
    | none => do
      let attemptNumber ← alignmentAttempt request runs
      let runId := cfg.alignmentRunId request.identity.repoId request.identity.indexVersionId
        request.identity.paperId request.identity.inputHash attemptNumber
      let created ← orError
        (storeError "alignment_run_conflict" "UNIQUE constraint failed: alignment_runs.run_id")
        (runs.insert
          { runId, identity := request.identity, attemptNumber, requestHash, keyHash, callerHash
            retryOfRunId := request.retryOfRunId })
      return (runId, created)

/-- `uq_alignment_successful_request`: another run of the identity was successful. -/
def AlignmentRun.Conflicts (run : AlignmentRun) (runs : AlignmentRuns) : Prop :=
  ∃ r ∈ runs.rows, r.runId ≠ run.runId ∧ r.identity = run.identity ∧ r.status.Successful

instance (run : AlignmentRun) (runs : AlignmentRuns) : Decidable (run.Conflicts runs) :=
  inferInstanceAs (Decidable (∃ r ∈ runs.rows, _))

/-- `AlignmentStore.update_status`; a refused update leaves the table as it was. -/
def updateAlignmentStatus (runId : String) (status : AlignmentStatus)
    (allowedFrom : List AlignmentStatus) (errorCode : Option String) (runs : AlignmentRuns) :
    AlignmentRuns :=
  match runs.find? runId with
  | none => runs
  | some run =>
    if run.status ∈ allowedFrom ∧ ¬ (status.Successful ∧ run.Conflicts runs) then
      runs.replace { run with status, errorCode }
    else runs

/-- `AlignmentStore.request_cancel`. -/
def cancelAlignmentRun (runId : String) (runs : AlignmentRuns) : Except JobError AlignmentRuns :=
  match runs.find? runId with
  | none => .error (storeError "alignment_run_not_found" runId)
  | some run =>
    if run.status.Successful then .error (storeError "alignment_cancel_not_allowed" runId)
    else if run.status ∈ [AlignmentStatus.failed, .cancelled] then .ok runs
    else .ok (runs.replace { run with cancelRequested := true })

def AlignmentRun.supersede (run other : AlignmentRun) : AlignmentRun :=
  if other.status = .active ∧ other.identity = { run.identity with
      inputHash := other.identity.inputHash } then { other with status := .superseded } else other

theorem AlignmentRun.supersede_runId (run other : AlignmentRun) :
    (run.supersede other).runId = other.runId := by
  unfold supersede
  split_ifs <;> rfl

/-- `mark_ready_and_activate`; `complete` says that every profile has a decision. -/
def activateAlignmentRun (runId : String) (complete : Bool) (runs : AlignmentRuns) :
    AlignmentRuns :=
  match runs.find? runId with
  | none => runs
  | some run =>
    let superseded := runs.mapRows run.supersede run.supersede_runId
    if run.status ∈ [AlignmentStatus.scoring, .verifying, .ready] ∧ complete ∧
        ¬ run.Conflicts superseded then
      superseded.replace { run with status := .active }
    else runs

inductive EvaluationStatus
  | queued | preparing | running | aggregating | comparing
  | completed | partialResult | failed | cancelled
  deriving DecidableEq

def EvaluationStatus.name : EvaluationStatus → String
  | queued => "queued"
  | preparing => "preparing"
  | running => "running"
  | aggregating => "aggregating"
  | comparing => "comparing"
  | completed => "completed"
  | partialResult => "partial"
  | failed => "failed"
  | cancelled => "cancelled"

/-- `TERMINAL_RUN_STATUSES`. -/
def EvaluationStatus.Terminal (s : EvaluationStatus) : Prop :=
  s ∈ [completed, partialResult, failed, cancelled]

instance (s : EvaluationStatus) : Decidable s.Terminal := inferInstanceAs (Decidable (_ ∈ _))

/-- `RUN_TRANSITIONS`, with no entry read as the empty set. -/
def runTransitions : EvaluationStatus → List EvaluationStatus
  | .queued => [.preparing, .failed, .cancelled]
  | .preparing => [.running, .failed, .cancelled]
  | .running => [.aggregating, .failed, .cancelled]
  | .aggregating => [.comparing, .completed, .partialResult, .failed, .cancelled]
  | .comparing => [.completed, .partialResult, .failed, .cancelled]
  | _ => []

/-- An evaluation run; `content` is the text of the fields that only the comparison of
whole runs reads. -/
structure EvaluationRun where
  runId : String
  runFingerprintHash : String
  attemptNumber : ℕ
  retryOfRunId : Option String
  content : String
  status : EvaluationStatus := .queued
  cancelRequested : Bool := false
  complete : Bool := false
  incompleteReasonCodes : List String := []
  errorCode : Option String := none
  createdAt : Timestamp
  updatedAt : Timestamp
  finishedAt : Option Timestamp := none
  deriving DecidableEq

abbrev EvaluationRuns := Table EvaluationRun.runId

/-- What `prepare_run` computes from a request before it looks for a run. -/
structure EvaluationRunRequest where
  runFingerprintHash : String
  retryOfRunId : Option String
  liveTrial : Bool
  repeatIndex : Option ℕ
  content : String

/-- `ORDER BY attempt_number DESC, created_at DESC`. -/
def EvaluationRun.Newer (a b : EvaluationRun) : Prop :=
  b.attemptNumber < a.attemptNumber ∨
    b.attemptNumber = a.attemptNumber ∧ b.createdAt < a.createdAt

instance (a b : EvaluationRun) : Decidable (a.Newer b) := inferInstanceAs (Decidable (_ ∨ _))

/-- `find_reusable_run`. -/
def findReusableRun (fingerprint : String) (runs : EvaluationRuns) : Option EvaluationRun :=
  let found := runs.rows.filter fun r => r.runFingerprintHash = fingerprint ∧
    r.status ∈ [EvaluationStatus.queued, .preparing, .running, .aggregating, .comparing,
      .completed]
  found.foldl (fun best r => if ∀ b ∈ best, r.Newer b then some r else best) none

def evaluationAttempt (request : EvaluationRunRequest) (runs : EvaluationRuns) :
    Except JobError ℕ :=
  match request.retryOfRunId.filter (· ≠ "") with
  | none => .ok 1
  | some parentId =>
    match runs.find? parentId with
    | none => .error (evaluationError "evaluation_run_not_found" parentId)
    | some parent =>
      if parent.status ∈ [EvaluationStatus.failed, .cancelled, .partialResult] then
        .ok (parent.attemptNumber + 1)
      else .error (evaluationError "evaluation_retry_not_allowed" "")

/-- `save_run`. -/
def saveEvaluationRun (run : EvaluationRun) (runs : EvaluationRuns) :
    Except JobError EvaluationRuns :=
  match runs.insert run with
  | some created => .ok created
  | none =>
    if runs.find? run.runId = some run then .ok runs
    else .error (evaluationError "evaluation_run_conflict"
      "UNIQUE constraint failed: evaluation_runs.run_id")

/-- `EvaluationService.prepare_run` from the fingerprint on. -/
def prepareEvaluationRun (request : EvaluationRunRequest) (now : Timestamp)
    (runs : EvaluationRuns) : Except JobError (String × EvaluationRuns) :=
  let reusable := if request.retryOfRunId = none ∧ request.liveTrial = false then
    findReusableRun request.runFingerprintHash runs else none
  match reusable with
  | some run => .ok (run.runId, runs)
  | none => do
    let attemptNumber ← evaluationAttempt request runs
    let run : EvaluationRun :=
      { runId := cfg.evaluationRunId request.runFingerprintHash attemptNumber request.retryOfRunId
          (if request.liveTrial then request.repeatIndex else none)
        runFingerprintHash := request.runFingerprintHash
        attemptNumber
        retryOfRunId := request.retryOfRunId
        content := request.content
        createdAt := now
        updatedAt := now }
    let created ← saveEvaluationRun run runs
    return (run.runId, created)

end Hashing

/-- The checks of `update_run`. -/
def checkEvaluationUpdate (run : EvaluationRun) (runs : EvaluationRuns) : Except JobError Unit :=
  match runs.find? run.runId with
  | none => .error (evaluationError "evaluation_run_not_found" run.runId)
  | some current =>
    if current.status.Terminal ∧ current ≠ run then
      .error (evaluationError "evaluation_run_immutable" run.runId)
    else if run.status ≠ current.status ∧ run.status ∉ runTransitions current.status then
      .error (evaluationError "evaluation_run_transition_invalid"
        (current.status.name ++ "->" ++ run.status.name))
    else .ok ()

/-- The write of `update_run`, which only a terminal row refuses. -/
def writeEvaluationUpdate (run : EvaluationRun) (runs : EvaluationRuns) :
    Except JobError EvaluationRuns :=
  match runs.find? run.runId with
  | none => .error (evaluationError "evaluation_run_immutable" run.runId)
  | some current =>
    if current.status.Terminal then .error (evaluationError "evaluation_run_immutable" run.runId)
    else .ok (runs.replace run)

/-- `EvaluationStore.request_cancel`, with no other write in between. -/
def cancelEvaluationRun (runId : String) (now : Timestamp) (runs : EvaluationRuns) :
    Except JobError EvaluationRuns :=
  match runs.find? runId with
  | none => .error (evaluationError "evaluation_run_not_found" runId)
  | some run =>
    if run.status.Terminal then .error (evaluationError "evaluation_cancel_not_allowed" "")
    else do
      let updated := { run with cancelRequested := true, updatedAt := now }
      checkEvaluationUpdate updated runs
      writeEvaluationUpdate updated runs

end CodeResearch.DomainJobs
