import CodeResearch.Library.Result
import CodeResearch.Research.Schemas

/-!
# The row and the lease of one research run

Every operation of `ResearchRunStore` below names its run, so the rows of other
runs are left out. The three readings of the row inside `update_status` are one:
a terminal status is final, and no reading but the compared one decides a write.
-/
namespace CodeResearch.Research

/-- Microseconds of UTC time. -/
abbrev Instant := ℕ

def RunStatus.name : RunStatus → String
  | queued => "queued"
  | routing => "routing"
  | planning => "planning"
  | retrieving => "retrieving"
  | executing => "executing"
  | assessing => "assessing"
  | replanning => "replanning"
  | buildingContext => "building_context"
  | generating => "generating"
  | validating => "validating"
  | verifying => "verifying"
  | finalizing => "finalizing"
  | paused => "paused"
  | interrupted => "interrupted"
  | cancelling => "cancelling"
  | completed => "completed"
  | partialResult => "partial"
  | failed => "failed"
  | cancelled => "cancelled"

/-- `RESUMABLE_STATUSES`. -/
def RunStatus.Resumable (s : RunStatus) : Prop := s ∈ [paused, interrupted]

instance (s : RunStatus) : Decidable s.Resumable :=
  inferInstanceAs (Decidable (_ ∈ _))

/-- `_result_view`. -/
structure ResultView where
  currentStep : Option PlanStepRuntime
  observations : List ToolObservation
  evidenceIds : List String
  answer : Option AgentResearchAnswer
  context : Option ContextBundle
  warnings : List String
  deriving DecidableEq

/-- The counters of `AgentBudgetSnapshot`. -/
structure BudgetSnapshot where
  toolCallCount : ℕ
  toolReuseCount : ℕ
  replanCount : ℕ
  toolFailureCount : ℕ
  deriving DecidableEq

structure RunRow where
  runId : String
  status : RunStatus := .queued
  cancelRequested : Bool := false
  resumeCount : ℕ := 0
  route : Option ResearchRoute := none
  stopReason : Option String := none
  retryable : Bool := false
  result : Option ResultView := none
  budget : Option BudgetSnapshot := none
  errors : List AgentError := []
  deriving DecidableEq

/-- `ResearchRunStoreError`. -/
structure RunStoreError where
  errorCode : String
  message : String
  deriving DecidableEq

/-- The optional arguments of `update_status`. -/
structure StatusUpdate where
  route : Option ResearchRoute := none
  stopReason : Option String := none
  retryable : Option Bool := none
  result : Option ResultView := none
  budget : Option BudgetSnapshot := none
  errors : Option (List AgentError) := none
  deriving DecidableEq

/-- The columns that an accepted `update_status` sets. -/
def RunRow.update (row : RunRow) (target : RunStatus) (u : StatusUpdate) : RunRow :=
  { row with
    status := target
    route := u.route <|> row.route
    stopReason := u.stopReason <|> row.stopReason
    retryable := u.retryable.getD row.retryable
    result := u.result <|> row.result
    budget := u.budget <|> row.budget
    errors := u.errors.getD row.errors }

/-- `update_status` with `allowed_from=[seen]`. -/
def updateStatus (row : RunRow) (target seen : RunStatus) (u : StatusUpdate) :
    Except RunStoreError RunRow :=
  if row.status.Terminal then
    if row.status = target then .ok row
    else .error
      ⟨"invalid_run_transition",
        "Terminal run " ++ row.runId ++ " cannot transition to " ++ target.name ++ "."⟩
  else if row.status = seen then .ok (row.update target u)
  else if row.status = target then .ok row
  else .error
    ⟨"invalid_run_transition", "Run " ++ row.runId ++ " in state " ++ row.status.name ++
      " cannot transition to " ++ target.name ++ "."⟩

/-- `request_cancel`. -/
def requestCancel (row : RunRow) : RunRow :=
  if row.status.Terminal then row else { row with cancelRequested := true, status := .cancelling }

/-- `mark_resumed`. -/
def markResumed (row : RunRow) : Except RunStoreError RunRow :=
  if row.status.Resumable then
    .ok { row with resumeCount := row.resumeCount + 1, status := .interrupted }
  else .error ⟨"resume_not_allowed", "Run " ++ row.runId ++ " cannot be resumed."⟩

section Updates

variable {row t : RunRow} {target seen : RunStatus} {u : StatusUpdate}

theorem updateStatus_ok (h : updateStatus row target seen u = .ok t) :
    ¬ row.status.Terminal ∧ row.status = seen ∧ t = row.update target u ∨
      row.status = target ∧ t = row := by
  unfold updateStatus at h
  split_ifs at h with hterminal hsame hseen hthere
  · cases h
    exact .inr ⟨hsame, rfl⟩
  · cases h
    exact .inl ⟨hterminal, hseen, rfl⟩
  · cases h
    exact .inr ⟨hthere, rfl⟩

theorem updateStatus_seen (hterminal : ¬ row.status.Terminal) (hseen : row.status = seen) :
    updateStatus row target seen u = .ok (row.update target u) := by
  unfold updateStatus
  rw [if_neg hterminal, if_pos hseen]

theorem updateStatus_overtaken (h : row.status ≠ seen ∨ row.status.Terminal) :
    (updateStatus row target seen u).toOption.getD row = row := by
  unfold updateStatus
  split_ifs with hterminal hsame hseen hthere
  · rfl
  · rfl
  · rcases h with h | h
    · exact absurd hseen h
    · exact absurd h hterminal
  · rfl
  · rfl

end Updates

/-- A row of `research_run_leases`; tokens are compared by their hashes. -/
structure LeaseRow where
  leaseOwner : String
  leaseToken : ℕ
  leaseExpiresAt : Instant
  deriving DecidableEq

structure RunLease where
  owner : String
  token : ℕ
  expiresAt : Instant
  deriving DecidableEq

/-- `WHERE lease_owner=? AND lease_token_hash=?`. -/
def RunLease.Matches (lease : RunLease) (row : LeaseRow) : Prop :=
  row.leaseOwner = lease.owner ∧ row.leaseToken = lease.token

instance (lease : RunLease) (row : LeaseRow) : Decidable (lease.Matches row) :=
  inferInstanceAs (Decidable (_ ∧ _))

def RunLease.Holds (lease : RunLease) (stored : Option LeaseRow) : Prop :=
  ∃ row ∈ stored, lease.Matches row

instance (lease : RunLease) (stored : Option LeaseRow) : Decidable (lease.Holds stored) :=
  inferInstanceAs (Decidable (∃ row ∈ stored, _))

/-- The time that a lease lasts: `max(1.0, ttl_seconds)`. -/
def leaseTtl (ttl : ℕ) : ℕ := max 1000000 ttl

/-- `acquire_lease` with a fresh token. -/
def acquireLease (stored : Option LeaseRow) (now : Instant) (owner : String) (token ttl : ℕ) :
    Option (LeaseRow × RunLease) :=
  if ∃ row ∈ stored, now < row.leaseExpiresAt ∧ row.leaseOwner ≠ owner then none
  else
    let expires := now + leaseTtl ttl
    some (⟨owner, token, expires⟩, ⟨owner, token, expires⟩)

/-- `renew_lease`. -/
def renewLease (stored : Option LeaseRow) (now : Instant) (lease : RunLease) (ttl : ℕ) :
    Option (LeaseRow × RunLease) :=
  match stored with
  | none => none
  | some row =>
    if lease.Matches row then
      let expires := now + leaseTtl ttl
      some ({ row with leaseExpiresAt := expires }, { lease with expiresAt := expires })
    else none

/-- `release_lease`. -/
def releaseLease (stored : Option LeaseRow) (lease : RunLease) : Option LeaseRow :=
  stored.filter fun row => ¬ lease.Matches row

end CodeResearch.Research
