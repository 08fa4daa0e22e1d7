import CodeResearch.ControlPlane.Store

/-!
# What one store transaction can do

One inversion lemma for each operation: either it raised and kept the tables, or
it passed its checks and performed exactly the listed writes. Every invariant
below is derived from these lemmas and not from the definitions.
-/
namespace CodeResearch.ControlPlane

theorem commit_cases {α : Type} (s : Store) (x : Except StoreError (α × Store)) :
    (∃ e, commit s x = (.error e, s)) ∨ ∃ a t, x = .ok (a, t) ∧ commit s x = (.ok a, t) := by
  rcases x with e | ⟨a, t⟩
  · exact .inl ⟨e, rfl⟩
  · exact .inr ⟨a, t, rfl, rfl⟩

variable {s t : Store}

theorem commit_eq_ok {α : Type} {x : Except StoreError (α × Store)} {a : α}
    (h : commit s x = (.ok a, t)) : x = .ok (a, t) := by
  rcases x with e | ⟨b, u⟩ <;> cases h
  rfl

theorem commit_eq_error {α : Type} {x : Except StoreError (α × Store)}
    {e : StoreError} (h : commit s x = (.error e, t)) : x = .error e ∧ t = s := by
  rcases x with e' | ⟨b, u⟩ <;> cases h
  exact ⟨rfl, rfl⟩

theorem JobRecord.validate_eq_ok_iff {j k : JobRecord} :
    j.validate = .ok k ↔ j.Valid ∧ j = k := by
  unfold JobRecord.validate
  split_ifs with h <;> simp [h]

theorem JobRecord.transition_ok {job updated : JobRecord} {target : JobStatus}
    {errorCode : Option String} {expectedRevision : Option ℕ} {now : Timestamp}
    (h : job.transition target errorCode expectedRevision now = .ok updated) :
    ¬ job.status.Terminal ∧ target ∈ jobTransitions job.status ∧
      updated = job.moveTo target errorCode now ∧ updated.Valid := by
  simp only [JobRecord.transition, except_bind_eq_ok_iff, ensure_eq_ok_iff,
    JobRecord.validate_eq_ok_iff] at h
  obtain ⟨_, _, _, hmove, hvalid, rfl⟩ := h
  push Not at hmove
  exact ⟨hmove.1, hmove.2, rfl, hvalid⟩

theorem transitionJob_cases (jobId : String) (target : JobStatus) (errorCode : Option String)
    (expectedRevision : Option ℕ) (now : Timestamp) (s : Store) :
    (∃ e, transitionJob jobId target errorCode expectedRevision now s = (.error e, s)) ∨
    ∃ job, s.jobs.find? jobId = some job ∧ ¬ job.status.Terminal ∧
      target ∈ jobTransitions job.status ∧ (job.moveTo target errorCode now).Valid ∧
      transitionJob jobId target errorCode expectedRevision now s =
        (.ok (job.moveTo target errorCode now), s.updateJob (job.moveTo target errorCode now)) := by
  unfold transitionJob
  rcases commit_cases s _ with h | ⟨a, t, hx, h⟩
  · exact .inl h
  · simp only [except_bind_eq_ok_iff, orError_eq_ok_iff, except_pure_eq_ok_iff,
      Prod.mk.injEq] at hx
    obtain ⟨job, hjob, updated, hmove, rfl, rfl⟩ := hx
    obtain ⟨hterm, htarget, rfl, hvalid⟩ := JobRecord.transition_ok hmove
    exact .inr ⟨job, hjob, hterm, htarget, hvalid, h⟩

section Hashing

variable (stableHash : String → String)

variable {a : JobAttempt} {attemptId executionToken : String} {s t : Store} {status : AttemptStatus}
  {now : Timestamp} {c : CreatedJob}

theorem authorizedAttempt_ok (h : authorizedAttempt stableHash attemptId executionToken s = .ok a) :
    s.attempts.find? attemptId = some a ∧ a.executionTokenHash = stableHash executionToken := by
  simp only [authorizedAttempt, except_bind_eq_ok_iff, orError_eq_ok_iff, ensure_eq_ok_iff,
    except_pure_eq_ok_iff] at h
  obtain ⟨a, ha, _, htoken, rfl⟩ := h
  exact ⟨ha, htoken⟩

theorem transitionAttempt_cases (attemptId executionToken : String) (target : AttemptStatus)
    (workerIdHash celeryTaskId : Option String) (now : Timestamp) (s : Store) :
    (∃ e, transitionAttempt stableHash attemptId executionToken target workerIdHash celeryTaskId
      now s = (.error e, s)) ∨
    ∃ a, s.attempts.find? attemptId = some a ∧
      a.executionTokenHash = stableHash executionToken ∧ target ∈ attemptTransitions a.status ∧
      transitionAttempt stableHash attemptId executionToken target workerIdHash celeryTaskId
        now s = (.ok (a.moveTo target workerIdHash celeryTaskId now),
          s.updateAttempt (a.moveTo target workerIdHash celeryTaskId now)) := by
  unfold transitionAttempt
  rcases commit_cases s _ with h | ⟨x, t, hx, h⟩
  · exact .inl h
  · simp only [except_bind_eq_ok_iff, ensure_eq_ok_iff, except_pure_eq_ok_iff,
      Prod.mk.injEq] at hx
    obtain ⟨a, hauth, _, htarget, rfl, rfl⟩ := hx
    obtain ⟨ha, htoken⟩ := authorizedAttempt_ok stableHash hauth
    exact .inr ⟨a, ha, htoken, htarget, h⟩

theorem heartbeatAttempt_cases (attemptId executionToken : String) (now : Timestamp)
    (s : Store) :
    (∃ e, heartbeatAttempt stableHash attemptId executionToken now s = (.error e, s)) ∨
    ∃ a, s.attempts.find? attemptId = some a ∧
      heartbeatAttempt stableHash attemptId executionToken now s =
        (.ok (a.beat now), s.updateAttempt (a.beat now)) := by
  unfold heartbeatAttempt
  rcases commit_cases s _ with h | ⟨x, t, hx, h⟩
  · exact .inl h
  · simp only [except_bind_eq_ok_iff, ensure_eq_ok_iff, except_pure_eq_ok_iff,
      Prod.mk.injEq] at hx
    obtain ⟨a, hauth, _, _, rfl, rfl⟩ := hx
    exact .inr ⟨a, (authorizedAttempt_ok stableHash hauth).1, h⟩

theorem completionStatus_final (h : status ∈ completionStatuses) : status.Final := by
  revert h
  cases status <;> decide

theorem not_final_of_completable (h : a.Completable status) : ¬ a.status.Final := by
  intro hfinal
  rcases h with h | h
  · exact attemptTransitions_final hfinal h
  · rw [h] at hfinal
    exact absurd hfinal (by decide)

/-- What an accepted `complete_attempt` has checked. -/
structure Completion (s : Store) (attemptId executionToken : String) (status : AttemptStatus)
    (errorCode : Option String) (refs : Option (List String)) (now : Timestamp)
    (a : JobAttempt) (j : JobRecord) : Prop where
  accepted : status ∈ completionStatuses
  attempt : s.attempts.find? attemptId = some a
  token : a.executionTokenHash = stableHash executionToken
  job : s.jobs.find? a.jobId = some j
  current : j.currentAttemptNumber = a.attemptNumber
  completable : a.Completable status
  valid : (j.complete status errorCode refs now).Valid

/-- The writes of an accepted `complete_attempt`. -/
def Store.completed (s : Store) (status : AttemptStatus) (errorCode : Option String)
    (refs : Option (List String)) (now : Timestamp) (a : JobAttempt) (j : JobRecord) : Store :=
  (s.updateAttempt (a.complete status errorCode now)).updateJob
    (j.complete status errorCode refs now)

theorem completeAttempt_cases (attemptId executionToken : String) (status : AttemptStatus)
    (errorCode : Option String) (refs : Option (List String)) (now : Timestamp) (s : Store) :
    (∃ e, completeAttempt stableHash attemptId executionToken status errorCode refs now s =
      (.error e, s)) ∨
    ∃ a j, Completion stableHash s attemptId executionToken status errorCode refs now a j ∧
      completeAttempt stableHash attemptId executionToken status errorCode refs now s =
        (.ok (a.complete status errorCode now, j.complete status errorCode refs now),
          s.completed status errorCode refs now a j) := by
  unfold completeAttempt
  rcases commit_cases s _ with h | ⟨x, t, hx, h⟩
  · exact .inl h
  · simp only [except_bind_eq_ok_iff, ensure_eq_ok_iff, except_pure_eq_ok_iff,
      orError_eq_ok_iff, JobRecord.validate_eq_ok_iff, Prod.mk.injEq] at hx
    obtain ⟨_, hstatus, a, hauth, j, hj, _, hcur, _, hcomp, _, ⟨hvalid, rfl⟩, rfl, rfl⟩ := hx
    obtain ⟨ha, htoken⟩ := authorizedAttempt_ok stableHash hauth
    exact .inr ⟨a, j, ⟨hstatus, ha, htoken, hj, hcur, hcomp, hvalid⟩, h⟩

/-- The errors that `complete_attempt` raises by itself. -/
def completionErrors : List StoreError :=
  [.controlPlane "invalid_attempt_terminal_status", .controlPlane "attempt_not_found",
    .controlPlane "stale_execution_token", .missingRow, .controlPlane "late_attempt_result",
    .controlPlane "invalid_attempt_transition", .validation]

variable {errorCode : Option String} {refs : Option (List String)} {j : JobRecord}

theorem completeAttempt_error {e : StoreError}
    (h : completeAttempt stableHash attemptId executionToken status errorCode refs now s =
      (.error e, t)) : e ∈ completionErrors ∧ t = s := by
  obtain ⟨hx, rfl⟩ := commit_eq_error h
  refine ⟨?_, rfl⟩
  simp only [except_bind_eq_error_iff, ensure_eq_error_iff, authorizedAttempt,
    orError_eq_error_iff, JobRecord.validate] at hx
  rcases hx with ⟨_, rfl⟩ | ⟨_, _, (⟨_, rfl⟩ | ⟨_, _, ⟨_, rfl⟩ | ⟨_, _, hx⟩⟩) | ⟨a, _, hx⟩⟩
  · simp [completionErrors]
  · simp [completionErrors]
  · simp [completionErrors]
  · cases hx
  · rcases hx with ⟨_, rfl⟩ | ⟨j, _, ⟨_, rfl⟩ | ⟨_, _, ⟨_, rfl⟩ | ⟨_, _, hx | ⟨_, _, hx⟩⟩⟩⟩
    · simp [completionErrors]
    · simp [completionErrors]
    · simp [completionErrors]
    · split_ifs at hx
      cases hx
      simp [completionErrors]
    · cases hx

theorem completeAttempt_eq
    (h : Completion stableHash s attemptId executionToken status errorCode refs now a j) :
    completeAttempt stableHash attemptId executionToken status errorCode refs now s =
      (.ok (a.complete status errorCode now, j.complete status errorCode refs now),
        s.completed status errorCode refs now a j) := by
  simp only [completeAttempt, authorizedAttempt, h.attempt, h.job, orError_some, except_bind_ok,
    except_pure_bind, ensure_pos h.accepted, ensure_pos h.token, ensure_pos h.current, ensure_pos h.completable,
    JobRecord.validate, if_pos h.valid]
  rfl

/-- The tables after the next attempt of `queued` has been added. -/
structure Added (queued : JobRecord) (ids : AttemptIds) (now : Timestamp) (s t : Store) :
    Prop where
  jobs : t.jobs = s.jobs.replace queued
  attempts : s.attempts.insert (newAttempt stableHash queued.jobId queued.currentAttemptNumber
    ids now) = some t.attempts
  outbox : s.outbox.insert (newOutbox stableHash queued (newAttempt stableHash queued.jobId
    queued.currentAttemptNumber ids now) ids now) = some t.outbox
  key : ∀ e ∈ s.outbox.rows, e.messageDeduplicationKey ≠ messageDeduplicationKey stableHash
    queued.jobId queued.currentAttemptNumber queued.taskSchemaVersion queued.requestHash
  requests : t.requests = s.requests
  domainRuns : t.domainRuns = s.domainRuns

theorem insertAttempt_ok (h : s.insertAttempt a = .ok t) :
    ∃ u, s.attempts.insert a = some u ∧ t = { s with attempts := u } := by
  unfold Store.insertAttempt at h
  split_ifs at h
  simp only [except_map_eq_ok_iff, orError_eq_ok_iff] at h
  obtain ⟨u, hu, rfl⟩ := h
  exact ⟨u, hu, rfl⟩

theorem insertOutbox_ok {e : OutboxEvent} (h : s.insertOutbox e = .ok t) :
    (∀ r ∈ s.outbox.rows, r.messageDeduplicationKey ≠ e.messageDeduplicationKey) ∧
      ∃ u, s.outbox.insert e = some u ∧ t = { s with outbox := u } := by
  unfold Store.insertOutbox at h
  split_ifs at h with hany
  simp only [except_map_eq_ok_iff, orError_eq_ok_iff] at h
  obtain ⟨u, hu, rfl⟩ := h
  exact ⟨by simpa using hany, u, hu, rfl⟩

theorem insertJob_ok (h : s.insertJob j = .ok t) :
    ∃ u, s.jobs.insert j = some u ∧ t = { s with jobs := u } := by
  unfold Store.insertJob at h
  split_ifs at h
  simp only [except_map_eq_ok_iff, orError_eq_ok_iff] at h
  obtain ⟨u, hu, rfl⟩ := h
  exact ⟨u, hu, rfl⟩

theorem addAttempt_ok {queued : JobRecord} {ids : AttemptIds}
    (h : addAttempt stableHash queued ids now s = .ok (c, t)) :
    Added stableHash queued ids now s t ∧ c.job = queued ∧ c.executionToken = ids.token ∧
      c.attempt = newAttempt stableHash queued.jobId queued.currentAttemptNumber ids now ∧
      c.outbox = newOutbox stableHash queued c.attempt ids now := by
  simp only [addAttempt, except_bind_eq_ok_iff, except_pure_eq_ok_iff, Prod.mk.injEq] at h
  obtain ⟨request, hreq, s₁, h₁, s₂, h₂, rfl, rfl⟩ := h
  obtain ⟨u, hu, rfl⟩ := insertAttempt_ok h₁
  obtain ⟨hkey, v, hv, rfl⟩ := insertOutbox_ok h₂
  exact ⟨⟨rfl, hu, hv, hkey, rfl, rfl⟩, rfl, rfl, rfl, rfl⟩

theorem createRetryAttempt_cases (jobId : String) (ids : AttemptIds) (now : Timestamp)
    (s : Store) :
    (∃ e, createRetryAttempt stableHash jobId ids now s = (.error e, s)) ∨
    (∃ job, s.jobs.find? jobId = some job ∧ job.status = .retryWait ∧
      job.maxAttempts ≤ job.currentAttemptNumber ∧ (job.exhaust now).Valid ∧
      createRetryAttempt stableHash jobId ids now s =
        (.error (.controlPlane "job_attempts_exhausted"), s.updateJob (job.exhaust now))) ∨
    ∃ job c t, s.jobs.find? jobId = some job ∧ job.status = .retryWait ∧
      job.currentAttemptNumber < job.maxAttempts ∧ (job.requeue now).Valid ∧
      addAttempt stableHash (job.requeue now) ids now s = .ok (c, t) ∧
      createRetryAttempt stableHash jobId ids now s = (.ok c, t) := by
  unfold createRetryAttempt
  split
  · exact .inl ⟨_, rfl⟩
  · rename_i job hjob
    split_ifs with hstatus hmax
    · exact .inl ⟨_, rfl⟩
    · cases hv : (job.exhaust now).validate with
      | error e => exact .inl ⟨e, rfl⟩
      | ok dead =>
        obtain ⟨hvalid, rfl⟩ := JobRecord.validate_eq_ok_iff.mp hv
        exact .inr (.inl ⟨job, hjob, by simpa using hstatus, hmax, hvalid, rfl⟩)
    · rcases commit_cases s _ with h | ⟨c, t, hx, h⟩
      · exact .inl h
      · rw [except_bind_eq_ok_iff] at hx
        obtain ⟨queued, hv, hadd⟩ := hx
        obtain ⟨hvalid, rfl⟩ := JobRecord.validate_eq_ok_iff.mp hv
        exact .inr (.inr ⟨job, c, t, hjob, by simpa using hstatus, by simpa using hmax, hvalid,
          hadd, h⟩)

/-- The tables after a new job has been inserted. -/
structure Inserted (sub : JobSubmission) (ids : JobIds) (now : Timestamp) (s t : Store) :
    Prop where
  valid : (newJob stableHash sub ids now).Valid
  jobs : s.jobs.insert (newJob stableHash sub ids now) = some t.jobs
  attempts : s.attempts.insert (newAttempt stableHash (newJob stableHash sub ids now).jobId 1
    ids.toAttemptIds now) = some t.attempts
  outbox : s.outbox.insert (newOutbox stableHash (newJob stableHash sub ids now)
    (newAttempt stableHash (newJob stableHash sub ids now).jobId 1 ids.toAttemptIds now)
    ids.toAttemptIds now) = some t.outbox
  key : ∀ e ∈ s.outbox.rows, e.messageDeduplicationKey ≠ messageDeduplicationKey stableHash
    (newJob stableHash sub ids now).jobId 1 sub.taskSchemaVersion
    (newJob stableHash sub ids now).requestHash
  requests : s.requests.insert (newRequest (newJob stableHash sub ids now) sub.requestJson now) =
    some t.requests
  domainRuns : s.domainRuns.insert (newDomainRun (newJob stableHash sub ids now) now) =
    some t.domainRuns
  auditEvents : s.auditEvents.insert (newAuditEvent sub ids now) = some t.auditEvents

theorem insertNewJob_ok {sub : JobSubmission} {ids : JobIds}
    (h : insertNewJob stableHash sub ids now s = .ok (c, t)) :
    Inserted stableHash sub ids now s t ∧ c.job = newJob stableHash sub ids now ∧
      c.executionToken = ids.token ∧
      c.attempt = newAttempt stableHash c.job.jobId 1 ids.toAttemptIds now ∧
      c.outbox = newOutbox stableHash c.job c.attempt ids.toAttemptIds now := by
  simp only [insertNewJob, except_bind_eq_ok_iff, except_pure_eq_ok_iff,
    JobRecord.validate_eq_ok_iff, Prod.mk.injEq] at h
  obtain ⟨_, ⟨hvalid, rfl⟩, s₁, h₁, s₂, h₂, s₃, h₃, s₄, h₄, s₅, h₅, s₆, h₆, rfl, rfl⟩ := h
  simp only [Store.insertDomainRun, Store.insertRequest, Store.insertAuditEvent,
    except_map_eq_ok_iff] at h₁ h₃ h₆
  obtain ⟨r, hr, rfl⟩ := h₁
  obtain ⟨u, hu, rfl⟩ := insertJob_ok h₂
  obtain ⟨q, hq, rfl⟩ := h₃
  obtain ⟨v, hv, rfl⟩ := insertAttempt_ok h₄
  obtain ⟨hkey, w, hw, rfl⟩ := insertOutbox_ok h₅
  obtain ⟨x, hx, rfl⟩ := h₆
  exact ⟨⟨hvalid, hu, hv, hw, hkey, orError_eq_ok_iff.mp hq, orError_eq_ok_iff.mp hr,
    orError_eq_ok_iff.mp hx⟩, rfl, rfl, rfl, rfl⟩

theorem replayJob_ok {job : JobRecord} {requestHash : String}
    (h : replayJob job requestHash s = .ok (c, t)) : c.executionToken = "" ∧ t = s := by
  simp only [replayJob, except_bind_eq_ok_iff, except_pure_eq_ok_iff, Prod.mk.injEq] at h
  obtain ⟨_, _, _, _, _, _, _, _, rfl, rfl⟩ := h
  exact ⟨rfl, rfl⟩

theorem createJob_cases (sub : JobSubmission) (ids : JobIds) (now : Timestamp) (s : Store) :
    (createJob stableHash sub ids now s).2 = s ∨
    ∃ c t, insertNewJob stableHash sub ids now s = .ok (c, t) ∧
      createJob stableHash sub ids now s = (.ok c, t) := by
  unfold createJob
  cases s.findIdempotent sub.workspaceId (stableHash sub.idempotencyKey) with
  | some job =>
    left
    rcases commit_cases s (replayJob job (stableHash sub.requestJson) s) with
      ⟨e, h⟩ | ⟨c, t, hx, h⟩
    · rw [h]
    · rw [h, (replayJob_ok hx).2]
  | none =>
    rcases commit_cases s (insertNewJob stableHash sub ids now s) with ⟨e, h⟩ | ⟨c, t, hx, h⟩
    · exact .inl (by rw [h])
    · exact .inr ⟨c, t, hx, h⟩

end Hashing

theorem requestCancel_cases (jobId : String) (now : Timestamp) (s : Store) :
    (requestCancel jobId now s).2 = s ∨
    ∃ job, s.jobs.find? jobId = some job ∧ ¬ job.status.Terminal ∧
      JobStatus.cancelling ∈ jobTransitions job.status ∧ (job.cancel now).Valid ∧
      requestCancel jobId now s = (.ok (job.cancel now), s.updateJob (job.cancel now)) := by
  unfold requestCancel
  rcases commit_cases s _ with ⟨e, h⟩ | ⟨x, t, hx, h⟩
  · exact .inl (by rw [h])
  · rw [except_bind_eq_ok_iff] at hx
    obtain ⟨job, hjob, hx⟩ := hx
    split_ifs at hx with hterm
    · simp only [except_pure_eq_ok_iff, Prod.mk.injEq] at hx
      obtain ⟨rfl, rfl⟩ := hx
      exact .inl (by rw [h])
    · simp only [except_bind_eq_ok_iff, ensure_eq_ok_iff, except_pure_eq_ok_iff,
        JobRecord.validate_eq_ok_iff, Prod.mk.injEq] at hx
      obtain ⟨_, hcan, _, ⟨hvalid, rfl⟩, rfl, rfl⟩ := hx
      exact .inr ⟨job, orError_eq_ok_iff.mp hjob, hterm, hcan, hvalid, h⟩

theorem markOutboxConsumedLocal_cases (eventId : String) (now : Timestamp) (s : Store) :
    (markOutboxConsumedLocal eventId now s).2 = s ∨
    ∃ event, s.outbox.find? eventId = some event ∧ event.status = .pending ∧
      markOutboxConsumedLocal eventId now s =
        (.ok (event.consume now), s.updateOutbox (event.consume now)) := by
  unfold markOutboxConsumedLocal
  rcases commit_cases s _ with ⟨e, h⟩ | ⟨x, t, hx, h⟩
  · exact .inl (by rw [h])
  · rw [except_bind_eq_ok_iff] at hx
    obtain ⟨event, hevent, hx⟩ := hx
    split_ifs at hx with hpub
    · simp only [except_pure_eq_ok_iff, Prod.mk.injEq] at hx
      obtain ⟨rfl, rfl⟩ := hx
      exact .inl (by rw [h])
    · simp only [except_bind_eq_ok_iff, ensure_eq_ok_iff, except_pure_eq_ok_iff,
        Prod.mk.injEq] at hx
      obtain ⟨_, hpending, rfl, rfl⟩ := hx
      exact .inr ⟨event, orError_eq_ok_iff.mp hevent, hpending, h⟩

end CodeResearch.ControlPlane
