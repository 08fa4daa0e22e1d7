import CodeResearch.ControlPlane.JobChanges

/-!
# Finished jobs

`transition_job`, `request_cancel`, `create_retry_attempt` and the restart look
at the status of a job before they rewrite it. `complete_attempt` does not: it
rewrites the row of a finished job whose current attempt is still open. Runs
without such a call keep the whole row of a finished job.
-/
namespace CodeResearch.ControlPlane

variable (stableHash : String → String)

/-- The call presents the current attempt of the job with its token and a status
that the attempt may still take: all that `complete_attempt` checks. -/
def StoreOp.Finalises (op : StoreOp) (s : Store) (j : JobRecord) : Prop :=
  match op with
  | .completeAttempt attemptId token status _ _ =>
    status ∈ completionStatuses ∧ ∃ a ∈ s.attempts.rows, a.attemptId = attemptId ∧
      a.jobId = j.jobId ∧ a.executionTokenHash = stableHash token ∧
      j.currentAttemptNumber = a.attemptNumber ∧ a.Completable status
  | _ => False

instance (op : StoreOp) (s : Store) (j : JobRecord) :
    Decidable (op.Finalises stableHash s j) :=
  match op with
  | .completeAttempt .. => inferInstanceAs (Decidable (_ ∧ _))
  | .createJob .. | .transitionJob .. | .transitionAttempt .. | .heartbeatAttempt ..
  | .createRetryAttempt .. | .createManualRetry .. | .recoverIncompleteJobs ..
  | .requestCancel .. | .markOutboxConsumedLocal .. => isFalse id

def KeepsFinished (s : Store) (c : StoreCall) : Prop :=
  ∀ j ∈ s.jobs.rows, j.status.Terminal → ¬ c.op.Finalises stableHash s j

instance (s : Store) (c : StoreCall) : Decidable (KeepsFinished stableHash s c) :=
  inferInstanceAs (Decidable (∀ j ∈ s.jobs.rows, j.status.Terminal → ¬ _))

def ValidTokens (s : Store) (c : StoreCall) : Prop :=
  match c.op with
  | .transitionAttempt attemptId token _ _ _ | .heartbeatAttempt attemptId token
  | .completeAttempt attemptId token _ _ _ =>
    ∃ a ∈ s.attempts.rows, a.attemptId = attemptId ∧ a.executionTokenHash = stableHash token
  | _ => True

instance (s : Store) (c : StoreCall) : Decidable (ValidTokens stableHash s c) := by
  unfold ValidTokens
  split <;> infer_instance

/-- Along every run under the guard, a finished job keeps its outcome. -/
def TerminalAbsorbing (G : Store → StoreCall → Prop) : Prop :=
  ∀ (calls more : List StoreCall) (s t : Store) (jobId : String) (j : JobRecord),
    (storeMachine stableHash).Run G .empty calls s → (storeMachine stableHash).Run G s more t →
      s.jobs.find? jobId = some j → j.status.Terminal →
      ∃ k, t.jobs.find? jobId = some k ∧ k.status = j.status ∧ k.finishedAt = j.finishedAt ∧
        k.errorCode = j.errorCode ∧ k.resultArtifactRefIds = j.resultArtifactRefIds

variable {stableHash} {j : JobRecord}

theorem Completion.finalises {s : Store} {attemptId token : String} {status : AttemptStatus}
    {errorCode : Option String} {refs : Option (List String)} {now : Timestamp} {a : JobAttempt}
    (h : Completion stableHash s attemptId token status errorCode refs now a j) :
    (StoreOp.completeAttempt attemptId token status errorCode refs).Finalises stableHash s j :=
  ⟨h.accepted, a, Table.find?_mem h.attempt, Table.find?_key h.attempt,
    (Table.find?_key h.job).symm, h.token, h.current, h.completable⟩

/-- A call that does not finalise an attempt of a finished job keeps its row. -/
theorem perform_terminal {s : Store} {c : StoreCall} {jobId : String}
    (hj : s.jobs.find? jobId = some j) (hterm : j.status.Terminal)
    (hc : ¬ c.op.Finalises stableHash s j) :
    (s.perform stableHash c).jobs.find? jobId = some j := by
  have hstep := perform_jobStep stableHash s c jobId
  rw [hj] at hstep
  generalize (s.perform stableHash c).jobs.find? jobId = row at hstep
  cases hstep with
  | kept => rfl
  | changed hchange =>
    obtain ⟨_, _, _, _, _, a, hop, hdone⟩ := hchange.of_terminal hterm
    rw [hop] at hc
    exact absurd hdone.finalises hc

theorem run_terminal {s t : Store} {calls : List StoreCall} {jobId : String}
    (hrun : (storeMachine stableHash).Run (KeepsFinished stableHash) s calls t)
    (hj : s.jobs.find? jobId = some j) (hterm : j.status.Terminal) :
    t.jobs.find? jobId = some j := by
  refine Machine.Run.invariant (fun u => u.jobs.find? jobId = some j) ?_ hrun hj
  rintro u c _ hu hguard ⟨⟩
  exact perform_terminal hu hterm (hguard j (Table.find?_mem hu) hterm)

theorem terminalAbsorbing_of_keepsFinished (stableHash : String → String) :
    TerminalAbsorbing stableHash (KeepsFinished stableHash) := by
  intro calls more s t jobId j _ hrun hj hterm
  exact ⟨j, run_terminal hrun hj hterm, rfl, rfl, rfl, rfl⟩

/-- A job is created and failed through `transition_job`. -/
def failedJob : List StoreCall :=
  [sampleCreate, ⟨.transitionJob "job_1" .failed (some "rejected") none, 2⟩]

def Store.afterFailedJob : Store := failedJob.foldl (Store.perform id) .empty

/-- The first attempt of the failed job, still open, is completed successfully. -/
def lateCompletion : StoreCall :=
  ⟨.completeAttempt "attempt_1" "1" .succeeded none (some ["artifact"]), 3⟩

def lateCancel : StoreCall := ⟨.requestCancel "job_1", 3⟩

theorem terminalAbsorbing_lateCancel :
    ∃ j k, Store.afterFailedJob.jobs.find? "job_1" = some j ∧
      (Store.afterFailedJob.perform id lateCancel).jobs.find? "job_1" = some k ∧
      k.status = j.status ∧ k.finishedAt = j.finishedAt ∧ k.errorCode = j.errorCode ∧
      k.resultArtifactRefIds = j.resultArtifactRefIds := by
  obtain ⟨j, hj, hterm⟩ :
      ∃ j, Store.afterFailedJob.jobs.find? "job_1" = some j ∧ j.status.Terminal :=
    ⟨Store.afterFailedJob.jobs.rows.head (by decide), by decide, by decide⟩
  obtain ⟨k, hk⟩ := terminalAbsorbing_of_keepsFinished id failedJob [lateCancel]
    Store.afterFailedJob _ "job_1" j (Machine.run_total _ (by decide))
    (Machine.run_total _ (by decide)) hj hterm
  exact ⟨j, k, hj, hk⟩

theorem not_terminalAbsorbing_validTokens : ¬ TerminalAbsorbing id (ValidTokens id) := by
  intro habs
  obtain ⟨j, hj, hterm, hfailed⟩ : ∃ j, Store.afterFailedJob.jobs.find? "job_1" = some j ∧
      j.status.Terminal ∧ j.status = .failed :=
    ⟨Store.afterFailedJob.jobs.rows.head (by decide), by decide, by decide, by decide⟩
  obtain ⟨k, hk, hstatus, -⟩ := habs failedJob [lateCompletion] Store.afterFailedJob
    (Store.afterFailedJob.perform id lateCompletion) "job_1" j (Machine.run_total _ (by decide))
    (Machine.run_total _ (by decide)) hj hterm
  have hcompleted : ((Store.afterFailedJob.perform id lateCompletion).jobs.find? "job_1").map
      JobRecord.status = some .completed := by decide
  rw [hk, Option.map_some, Option.some_inj, hstatus, hfailed] at hcompleted
  exact absurd hcompleted (by decide)

end CodeResearch.ControlPlane
