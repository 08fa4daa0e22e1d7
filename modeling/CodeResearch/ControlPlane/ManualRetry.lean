import CodeResearch.ControlPlane.BackendInvariant
import CodeResearch.ControlPlane.Submission

/-!
# What a refused manual retry leaves behind

`retry` copies the job first and asks afterwards whether the backend accepts jobs.
The copy that a shutting-down backend refuses to schedule is a queued row like any
other, and the next `start` recovers it.
-/
namespace CodeResearch.ControlPlane

section Hashing

variable {stableHash : String → String}
variable {sub : JobSubmission} {ids : JobIds} {now : Timestamp} {s : Store}

/-- `create_job` writes exactly if it inserts a job. -/
theorem createJob_ne_iff : (createJob stableHash sub ids now s).2 ≠ s ↔
    s.findIdempotent sub.workspaceId (stableHash sub.idempotencyKey) = none ∧
      s.Accepts stableHash sub ids now := by
  constructor
  · intro hne
    rcases createJob_cases stableHash sub ids now s with hsame | ⟨c, t, hnew, -⟩
    · exact absurd hsame hne
    · refine ⟨?_, accepts_of_insertNewJob hnew⟩
      by_contra hkey
      obtain ⟨job, hjob⟩ := Option.ne_none_iff_exists'.mp hkey
      refine hne ?_
      rw [createJob, hjob]
      rcases commit_cases s (replayJob job (stableHash sub.requestJson) s) with
        ⟨e, h⟩ | ⟨c, t, hx, h⟩
      · rw [h]
      · rw [h, (replayJob_ok hx).2]
  · rintro ⟨hkey, haccepts⟩ hsame
    obtain ⟨c, t, hnew⟩ := insertNewJob_of_accepts hkey haccepts
    rw [createJob, hkey, hnew] at hsame
    obtain rfl : t = s := hsame
    have hstored := Table.find?_insert_self (insertNewJob_ok stableHash hnew).1.jobs
    exact haccepts.job (List.mem_map_of_mem (Table.find?_mem hstored))

/-- The submission that `create_manual_retry` makes of a stored job. -/
def JobRecord.retrySubmission (job : JobRecord) (request manualHex : String) : JobSubmission where
  workspaceId := job.workspaceId
  projectId := job.projectId
  jobType := job.jobType
  queueName := job.queueName
  requestJson := request
  idempotencyKey := s!"manual-retry:{job.jobId}:{manualHex}"
  actorIdHash := "system"
  domainRunId := none
  retryOfJobId := some job.jobId
  maxAttempts := job.maxAttempts
  taskSchemaVersion := job.taskSchemaVersion

variable (stableHash) in
def Store.Retriable (s : Store) (jobId manualHex : String) (ids : JobIds) (now : Timestamp) :
    Prop :=
  ∃ job request, s.jobs.find? jobId = some job ∧ job.status.Terminal ∧
    s.getJobRequestIn jobId = .ok request ∧
    s.findIdempotent job.workspaceId (stableHash s!"manual-retry:{job.jobId}:{manualHex}") = none ∧
    s.Accepts stableHash (job.retrySubmission request manualHex) ids now

theorem createManualRetry_ne_iff {jobId manualHex : String} :
    (createManualRetry stableHash jobId manualHex ids now s).2 ≠ s ↔
      s.Retriable stableHash jobId manualHex ids now := by
  cases hjob : s.jobs.find? jobId with
  | none => simp [createManualRetry, Store.Retriable, hjob]
  | some job =>
    have hid : job.jobId = jobId := Table.find?_key hjob
    by_cases hterminal : job.status.Terminal
    · cases hrequest : s.getJobRequestIn jobId with
      | error e => simp [createManualRetry, Store.Retriable, hjob, hterminal, hrequest]
      | ok request =>
        have hcall : createManualRetry stableHash jobId manualHex ids now s =
            createJob stableHash (job.retrySubmission request manualHex) ids now s := by
          simp only [createManualRetry, hjob, hterminal, hrequest, not_true_eq_false, if_false,
            JobRecord.retrySubmission, hid]
        rw [hcall, createJob_ne_iff]
        constructor
        · rintro ⟨hkey, haccepts⟩
          exact ⟨job, request, hjob, hterminal, hrequest, hkey, haccepts⟩
        · rintro ⟨job', request', hjob', -, hrequest', hkey, haccepts⟩
          obtain rfl : job = job' := Option.some.inj (hjob.symm.trans hjob')
          obtain rfl : request = request' := Except.ok.inj (hrequest.symm.trans hrequest')
          exact ⟨hkey, haccepts⟩
    · simp [createManualRetry, Store.Retriable, hjob, hterminal]

end Hashing

namespace Backend

variable (cfg : BackendConfig)

/-- What `retry` returns or raises, with the backend after it. -/
def retryCall (b : Backend) (jobId manualHex : String) (ids : JobIds) (now : Timestamp) :
    Except StoreError CreatedJob × Backend :=
  match createManualRetry cfg.stableHash jobId manualHex ids now b.store with
  | (.ok created, s) =>
    if b.accepting then (.ok created, schedule { b with store := s } created)
    else (.error (.controlPlane "job_backend_shutting_down"), { b with store := s })
  | (.error e, s) => (.error e, { b with store := s })

theorem retryCall_snd (b : Backend) (jobId manualHex : String) (ids : JobIds) (now : Timestamp) :
    (retryCall cfg b jobId manualHex ids now).2 = retry cfg b jobId manualHex ids now := by
  unfold retryCall retry
  cases createManualRetry cfg.stableHash jobId manualHex ids now b.store with
  | mk result s =>
    cases result with
    | ok created => cases b.accepting <;> rfl
    | error e => rfl

def RefusedRetryTraceless (b : Backend) (jobId manualHex : String) (ids : JobIds)
    (now : Timestamp) : Prop :=
  ∀ e, (retryCall cfg b jobId manualHex ids now).1 = .error e →
    (retryCall cfg b jobId manualHex ids now).2.store = b.store

/-- A refused retry leaves its copy of the job behind exactly if the backend is shutting down
and the job could be copied. -/
theorem refusedRetryTraceless_iff (b : Backend) (jobId manualHex : String) (ids : JobIds)
    (now : Timestamp) : RefusedRetryTraceless cfg b jobId manualHex ids now ↔
      b.accepting = true ∨ ¬ b.store.Retriable cfg.stableHash jobId manualHex ids now := by
  rw [← createManualRetry_ne_iff, not_not]
  unfold RefusedRetryTraceless retryCall
  cases hcall : createManualRetry cfg.stableHash jobId manualHex ids now b.store with
  | mk result s =>
    cases result with
    | ok created =>
      cases haccepting : b.accepting with
      | true => simp
      | false => simp
    | error e =>
      have hsame : s = b.store := by
        rcases createManualRetry_cases cfg.stableHash jobId manualHex ids now b.store with
          hsame | ⟨sub, hcreate⟩
        · rw [hcall] at hsame
          exact hsame
        · rw [hcreate] at hcall
          exact (commit_eq_error hcall).2
      simp [hsame]

def endedRun : List Event :=
  [.submit sampleSubmission ⟨sampleIds "1", "1", "1", "1"⟩ 1,
    .beginTask "attempt_1" (CallEnv.faultless (sampleIds "2") 2),
    .finishTask "attempt_1" (.ok []) (CallEnv.faultless (sampleIds "2") 3), .shutdownBegin]

def retriedRun : List Event :=
  [.retry "job_1" "a" ⟨sampleIds "2", "2", "2", "2"⟩ 4, .shutdownDeadline, .shutdownEnd,
    .start (fun _ => sampleIds "3") 5]

/-- What the retry raises, the jobs before and after it, and the jobs that the next process
schedules. -/
def refusedRetry : Option (Option StoreError × List String × List String × List String) :=
  ((machine sampleConfig).exec Machine.Free (boot .empty []) endedRun).bind fun b =>
    ((machine sampleConfig).exec Machine.Free b retriedRun).map fun b' =>
      let call := retryCall sampleConfig b "job_1" "a" ⟨sampleIds "2", "2", "2", "2"⟩ 4
      (match call.1 with | .error e => some e | .ok _ => none, b.store.jobs.rows.map (·.jobId),
        call.2.store.jobs.rows.map (·.jobId), b'.tasks.map Task.jobId)

/-- The retry is refused because of the shutdown, its copy is stored all the same, and the next
process schedules it. -/
theorem refusedRetry_scheduled :
    ∃ b b', (machine sampleConfig).Run Machine.Free (boot .empty []) endedRun b ∧
      (retryCall sampleConfig b "job_1" "a" ⟨sampleIds "2", "2", "2", "2"⟩ 4).1 =
        .error (.controlPlane "job_backend_shutting_down") ∧
      ¬ RefusedRetryTraceless sampleConfig b "job_1" "a" ⟨sampleIds "2", "2", "2", "2"⟩ 4 ∧
      (machine sampleConfig).Run Machine.Free b retriedRun b' ∧
      b'.tasks.map Task.jobId = ["job_2"] := by
  have hrun : refusedRetry = some (some (.controlPlane "job_backend_shutting_down"), ["job_1"],
      ["job_1", "job_2"], ["job_2"]) := by decide
  obtain ⟨b, hb, hrun⟩ := Option.bind_eq_some_iff.mp hrun
  obtain ⟨b', hb', hrun⟩ := Option.map_eq_some_iff.mp hrun
  simp only [Prod.mk.injEq] at hrun
  obtain ⟨herror, hbefore, hafter, htasks⟩ := hrun
  have hraised : (retryCall sampleConfig b "job_1" "a" ⟨sampleIds "2", "2", "2", "2"⟩ 4).1 =
      .error (.controlPlane "job_backend_shutting_down") := by
    split at herror
    · rename_i e he
      rw [he, Option.some.inj herror]
    · cases herror
  refine ⟨b, b', Machine.run_of_exec hb, hraised, ?_, Machine.run_of_exec hb', htasks⟩
  intro htraceless
  rw [htraceless _ hraised, hbefore] at hafter
  exact absurd hafter (by decide)

end Backend

end CodeResearch.ControlPlane
