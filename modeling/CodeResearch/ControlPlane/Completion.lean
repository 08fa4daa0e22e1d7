import CodeResearch.ControlPlane.BackendInvariant

/-!
# How jobs become completed

Only the last segment of a task completes a job: its handler has returned, and the
job was not being cancelled when the segment read it. The job then carries the
references of the handler and the type that its task was scheduled with.
-/
namespace CodeResearch.ControlPlane

/-- Every completed job meets `R`. -/
def Store.CompletedAll (R : JobRecord → Prop) (s : Store) : Prop :=
  ∀ j ∈ s.jobs.rows, j.status = .completed → R j

def Typed (s : Store) (created : CreatedJob) : Prop :=
  ∃ j, s.jobs.find? created.job.jobId = some j ∧ j.jobType = created.job.jobType

def Accepts (s : Store) (created : CreatedJob) (env : CallEnv) : Prop :=
  env.fault .getJobEnd = none ∧ env.fault .completeSucceeded = none ∧
    (∃ j ∈ s.jobs.find? created.job.jobId, j.status ≠ .cancelling) ∧
    ∃ a ∈ s.attempts.find? created.attempt.attemptId, a.Completable .succeeded

instance (s : Store) (created : CreatedJob) (env : CallEnv) : Decidable (Accepts s created env) :=
  inferInstanceAs (Decidable (_ ∧ _))

variable {stableHash : String → String} {s t : Store} {R : JobRecord → Prop} {now : Timestamp}

/-- Every call keeps what holds of all completed jobs, if a success keeps it. -/
theorem Store.CompletedAll.perform (h : s.CompletedAll R) {c : StoreCall} (hc : c.op.Dispatching)
    (hsuccess : ∀ attemptId token errorCode refs a j,
      c.op = .completeAttempt attemptId token .succeeded errorCode refs →
      Completion stableHash s attemptId token .succeeded errorCode refs c.now a j →
      R (j.complete .succeeded errorCode refs c.now)) :
    (s.perform stableHash c).CompletedAll R := by
  intro j hj hdone
  have hstep := perform_jobStep stableHash s c j.jobId
  rw [Table.find?_of_mem hj] at hstep
  generalize hrow : s.jobs.find? j.jobId = row at hstep
  cases hstep with
  | kept _ => exact h j (Table.find?_mem hrow) hdone
  | inserted sub ids valid => cases hdone
  | changed hchange =>
    obtain ⟨op, now⟩ := c
    cases hchange with
    | @moved _ target _ _ _ _ _ _ _ =>
      have htarget : target = .completed := hdone
      rw [htarget] at hc
      simp [StoreOp.Dispatching] at hc
    | @completed attemptId token status errorCode refs _ a k done =>
      cases status with
      | succeeded => exact hsuccess _ _ _ _ _ _ rfl done
      | _ => cases hdone
    | exhausted | requeued | cancelling | cancelledOnRestart | exhaustedOnRestart |
      requeuedOnRestart => cases hdone

theorem Store.CompletedAll.perform_unsuccessful (h : s.CompletedAll R) {c : StoreCall}
    (hc : c.op.Dispatching) (hun : c.op.Unsuccessful) :
    (s.perform stableHash c).CompletedAll R := by
  apply h.perform hc
  intro attemptId token errorCode refs a j hop _
  rw [hop] at hun
  exact absurd rfl hun

theorem JobChange.jobType_eq {op : StoreOp} {j k : JobRecord}
    (h : JobChange stableHash s op now j k) : k.jobType = j.jobType := by
  cases h <;> rfl

theorem Typed.perform {created : CreatedJob} (h : Typed s created) (c : StoreCall) :
    Typed (s.perform stableHash c) created := by
  obtain ⟨j, hj, htype⟩ := h
  have hstep := perform_jobStep stableHash s c created.job.jobId
  rw [hj] at hstep
  generalize hrow : (s.perform stableHash c).jobs.find? created.job.jobId = row at hstep
  cases hstep with
  | kept _ => exact ⟨j, hrow, htype⟩
  | changed hchange => exact ⟨_, hrow, hchange.jobType_eq.trans htype⟩

variable {c : CreatedJob}

theorem typed_of_addAttempt {queued j : JobRecord} {ids : AttemptIds}
    (hj : s.jobs.find? queued.jobId = some j)
    (h : addAttempt stableHash queued ids now s = .ok (c, t)) : Typed t c := by
  obtain ⟨hadd, hjob, _⟩ := addAttempt_ok stableHash h
  refine ⟨queued, ?_, by rw [hjob]⟩
  rw [hadd.jobs, hjob]
  exact Table.find?_replace_self (by rw [hj]; rfl)

theorem typed_of_createJob {sub : JobSubmission} {ids : JobIds}
    (h : createJob stableHash sub ids now s = (.ok c, t)) : Typed t c := by
  unfold createJob at h
  cases hfind : s.findIdempotent sub.workspaceId (stableHash sub.idempotencyKey) with
  | some job =>
    rw [hfind] at h
    have hx := commit_eq_ok h
    simp only [replayJob, except_bind_eq_ok_iff, orError_eq_ok_iff, except_pure_eq_ok_iff,
      Prod.mk.injEq] at hx
    obtain ⟨_, _, a, _, _, _, _, _, rfl, rfl⟩ := hx
    exact ⟨job, Table.find?_of_mem (List.mem_of_find?_eq_some hfind), rfl⟩
  | none =>
    rw [hfind] at h
    obtain ⟨hins, hjob, _⟩ := insertNewJob_ok stableHash (commit_eq_ok h)
    refine ⟨c.job, ?_, rfl⟩
    rw [hjob]
    exact Table.find?_insert_self hins.jobs

theorem typed_of_recover {fresh : String → AttemptIds} {cs : List CreatedJob}
    (h : recoverIncompleteJobs stableHash fresh now s = (.ok cs, t)) : ∀ c ∈ cs, Typed t c := by
  refine (recoverLoop_created stableHash (P := fun _ => True) (Q := fun c u => Typed u c)
    (fun _ _ _ _ _ _ _ _ => trivial) ?_ ?_ trivial (nodup_incompleteJobs s)
    (incompleteJobs_current s) (commit_eq_ok h)).1
  · intro job u c v _ hfind _ hrec
    obtain ⟨a, _, hrec⟩ := recoverJob_ok stableHash hrec
    cases hrec with
    | requeued _ _ hadd =>
      have hjob : (job.requeueOnRestart now).jobId = job.jobId := rfl
      refine ⟨by rw [(addAttempt_ok stableHash hadd).2.1]; rfl, typed_of_addAttempt (j := job) ?_ hadd⟩
      rw [Store.closeAttempt_jobs, hjob]
      exact hfind
  · rintro job u d v c _ ⟨j, hj, htype⟩ hne _ hrec
    refine ⟨j, ?_, htype⟩
    rw [recoverJob_jobs_of_ne stableHash hrec hne]
    exact hj

theorem Scheduled.typed (h : Scheduled stableHash t c) : Typed t c := by
  cases h with
  | created h => exact typed_of_createJob h
  | @retried jobId ids now s _ _ h =>
    rcases createRetryAttempt_cases stableHash jobId ids now s with
      ⟨e, heq⟩ | ⟨j, _, _, _, _, heq⟩ | ⟨j, d, u, hj, _, _, _, hadd, heq⟩ <;> rw [heq] at h <;> cases h
    apply typed_of_addAttempt (j := j) _ hadd
    rw [← Table.find?_key hj] at hj
    exact hj
  | recovered h mem => exact typed_of_recover h _ mem

section Segments

variable {env : CallEnv} {created : CreatedJob} {shutdownRequested : Bool}

theorem executeStart_completes {hasHandler : Bool} (hs : s.CompletedAll R) :
    ((executeStart stableHash env hasHandler shutdownRequested created).runOn s).2.CompletedAll
      R := by
  apply (executeStart_emits stableHash env created hasHandler shutdownRequested).invariant
    (Store.CompletedAll R) _ hs
  rintro u c hu ⟨htask, hun⟩
  exact hu.perform_unsuccessful htask.backend.1 hun

/-- The last segment completes a job only if the store takes its success, with the
references of the handler. -/
theorem executeEnd_completes {outcome : Except JobError (List String)} (hs : s.CompletedAll R)
    (hstored : Stored s created) (htyped : Typed s created)
    (hsuccess : ∀ refs j now, outcome = .ok refs → Accepts s created env →
      s.jobs.find? created.job.jobId = some j → j.jobType = created.job.jobType →
      R (j.complete .succeeded none (some refs) now)) :
    ((executeEnd stableHash env shutdownRequested created outcome).runOn s).2.CompletedAll R := by
  have hbody : (completeExecution stableHash env created outcome).Ends s
      (fun _ t => t.CompletedAll R) fun _ t => t.CompletedAll R := by
    cases outcome with
    | error e => exact Exec.ends_throw hs
    | ok refs =>
      obtain ⟨job, hjob, htype⟩ := htyped
      apply ends_call_bind
      · exact fun _ _ => hs
      · intro hget
        refine ⟨job, s, getJob_of_find hjob, ?_⟩
        split
        · refine (ends_call hs fun _ => ?_).bind fun _ _ h => Exec.ends_pure h
          exact hs.perform_unsuccessful (c := ⟨.completeAttempt _ _ .cancelled _ _, _⟩) trivial
            AttemptStatus.noConfusion
        · rename_i hlive
          refine (ends_call hs fun hcomplete => ?_).bind fun _ _ h => Exec.ends_pure h
          apply hs.perform (c := ⟨.completeAttempt _ _ .succeeded _ _, _⟩) trivial
          intro _ _ _ _ a j hop done
          cases hop
          obtain ⟨a', ha', hown⟩ := hstored
          obtain rfl : a' = a := Option.some.inj (ha'.symm.trans done.attempt)
          have hj := done.job
          rw [hown, hjob] at hj
          cases hj
          exact hsuccess refs job _ rfl
            ⟨hget, hcomplete, ⟨job, hjob, hlive⟩, ⟨a', ha', done.completable⟩⟩ hjob htype
  have hall : (executeEnd stableHash env shutdownRequested created outcome).Ends s
      (fun _ t => t.CompletedAll R) fun _ t => t.CompletedAll R := by
    apply Exec.Ends.tryCatch (R := fun _ t => t.CompletedAll R)
    · exact hbody.bind fun _ _ h => Exec.ends_pure h
    · intro e u hu
      refine Exec.Ends.bind ?_ fun _ _ h => Exec.ends_pure h
      apply (handleError_emits stableHash env created shutdownRequested e).ends
        (Store.CompletedAll R) _ hu
      rintro v c hv ⟨hfinal, hun⟩
      exact hv.perform_unsuccessful (StoreOp.OfTask.backend (.inl hfinal)).1 hun
  rcases hall.final with ⟨_, h⟩ | ⟨_, h⟩ <;> exact h

end Segments

namespace Backend

variable {cfg : BackendConfig} {b b' : Backend} {ev : Event}

def handling (b : Backend) (attemptId : String) : Option Task :=
  (task? b.tasks attemptId true).or (task? b.detached attemptId true)

theorem mem_of_handling {attemptId : String} {t : Task} (h : b.handling attemptId = some t) :
    t ∈ b.tasks ++ b.detached ∧ t.attemptId = attemptId ∧ t.running = true := by
  rcases Option.or_eq_some_iff.mp h with h | ⟨-, h⟩ <;> obtain ⟨hmem, hid, hrun⟩ := mem_of_task? h
  · exact ⟨List.mem_append_left _ hmem, hid, hrun⟩
  · exact ⟨List.mem_append_right _ hmem, hid, hrun⟩

def AllTyped (b : Backend) : Prop := ∀ t ∈ b.tasks ++ b.detached, Typed b.store t.created

theorem AllTyped.step (hb : b.AllTyped) (h : step cfg b ev = some b') : b'.AllTyped := by
  intro t ht
  rcases (step_tasks cfg h ht).old with ⟨t', ht', heq⟩ | hnew
  · obtain ⟨calls, _, hcalls⟩ := step_permitted cfg h
    rw [← heq, hcalls]
    exact List.foldlRecOn (motive := fun s => Typed s t'.created) calls _ (hb t' ht')
      fun _ hs c _ => hs.perform c
  · exact hnew.typed

/-- Only the return of a handler completes a job. -/
theorem completedAll_step (hsound : Sound b) (htyped : b.AllTyped)
    (h : step cfg b ev = some b') (hs : b.store.CompletedAll R)
    (hfinish : ∀ attemptId refs env t j now, ev = .finishTask attemptId (.ok refs) env →
      b.handling attemptId = some t → Accepts b.store t.created env →
      b.store.jobs.find? t.jobId = some j → j.jobType = t.created.job.jobType →
      R (j.complete .succeeded none (some refs) now)) :
    b'.store.CompletedAll R := by
  have hcalls : (∀ c, ev.Permits b c → c.op.Unsuccessful) → b'.store.CompletedAll R := by
    intro hun
    obtain ⟨calls, hcalls, heq⟩ := step_permitted cfg h
    rw [heq]
    exact List.foldlRecOn calls _ hs fun s hs c hc =>
      hs.perform_unsuccessful (hcalls c hc).backend.1 (hun c (hcalls c hc))
  cases ev with
  | start | submit | cancel | retry =>
    apply hcalls
    rintro c rfl
    trivial
  | heartbeat =>
    apply hcalls
    rintro c ⟨_, _, _, rfl⟩
    trivial
  | shutdownBegin | shutdownDeadline | shutdownEnd | crash => exact hcalls fun _ hc => hc.elim
  | beginTask attemptId env =>
    simp only [Backend.step] at h
    split_ifs at h
    obtain ⟨t, _, rfl⟩ := Option.map_eq_some_iff.mp h
    rw [beginTask, settle_store]
    exact executeStart_completes hs
  | finishTask attemptId outcome env =>
    simp only [Backend.step] at h
    have hsegment : ∀ t flag, b.handling attemptId = some t →
        ((executeEnd cfg.stableHash env flag t.created outcome).runOn b.store).2.CompletedAll
          R := by
      intro t flag ht
      obtain ⟨hmem, -, -⟩ := mem_of_handling ht
      apply executeEnd_completes hs (hsound.stored t hmem) (htyped t hmem)
      rintro refs j now rfl
      exact hfinish attemptId refs env t j now rfl ht
    split at h
    · rename_i t ht
      cases h
      rw [finishTask, settle_store]
      exact hsegment t _ (by rw [handling, ht]; rfl)
    · rename_i hnone
      obtain ⟨t, ht, rfl⟩ := Option.map_eq_some_iff.mp h
      exact hsegment t _ (by rw [handling, hnone, ht]; rfl)
  | shutdownLost attemptId env =>
    simp only [Backend.step] at h
    split_ifs at h
    obtain ⟨t, _, rfl⟩ := Option.map_eq_some_iff.mp h
    rw [shutdownLost_store]
    apply (finishSafely_emits cfg.stableHash (P := fun c => c.op.Dispatching ∧ c.op.Unsuccessful)
      env t.created .lost "application_shutdown"
      fun _ => ⟨trivial, AttemptStatus.noConfusion⟩).invariant (Store.CompletedAll R) _ hs
    rintro s c hs ⟨hc, hun⟩
    exact hs.perform_unsuccessful hc hun

end Backend

end CodeResearch.ControlPlane
