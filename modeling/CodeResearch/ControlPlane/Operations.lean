import CodeResearch.Library.Machine
import CodeResearch.ControlPlane.StoreSpec

/-!
# Arbitrary orders of store operations

The public operations as labels of a total machine. The statements of a restart
are shown to touch the rows of the job at hand only, which makes its loop over
all unfinished jobs a sequence of independent steps on current rows.
-/
namespace CodeResearch.ControlPlane

inductive StoreOp
  | createJob (sub : JobSubmission) (ids : JobIds)
  | transitionJob (jobId : String) (target : JobStatus) (errorCode : Option String)
      (expectedRevision : Option ℕ)
  | transitionAttempt (attemptId executionToken : String) (target : AttemptStatus)
      (workerIdHash celeryTaskId : Option String)
  | heartbeatAttempt (attemptId executionToken : String)
  | completeAttempt (attemptId executionToken : String) (status : AttemptStatus)
      (errorCode : Option String) (resultArtifactRefIds : Option (List String))
  | createRetryAttempt (jobId : String) (ids : AttemptIds)
  | createManualRetry (jobId manualHex : String) (ids : JobIds)
  | recoverIncompleteJobs (fresh : String → AttemptIds)
  | requestCancel (jobId : String)
  | markOutboxConsumedLocal (eventId : String)

/-- An operation and the clock it reads. -/
structure StoreCall where
  op : StoreOp
  now : Timestamp

section Hashing

variable (stableHash : String → String)

/-- The tables after a call, whether it returned or raised. -/
def Store.perform (s : Store) (c : StoreCall) : Store :=
  match c.op with
  | .createJob sub ids => (createJob stableHash sub ids c.now s).2
  | .transitionJob jobId target errorCode expectedRevision =>
    (transitionJob jobId target errorCode expectedRevision c.now s).2
  | .transitionAttempt attemptId token target worker celery =>
    (transitionAttempt stableHash attemptId token target worker celery c.now s).2
  | .heartbeatAttempt attemptId token => (heartbeatAttempt stableHash attemptId token c.now s).2
  | .completeAttempt attemptId token status errorCode refs =>
    (completeAttempt stableHash attemptId token status errorCode refs c.now s).2
  | .createRetryAttempt jobId ids => (createRetryAttempt stableHash jobId ids c.now s).2
  | .createManualRetry jobId manualHex ids =>
    (createManualRetry stableHash jobId manualHex ids c.now s).2
  | .recoverIncompleteJobs fresh => (recoverIncompleteJobs stableHash fresh c.now s).2
  | .requestCancel jobId => (requestCancel jobId c.now s).2
  | .markOutboxConsumedLocal eventId => (markOutboxConsumedLocal eventId c.now s).2

@[simp] theorem Store.perform_createJob (s : Store) (sub : JobSubmission) (ids : JobIds)
    (now : Timestamp) : s.perform stableHash ⟨.createJob sub ids, now⟩ =
      (createJob stableHash sub ids now s).2 := rfl

@[simp] theorem Store.perform_createManualRetry (s : Store) (jobId manualHex : String)
    (ids : JobIds) (now : Timestamp) :
    s.perform stableHash ⟨.createManualRetry jobId manualHex ids, now⟩ =
      (createManualRetry stableHash jobId manualHex ids now s).2 := rfl

@[simp] theorem Store.perform_recoverIncompleteJobs (s : Store) (fresh : String → AttemptIds)
    (now : Timestamp) : s.perform stableHash ⟨.recoverIncompleteJobs fresh, now⟩ =
      (recoverIncompleteJobs stableHash fresh now s).2 := rfl

@[simp] theorem Store.perform_completeAttempt (s : Store) (attemptId token : String)
    (status : AttemptStatus) (errorCode : Option String) (refs : Option (List String))
    (now : Timestamp) :
    s.perform stableHash ⟨.completeAttempt attemptId token status errorCode refs, now⟩ =
      (completeAttempt stableHash attemptId token status errorCode refs now s).2 := rfl

def storeMachine : Machine Store StoreCall := .total (Store.perform stableHash)

theorem createManualRetry_cases (jobId manualHex : String) (ids : JobIds) (now : Timestamp)
    (s : Store) :
    (createManualRetry stableHash jobId manualHex ids now s).2 = s ∨
    ∃ sub, createManualRetry stableHash jobId manualHex ids now s =
      createJob stableHash sub ids now s := by
  unfold createManualRetry
  split
  · exact .inl rfl
  · split_ifs
    · split
      · exact .inl rfl
      · exact .inr ⟨_, rfl⟩
    · exact .inl rfl

theorem createManualRetry_ok {jobId manualHex : String} {ids : JobIds} {now : Timestamp}
    {s t : Store} {c : CreatedJob}
    (h : createManualRetry stableHash jobId manualHex ids now s = (.ok c, t)) :
    ∃ sub, createJob stableHash sub ids now s = (.ok c, t) := by
  unfold createManualRetry at h
  split at h
  · cases h
  · split_ifs at h
    · split at h
      · cases h
      · exact ⟨_, h⟩
    · cases h

end Hashing

@[simp] theorem JobAttempt.supersede_attemptId (a : JobAttempt) (now : Timestamp) :
    (a.supersede now).attemptId = a.attemptId := by
  unfold JobAttempt.supersede
  split_ifs <;> rfl

@[simp] theorem JobAttempt.supersede_jobId (a : JobAttempt) (now : Timestamp) :
    (a.supersede now).jobId = a.jobId := by
  unfold JobAttempt.supersede
  split_ifs <;> rfl

@[simp] theorem JobAttempt.supersede_attemptNumber (a : JobAttempt) (now : Timestamp) :
    (a.supersede now).attemptNumber = a.attemptNumber := by
  unfold JobAttempt.supersede
  split_ifs <;> rfl

theorem JobAttempt.supersede_final (a : JobAttempt) (now : Timestamp) :
    (a.supersede now).status.Final := by
  unfold JobAttempt.supersede
  cases h : a.status <;> simp <;> first | decide | (rw [h]; decide)

@[simp] theorem OutboxEvent.supersede_outboxEventId (e : OutboxEvent) (now : Timestamp) :
    (e.supersede now).outboxEventId = e.outboxEventId := by
  unfold OutboxEvent.supersede
  split_ifs <;> rfl

@[simp] theorem OutboxEvent.supersede_attemptId (e : OutboxEvent) (now : Timestamp) :
    (e.supersede now).attemptId = e.attemptId := by
  unfold OutboxEvent.supersede
  split_ifs <;> rfl

@[simp] theorem OutboxEvent.supersede_messageDeduplicationKey (e : OutboxEvent)
    (now : Timestamp) :
    (e.supersede now).messageDeduplicationKey = e.messageDeduplicationKey := by
  unfold OutboxEvent.supersede
  split_ifs <;> rfl

variable {s : Store}

theorem getAttemptIn_some {jobId : String} {n : ℕ} {a : JobAttempt}
    (h : s.getAttemptIn jobId n = some a) :
    a ∈ s.attempts.rows ∧ a.jobId = jobId ∧ a.attemptNumber = n := by
  have hp := List.find?_some h
  simp only [decide_eq_true_eq] at hp
  exact ⟨List.mem_of_find?_eq_some h, hp.1, hp.2⟩

theorem getOutboxForAttempt_some {attemptId : String} {e : OutboxEvent}
    (h : s.getOutboxForAttempt attemptId = some e) :
    e ∈ s.outbox.rows ∧ e.attemptId = attemptId := by
  have hp := List.find?_some h
  simp only [decide_eq_true_eq] at hp
  exact ⟨List.mem_of_find?_eq_some h, hp⟩

/-- The tables after a restart has closed the attempt `a` of a job. -/
def Store.closeAttempt (s : Store) (a : JobAttempt) (now : Timestamp) : Store :=
  match s.getOutboxForAttempt a.attemptId with
  | some event => (s.updateAttempt (a.supersede now)).updateOutbox (event.supersede now)
  | none => s.updateAttempt (a.supersede now)

@[simp] theorem Store.closeAttempt_jobs (s : Store) (a : JobAttempt) (now : Timestamp) :
    (s.closeAttempt a now).jobs = s.jobs := by
  unfold Store.closeAttempt
  split <;> rfl

@[simp] theorem Store.closeAttempt_attempts (s : Store) (a : JobAttempt) (now : Timestamp) :
    (s.closeAttempt a now).attempts = s.attempts.replace (a.supersede now) := by
  unfold Store.closeAttempt
  split <;> rfl

theorem supersedeCurrent_ok {job : JobRecord} {now : Timestamp} {t : Store}
    (h : supersedeCurrent job now s = .ok t) :
    ∃ a, s.getAttemptIn job.jobId job.currentAttemptNumber = some a ∧
      t = s.closeAttempt a now := by
  simp only [supersedeCurrent, except_bind_eq_ok_iff, orError_eq_ok_iff] at h
  obtain ⟨a, ha, h⟩ := h
  refine ⟨a, ha, ?_⟩
  have hget : (s.updateAttempt (a.supersede now)).getOutboxForAttempt a.attemptId =
      s.getOutboxForAttempt a.attemptId := rfl
  rw [hget] at h
  unfold Store.closeAttempt
  split at h <;> simp only [except_pure_eq_ok_iff] at h <;> simp [*]

section Hashing

variable (stableHash : String → String)

/-- What one iteration of a restart did to the job at hand. -/
inductive Recovery (ids : AttemptIds) (now : Timestamp) (job : JobRecord) (s : Store) :
    Option CreatedJob → Store → Prop
  | cancelled (h : job.status = .cancelling) :
      Recovery ids now job s none (s.updateJob (job.cancelOnRestart now))
  | exhausted (h : job.status ≠ .cancelling) (hmax : job.maxAttempts ≤ job.currentAttemptNumber) :
      Recovery ids now job s none (s.updateJob (job.exhaustOnRestart now))
  | requeued {c : CreatedJob} {t : Store} (h : job.status ≠ .cancelling)
      (hmax : job.currentAttemptNumber < job.maxAttempts)
      (hadd : addAttempt stableHash (job.requeueOnRestart now) ids now s = .ok (c, t)) :
      Recovery ids now job s (some c) t

variable {c : Option CreatedJob} {ids : AttemptIds} {job : JobRecord} {now : Timestamp}
  {s t : Store} {rest : List JobRecord} {P : Store → Prop} {fresh : String → AttemptIds}

theorem recoverJob_ok (h : recoverJob stableHash ids now job s = .ok (c, t)) :
    ∃ a, s.getAttemptIn job.jobId job.currentAttemptNumber = some a ∧
      Recovery stableHash ids now job (s.closeAttempt a now) c t := by
  rw [recoverJob, except_bind_eq_ok_iff] at h
  obtain ⟨u, hu, h⟩ := h
  obtain ⟨a, ha, rfl⟩ := supersedeCurrent_ok hu
  refine ⟨a, ha, ?_⟩
  split_ifs at h with hcan hmax
  · simp only [except_pure_eq_ok_iff, Prod.mk.injEq] at h
    obtain ⟨rfl, rfl⟩ := h
    exact .cancelled hcan
  · simp only [except_pure_eq_ok_iff, Prod.mk.injEq] at h
    obtain ⟨rfl, rfl⟩ := h
    exact .exhausted hcan hmax
  · simp only [except_bind_eq_ok_iff, Prod.exists, except_pure_eq_ok_iff, Prod.mk.injEq] at h
    obtain ⟨d, v, hadd, rfl, rfl⟩ := h
    exact .requeued hcan (by omega) hadd

/-- A recovery rewrites the row of its own job only. -/
theorem recoverJob_jobs_of_ne
    (h : recoverJob stableHash ids now job s = .ok (c, t)) {jobId : String}
    (hne : jobId ≠ job.jobId) : t.jobs.find? jobId = s.jobs.find? jobId := by
  obtain ⟨a, _, hrec⟩ := recoverJob_ok stableHash h
  cases hrec with
  | cancelled =>
    have hne' : jobId ≠ (job.cancelOnRestart now).jobId := hne
    rw [Store.updateJob_jobs, Table.find?_replace_of_ne _ hne', Store.closeAttempt_jobs]
  | exhausted =>
    have hne' : jobId ≠ (job.exhaustOnRestart now).jobId := hne
    rw [Store.updateJob_jobs, Table.find?_replace_of_ne _ hne', Store.closeAttempt_jobs]
  | requeued _ _ hadd =>
    have hne' : jobId ≠ (job.requeueOnRestart now).jobId := hne
    rw [(addAttempt_ok stableHash hadd).1.jobs, Table.find?_replace_of_ne _ hne',
      Store.closeAttempt_jobs]

theorem rest_of_recoverJob {u : Store} (h : recoverJob stableHash ids now job s = .ok (c, u))
    (hnot : job.jobId ∉ rest.map JobRecord.jobId)
    (hrest : ∀ other ∈ rest, s.jobs.find? other.jobId = some other ∧ ¬ other.status.Terminal) :
    ∀ other ∈ rest, u.jobs.find? other.jobId = some other ∧ ¬ other.status.Terminal := by
  intro other hother
  have hne : other.jobId ≠ job.jobId := by
    intro heq
    exact hnot (heq ▸ List.mem_map_of_mem hother)
  rw [recoverJob_jobs_of_ne stableHash h hne]
  exact hrest other hother

/-- The rule for the loop of a restart: every iteration starts from the stored row
of an unfinished job that no earlier iteration has touched. -/
theorem recoverLoop_rule {cs : List CreatedJob}
    (hstep : ∀ job ∈ rest, ∀ s c t, P s → s.jobs.find? job.jobId = some job →
      ¬ job.status.Terminal → recoverJob stableHash (fresh job.jobId) now job s = .ok (c, t) → P t)
    (hP : P s) (hnodup : (rest.map JobRecord.jobId).Nodup)
    (hrest : ∀ job ∈ rest, s.jobs.find? job.jobId = some job ∧ ¬ job.status.Terminal)
    (h : recoverLoop stableHash fresh now rest s = .ok (cs, t)) : P t := by
  induction rest generalizing s cs with
  | nil =>
    cases h
    exact hP
  | cons job rest ih =>
    simp only [recoverLoop, except_bind_eq_ok_iff, Prod.exists, except_pure_eq_ok_iff,
      Prod.mk.injEq] at h
    obtain ⟨c, u, hjob, cs', v, hloop, -, rfl⟩ := h
    rw [List.map_cons, List.nodup_cons] at hnodup
    obtain ⟨hfind, hterm⟩ := hrest job List.mem_cons_self
    refine ih (fun other hother => hstep other (List.mem_cons_of_mem _ hother))
      (hstep job List.mem_cons_self s c u hP hfind hterm hjob) hnodup.2 ?_ hloop
    exact rest_of_recoverJob stableHash hjob hnodup.1
      fun other hother => hrest other (List.mem_cons_of_mem _ hother)

/-- The rule for the attempts that a restart creates: what holds of an attempt
when it is added and survives the recovery of other jobs holds at the end. -/
theorem recoverLoop_created {Q : CreatedJob → Store → Prop} {cs : List CreatedJob}
    (hstep : ∀ job s c t, P s → s.jobs.find? job.jobId = some job →
      ¬ job.status.Terminal → recoverJob stableHash (fresh job.jobId) now job s = .ok (c, t) → P t)
    (hnew : ∀ job s c t, P s → s.jobs.find? job.jobId = some job → ¬ job.status.Terminal →
      recoverJob stableHash (fresh job.jobId) now job s = .ok (some c, t) →
        c.job.jobId = job.jobId ∧ Q c t)
    (hkeep : ∀ job s d t c, P s → Q c s → c.job.jobId ≠ job.jobId →
      s.jobs.find? job.jobId = some job →
      recoverJob stableHash (fresh job.jobId) now job s = .ok (d, t) → Q c t)
    (hP : P s) (hnodup : (rest.map JobRecord.jobId).Nodup)
    (hrest : ∀ job ∈ rest, s.jobs.find? job.jobId = some job ∧ ¬ job.status.Terminal)
    (h : recoverLoop stableHash fresh now rest s = .ok (cs, t)) :
    (∀ c ∈ cs, Q c t) ∧ (cs.map fun c => c.job.jobId).Sublist (rest.map JobRecord.jobId) := by
  induction rest generalizing s cs with
  | nil =>
    cases h
    exact ⟨by simp, by simp⟩
  | cons job rest ih =>
    simp only [recoverLoop, except_bind_eq_ok_iff, Prod.exists, except_pure_eq_ok_iff,
      Prod.mk.injEq] at h
    obtain ⟨c, u, hjob, cs', v, hloop, rfl, rfl⟩ := h
    rw [List.map_cons, List.nodup_cons] at hnodup
    obtain ⟨hfind, hterm⟩ := hrest job List.mem_cons_self
    have hPu := hstep job s c u hP hfind hterm hjob
    have hrestu := rest_of_recoverJob stableHash hjob hnodup.1
      fun other hother => hrest other (List.mem_cons_of_mem _ hother)
    obtain ⟨htail, hsub⟩ := ih hPu hnodup.2 hrestu hloop
    cases c with
    | none => exact ⟨htail, hsub.cons _⟩
    | some c =>
      obtain ⟨hid, hQ⟩ := hnew job s c u hP hfind hterm hjob
      refine ⟨?_, by simpa [hid] using hsub.cons_cons job.jobId⟩
      intro d hd
      rcases List.mem_cons.mp hd with rfl | hd
      · refine (recoverLoop_rule stableHash (P := fun w => P w ∧ Q d w) ?_ ⟨hPu, hQ⟩ hnodup.2
          hrestu hloop).2
        intro other hother w e w' hw hfind' hterm' hrec
        have hne : d.job.jobId ≠ other.jobId := by
          rw [hid]
          intro heq
          exact hnodup.1 (heq ▸ List.mem_map_of_mem hother)
        exact ⟨hstep other w e w' hw.1 hfind' hterm' hrec,
          hkeep other w e w' d hw.1 hw.2 hne hfind' hrec⟩
      · exact htail d hd

theorem mem_incompleteJobs :
    job ∈ s.incompleteJobs ↔ job ∈ s.jobs.rows ∧ ¬ job.status.Terminal := by
  simp [Store.incompleteJobs, List.mem_insertionSort]

theorem nodup_incompleteJobs (s : Store) : (s.incompleteJobs.map JobRecord.jobId).Nodup := by
  have hperm := (List.perm_insertionSort (fun a b : JobRecord => a.createdAt ≤ b.createdAt)
    (s.jobs.rows.filter fun j => ¬ j.status.Terminal)).map JobRecord.jobId
  refine hperm.nodup_iff.mpr ?_
  exact s.jobs.nodup.sublist (List.filter_sublist.map _)

theorem incompleteJobs_current (s : Store) :
    ∀ job ∈ s.incompleteJobs, s.jobs.find? job.jobId = some job ∧ ¬ job.status.Terminal := by
  intro job hjob
  obtain ⟨hmem, hterm⟩ := mem_incompleteJobs.mp hjob
  exact ⟨Table.find?_of_mem hmem, hterm⟩

/-- The rule for a whole restart: it keeps what each recovery keeps. -/
theorem recoverIncompleteJobs_rule (hstep : ∀ job u c t, P u → s.jobs.find? job.jobId = some job →
      u.jobs.find? job.jobId = some job → ¬ job.status.Terminal →
      recoverJob stableHash (fresh job.jobId) now job u = .ok (c, t) → P t)
    (hP : P s) : P (recoverIncompleteJobs stableHash fresh now s).2 := by
  unfold recoverIncompleteJobs
  rcases commit_cases s (recoverLoop stableHash fresh now s.incompleteJobs s) with
    ⟨e, h⟩ | ⟨cs, t, hx, h⟩
  · rw [h]
    exact hP
  · rw [h]
    refine recoverLoop_rule stableHash ?_ hP (nodup_incompleteJobs s) (incompleteJobs_current s) hx
    intro job hjob u c v hu
    exact hstep job u c v hu (incompleteJobs_current s job hjob).1

/-- What a call does to the tables. -/
inductive Store.Performs (s : Store) : StoreCall → Store → Prop
  | kept (c : StoreCall) : Performs s c s
  | created (c : StoreCall) (sub : JobSubmission) (ids : JobIds) :
    Performs s c (createJob stableHash sub ids c.now s).2
  | jobMoved {j : JobRecord} {target errorCode revision now}
    (found : s.jobs.find? j.jobId = some j) (live : ¬ j.status.Terminal)
    (allowed : target ∈ jobTransitions j.status) :
    Performs s ⟨.transitionJob j.jobId target errorCode revision, now⟩
      (s.updateJob (j.moveTo target errorCode now))
  | attemptMoved {a : JobAttempt} {token target worker celery now}
    (found : s.attempts.find? a.attemptId = some a)
    (allowed : target ∈ attemptTransitions a.status) :
    Performs s ⟨.transitionAttempt a.attemptId token target worker celery, now⟩
      (s.updateAttempt (a.moveTo target worker celery now))
  | beaten {a : JobAttempt} {token now} (found : s.attempts.find? a.attemptId = some a) :
    Performs s ⟨.heartbeatAttempt a.attemptId token, now⟩ (s.updateAttempt (a.beat now))
  | completed {a : JobAttempt} {j : JobRecord} {token status errorCode refs now}
    (done : Completion stableHash s a.attemptId token status errorCode refs now a j) :
    Performs s ⟨.completeAttempt a.attemptId token status errorCode refs, now⟩
      (s.completed status errorCode refs now a j)
  | exhausted {j : JobRecord} {ids now} (found : s.jobs.find? j.jobId = some j)
    (waiting : j.status = .retryWait) (used : j.maxAttempts ≤ j.currentAttemptNumber) :
    Performs s ⟨.createRetryAttempt j.jobId ids, now⟩ (s.updateJob (j.exhaust now))
  | requeued {j : JobRecord} {ids now c t} (found : s.jobs.find? j.jobId = some j)
    (waiting : j.status = .retryWait) (left : j.currentAttemptNumber < j.maxAttempts)
    (added : addAttempt stableHash (j.requeue now) ids now s = .ok (c, t)) :
    Performs s ⟨.createRetryAttempt j.jobId ids, now⟩ t
  | recovered (fresh : String → AttemptIds) (now : Timestamp) :
    Performs s ⟨.recoverIncompleteJobs fresh, now⟩ (recoverIncompleteJobs stableHash fresh now s).2
  | cancelling {j : JobRecord} {now} (found : s.jobs.find? j.jobId = some j)
    (live : ¬ j.status.Terminal) (allowed : JobStatus.cancelling ∈ jobTransitions j.status) :
    Performs s ⟨.requestCancel j.jobId, now⟩ (s.updateJob (j.cancel now))
  | consumed {event : OutboxEvent} {now}
    (found : s.outbox.find? event.outboxEventId = some event) (pending : event.status = .pending) :
    Performs s ⟨.markOutboxConsumedLocal event.outboxEventId, now⟩ (s.updateOutbox (event.consume now))

theorem Store.performs (s : Store) (c : StoreCall) :
    s.Performs stableHash c (s.perform stableHash c) := by
  obtain ⟨op, now⟩ := c
  cases op with
  | createJob sub ids => exact .created ⟨_, now⟩ sub ids
  | transitionJob jobId target errorCode revision =>
    simp only [Store.perform]
    rcases transitionJob_cases jobId target errorCode revision now s with
      ⟨e, heq⟩ | ⟨j, hj, hlive, hallowed, _, heq⟩ <;> rw [heq]
    · exact .kept _
    · obtain rfl := Table.find?_key hj
      exact .jobMoved hj hlive hallowed
  | transitionAttempt attemptId token target worker celery =>
    simp only [Store.perform]
    rcases transitionAttempt_cases stableHash attemptId token target worker celery now s with
      ⟨e, heq⟩ | ⟨a, ha, _, hallowed, heq⟩ <;> rw [heq]
    · exact .kept _
    · obtain rfl := Table.find?_key ha
      exact .attemptMoved ha hallowed
  | heartbeatAttempt attemptId token =>
    simp only [Store.perform]
    rcases heartbeatAttempt_cases stableHash attemptId token now s with
      ⟨e, heq⟩ | ⟨a, ha, heq⟩ <;> rw [heq]
    · exact .kept _
    · obtain rfl := Table.find?_key ha
      exact .beaten ha
  | completeAttempt attemptId token status errorCode refs =>
    simp only [Store.perform]
    rcases completeAttempt_cases stableHash attemptId token status errorCode refs now s with
      ⟨e, heq⟩ | ⟨a, j, hdone, heq⟩ <;> rw [heq]
    · exact .kept _
    · obtain rfl := Table.find?_key hdone.attempt
      exact .completed hdone
  | createRetryAttempt jobId ids =>
    simp only [Store.perform]
    rcases createRetryAttempt_cases stableHash jobId ids now s with ⟨e, heq⟩ |
      ⟨j, hj, hwaiting, hused, _, heq⟩ | ⟨j, r, t, hj, hwaiting, hleft, _, hadd, heq⟩ <;> rw [heq]
    · exact .kept _
    · obtain rfl := Table.find?_key hj
      exact .exhausted hj hwaiting hused
    · obtain rfl := Table.find?_key hj
      exact .requeued hj hwaiting hleft hadd
  | createManualRetry jobId manualHex ids =>
    rw [Store.perform_createManualRetry]
    rcases createManualRetry_cases stableHash jobId manualHex ids now s with heq | ⟨sub, heq⟩ <;>
      rw [heq]
    · exact .kept _
    · exact .created ⟨_, now⟩ sub ids
  | recoverIncompleteJobs fresh => exact .recovered fresh now
  | requestCancel jobId =>
    simp only [Store.perform]
    rcases requestCancel_cases jobId now s with heq | ⟨j, hj, hlive, hallowed, _, heq⟩ <;> rw [heq]
    · exact .kept _
    · obtain rfl := Table.find?_key hj
      exact .cancelling hj hlive hallowed
  | markOutboxConsumedLocal eventId =>
    simp only [Store.perform]
    rcases markOutboxConsumedLocal_cases eventId now s with
      heq | ⟨event, hevent, hpending, heq⟩ <;> rw [heq]
    · exact .kept _
    · obtain rfl := Table.find?_key hevent
      exact .consumed hevent hpending

end Hashing

def sampleSubmission : JobSubmission where
  workspaceId := "workspace"
  projectId := none
  jobType := .research
  queueName := "local"
  requestJson := "{}"
  idempotencyKey := "key"
  actorIdHash := "actor"
  domainRunId := none
  retryOfJobId := none
  maxAttempts := 3
  taskSchemaVersion := 1

def sampleIds (n : String) : AttemptIds := ⟨n, n, n⟩

def sampleCreate : StoreCall := ⟨.createJob sampleSubmission ⟨sampleIds "1", "1", "1", "1"⟩, 1⟩

end CodeResearch.ControlPlane
