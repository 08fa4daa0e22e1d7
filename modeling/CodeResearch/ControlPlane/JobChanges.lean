import CodeResearch.ControlPlane.Operations

/-!
# The ways in which job and attempt rows change

A call either leaves the row of a job alone, inserts it, or rewrites it in one
of the ways listed by `JobChange`, each with the checks its operation has made.
`AttemptChange` says the same of the rows of attempts.
-/
namespace CodeResearch.ControlPlane

variable {now : Timestamp} {op : StoreOp}

section Hashing

variable (stableHash : String → String)

inductive JobChange (s : Store) : StoreOp → Timestamp → JobRecord → JobRecord → Prop
  | moved {jobId : String} {target : JobStatus} {errorCode : Option String}
      {expectedRevision : Option ℕ} {now : Timestamp} {j : JobRecord} (named : j.jobId = jobId)
      (live : ¬ j.status.Terminal) (allowed : target ∈ jobTransitions j.status) :
      JobChange s (.transitionJob jobId target errorCode expectedRevision) now j
        (j.moveTo target errorCode now)
  | completed {attemptId token : String} {status : AttemptStatus} {errorCode : Option String}
      {refs : Option (List String)} {now : Timestamp} {a : JobAttempt} {j : JobRecord}
      (done : Completion stableHash s attemptId token status errorCode refs now a j) :
      JobChange s (.completeAttempt attemptId token status errorCode refs) now j
        (j.complete status errorCode refs now)
  | exhausted {jobId : String} {ids : AttemptIds} {now : Timestamp} {j : JobRecord}
      (named : j.jobId = jobId) (waiting : j.status = .retryWait)
      (used : j.maxAttempts ≤ j.currentAttemptNumber) :
      JobChange s (.createRetryAttempt jobId ids) now j (j.exhaust now)
  | requeued {jobId : String} {ids : AttemptIds} {now : Timestamp} {j : JobRecord}
      (named : j.jobId = jobId) (waiting : j.status = .retryWait)
      (left : j.currentAttemptNumber < j.maxAttempts) :
      JobChange s (.createRetryAttempt jobId ids) now j (j.requeue now)
  | cancelling {jobId : String} {now : Timestamp} {j : JobRecord} (named : j.jobId = jobId)
      (live : ¬ j.status.Terminal) (allowed : JobStatus.cancelling ∈ jobTransitions j.status) :
      JobChange s (.requestCancel jobId) now j (j.cancel now)
  | cancelledOnRestart {fresh : String → AttemptIds} {now : Timestamp} {j : JobRecord}
      (requested : j.status = .cancelling) :
      JobChange s (.recoverIncompleteJobs fresh) now j (j.cancelOnRestart now)
  | exhaustedOnRestart {fresh : String → AttemptIds} {now : Timestamp} {j : JobRecord}
      (live : ¬ j.status.Terminal) (kept : j.status ≠ .cancelling)
      (used : j.maxAttempts ≤ j.currentAttemptNumber) :
      JobChange s (.recoverIncompleteJobs fresh) now j (j.exhaustOnRestart now)
  | requeuedOnRestart {fresh : String → AttemptIds} {now : Timestamp} {j : JobRecord}
      (live : ¬ j.status.Terminal) (kept : j.status ≠ .cancelling)
      (left : j.currentAttemptNumber < j.maxAttempts) :
      JobChange s (.recoverIncompleteJobs fresh) now j (j.requeueOnRestart now)

/-- The row of a job before and after a call. -/
inductive JobStep (s : Store) (c : StoreCall) : Option JobRecord → Option JobRecord → Prop
  | kept (row : Option JobRecord) : JobStep s c row row
  | inserted (sub : JobSubmission) (ids : JobIds) (valid : (newJob stableHash sub ids c.now).Valid) :
      JobStep s c none (some (newJob stableHash sub ids c.now))
  | changed {j k : JobRecord} (h : JobChange stableHash s c.op c.now j k) :
      JobStep s c (some j) (some k)

variable {stableHash} {s : Store}

/-- Only `complete_attempt` rewrites the row of a finished job. -/
theorem JobChange.of_terminal {j k : JobRecord} (h : JobChange stableHash s op now j k)
    (hj : j.status.Terminal) :
    ∃ attemptId token status errorCode refs a,
      op = .completeAttempt attemptId token status errorCode refs ∧
      Completion stableHash s attemptId token status errorCode refs now a j := by
  cases h with
  | completed done => exact ⟨_, _, _, _, _, _, rfl, done⟩
  | moved _ live _ | cancelling _ live _ | exhaustedOnRestart live _ _ | requeuedOnRestart live _ _ =>
    exact absurd hj live
  | exhausted _ waiting _ | requeued _ waiting _ =>
    rw [waiting] at hj
    exact absurd hj (by decide)
  | cancelledOnRestart requested =>
    rw [requested] at hj
    exact absurd hj (by decide)

theorem jobStep_replace {c : StoreCall} {t : Store} {j k : JobRecord} (jobId : String)
    (ht : t.jobs = s.jobs.replace k) (hj : s.jobs.find? j.jobId = some j)
    (hk : k.jobId = j.jobId) (h : JobChange stableHash s c.op c.now j k) :
    JobStep stableHash s c (s.jobs.find? jobId) (t.jobs.find? jobId) := by
  rw [ht]
  rw [← hk] at hj
  by_cases hid : jobId = k.jobId
  · subst hid
    rw [Table.find?_replace_self (by rw [hj]; rfl), hj]
    exact .changed h
  · rw [Table.find?_replace_of_ne _ hid]
    exact .kept _

theorem jobStep_createJob (jobId : String) (c : StoreCall) (sub : JobSubmission) (ids : JobIds) :
    JobStep stableHash s c (s.jobs.find? jobId)
      ((createJob stableHash sub ids c.now s).2.jobs.find? jobId) := by
  rcases createJob_cases stableHash sub ids c.now s with heq | ⟨r, t, hins, heq⟩
  · rw [heq]
    exact .kept _
  · rw [heq]
    have hok := (insertNewJob_ok stableHash hins).1
    have hjobs := hok.jobs
    by_cases hid : jobId = (newJob stableHash sub ids c.now).jobId
    · subst hid
      rw [Table.find?_insert_self hjobs,
        (Table.find?_eq_none_iff _).mpr (Table.insert_fresh hjobs)]
      exact .inserted sub ids hok.valid
    · rw [Table.find?_insert_of_ne hjobs hid]
      exact .kept _

theorem jobStep_recover (jobId : String) (fresh : String → AttemptIds) (now : Timestamp) :
    JobStep stableHash s ⟨.recoverIncompleteJobs fresh, now⟩ (s.jobs.find? jobId)
      ((recoverIncompleteJobs stableHash fresh now s).2.jobs.find? jobId) := by
  refine recoverIncompleteJobs_rule stableHash (P := fun u => JobStep stableHash s
    ⟨.recoverIncompleteJobs fresh, now⟩ (s.jobs.find? jobId) (u.jobs.find? jobId)) ?_ (.kept _)
  intro job u r t hu hjob₀ hjob hterm hrec
  by_cases hid : jobId = job.jobId
  · subst hid
    obtain ⟨a, _, hrec⟩ := recoverJob_ok stableHash hrec
    have hfind : ∀ k : JobRecord, k.jobId = job.jobId → t.jobs = u.jobs.replace k →
        t.jobs.find? job.jobId = some k := by
      intro k hk ht
      rw [ht, Table.find?_replace_of_key hk (by rw [hjob]; rfl)]
    rw [hjob₀]
    cases hrec with
    | cancelled requested =>
      rw [hfind (job.cancelOnRestart now) rfl (by simp)]
      exact .changed (.cancelledOnRestart requested)
    | exhausted kept used =>
      rw [hfind (job.exhaustOnRestart now) rfl (by simp)]
      exact .changed (.exhaustedOnRestart hterm kept used)
    | requeued kept left hadd =>
      have hjobs := (addAttempt_ok stableHash hadd).1.jobs
      rw [Store.closeAttempt_jobs] at hjobs
      rw [hfind (job.requeueOnRestart now) rfl hjobs]
      exact .changed (.requeuedOnRestart hterm kept left)
  · rw [recoverJob_jobs_of_ne stableHash hrec hid]
    exact hu

/-- Every call takes one step on every job row. -/
theorem perform_jobStep (stableHash : String → String) (s : Store) (c : StoreCall)
    (jobId : String) :
    JobStep stableHash s c (s.jobs.find? jobId)
      ((s.perform stableHash c).jobs.find? jobId) := by
  have hperforms := s.performs stableHash c
  generalize s.perform stableHash c = t at hperforms ⊢
  cases hperforms with
  | kept | attemptMoved | beaten | consumed => exact .kept _
  | created _ sub ids => exact jobStep_createJob jobId c sub ids
  | jobMoved found live allowed =>
    exact jobStep_replace jobId rfl found rfl (.moved rfl live allowed)
  | completed done =>
    exact jobStep_replace jobId rfl (Table.find?_of_mem (Table.find?_mem done.job)) rfl
      (.completed done)
  | exhausted found waiting used =>
    exact jobStep_replace jobId rfl found rfl (.exhausted rfl waiting used)
  | requeued found waiting left added =>
    exact jobStep_replace jobId (addAttempt_ok stableHash added).1.jobs found rfl
      (.requeued rfl waiting left)
  | recovered fresh now => exact jobStep_recover jobId fresh now
  | cancelling found live allowed =>
    exact jobStep_replace jobId rfl found rfl (.cancelling rfl live allowed)

end Hashing

/-- `b` is a later row of the attempt `a`. -/
structure JobAttempt.Continues (a b : JobAttempt) : Prop where
  jobId : b.jobId = a.jobId
  number : b.attemptNumber = a.attemptNumber
  token : b.executionTokenHash = a.executionTokenHash
  final : a.status.Final → b.status.Final

theorem JobAttempt.Continues.refl (a : JobAttempt) : a.Continues a := ⟨rfl, rfl, rfl, fun hf => hf⟩

theorem JobAttempt.Continues.trans {a b c : JobAttempt} (h : a.Continues b)
    (h' : b.Continues c) : a.Continues c :=
  ⟨h'.jobId.trans h.jobId, h'.number.trans h.number, h'.token.trans h.token,
    fun hf => h'.final (h.final hf)⟩

theorem JobAttempt.supersede_continues (a : JobAttempt) (now : Timestamp) :
    a.Continues (a.supersede now) := by
  refine ⟨a.supersede_jobId now, a.supersede_attemptNumber now, ?_, fun _ => a.supersede_final now⟩
  unfold JobAttempt.supersede
  split_ifs <;> rfl

/-- The attempt `a` is stored under `id`, up to its progress. -/
def Store.Keeps (s : Store) (id : String) (a : JobAttempt) : Prop :=
  ∃ b, s.attempts.find? id = some b ∧ a.Continues b

theorem keeps_updateAttempt {s : Store} {id : String} {a old new : JobAttempt}
    (h : s.Keeps id a) (hold : s.attempts.find? new.attemptId = some old)
    (hsame : old.Continues new) : (s.updateAttempt new).Keeps id a := by
  obtain ⟨b, hb, hab⟩ := h
  by_cases hid : id = new.attemptId
  · subst hid
    obtain rfl : b = old := Option.some.inj (hb.symm.trans hold)
    exact ⟨new, Table.find?_replace_self (by rw [hold]; rfl), hab.trans hsame⟩
  · exact ⟨b, by rw [Store.updateAttempt_attempts, Table.find?_replace_of_ne _ hid]; exact hb, hab⟩

section Attempts

variable (stableHash : String → String)

/-- The row of an attempt before and after a call. -/
inductive AttemptChange (s : Store) : StoreOp → Timestamp → JobAttempt → JobAttempt → Prop
  | kept (op : StoreOp) (now : Timestamp) (a : JobAttempt) : AttemptChange s op now a a
  | moved {token : String} {target : AttemptStatus} {worker celery : Option String}
      {now : Timestamp} {a : JobAttempt} (allowed : target ∈ attemptTransitions a.status) :
      AttemptChange s (.transitionAttempt a.attemptId token target worker celery) now a
        (a.moveTo target worker celery now)
  | beaten {token : String} {now : Timestamp} {a : JobAttempt} :
      AttemptChange s (.heartbeatAttempt a.attemptId token) now a (a.beat now)
  | completed {token : String} {status : AttemptStatus} {errorCode : Option String}
      {refs : Option (List String)} {now : Timestamp} {a : JobAttempt} {j : JobRecord}
      (done : Completion stableHash s a.attemptId token status errorCode refs now a j) :
      AttemptChange s (.completeAttempt a.attemptId token status errorCode refs) now a
        (a.complete status errorCode now)
  | recovered {fresh : String → AttemptIds} {now : Timestamp} {a b : JobAttempt}
      (h : a.Continues b) : AttemptChange s (.recoverIncompleteJobs fresh) now a b

variable {stableHash} {s : Store} {id : String} {a : JobAttempt}

theorem AttemptChange.continues {b : JobAttempt} (h : AttemptChange stableHash s op now a b) :
    a.Continues b := by
  cases h with
  | kept => exact .refl a
  | moved allowed =>
    exact ⟨rfl, rfl, rfl, fun hf => absurd allowed (attemptTransitions_final hf)⟩
  | beaten => exact ⟨rfl, rfl, rfl, fun hf => hf⟩
  | completed done => exact ⟨rfl, rfl, rfl, fun _ => completionStatus_final done.accepted⟩
  | recovered h => exact h

theorem attemptChange_update {old new : JobAttempt} (ha : s.attempts.find? id = some a)
    (hold : s.attempts.find? new.attemptId = some old)
    (h : AttemptChange stableHash s op now old new) :
    ∃ b, (s.updateAttempt new).attempts.find? id = some b ∧
      AttemptChange stableHash s op now a b := by
  by_cases hid : id = new.attemptId
  · subst hid
    obtain rfl : a = old := Option.some.inj (ha.symm.trans hold)
    exact ⟨new, Table.find?_replace_self (by rw [hold]; rfl), h⟩
  · exact ⟨a, by rw [Store.updateAttempt_attempts, Table.find?_replace_of_ne _ hid]; exact ha,
      .kept _ _ a⟩

theorem keeps_recoverJob (h : s.Keeps id a) {ids : AttemptIds} {job : JobRecord} {t : Store}
    {c : Option CreatedJob} (hrec : recoverJob stableHash ids now job s = .ok (c, t)) :
    t.Keeps id a := by
  obtain ⟨x, hx, hrec⟩ := recoverJob_ok stableHash hrec
  have hclosed : (s.closeAttempt x now).Keeps id a := by
    have hfind : s.attempts.find? (x.supersede now).attemptId = some x := by
      rw [JobAttempt.supersede_attemptId]
      exact Table.find?_of_mem (getAttemptIn_some hx).1
    obtain ⟨b, hb, hab⟩ := keeps_updateAttempt h hfind (x.supersede_continues now)
    exact ⟨b, by rw [Store.closeAttempt_attempts]; exact hb, hab⟩
  cases hrec with
  | cancelled | exhausted => exact hclosed
  | requeued _ _ hadd =>
    obtain ⟨b, hb, hab⟩ := hclosed
    exact ⟨b, Table.find?_insert_of_some (addAttempt_ok stableHash hadd).1.attempts hb, hab⟩

theorem attempt_createJob (ha : s.attempts.find? id = some a) (sub : JobSubmission)
    (ids : JobIds) (now : Timestamp) :
    (createJob stableHash sub ids now s).2.attempts.find? id = some a := by
  rcases createJob_cases stableHash sub ids now s with heq | ⟨c, t, hins, heq⟩
  · rwa [heq]
  · rw [heq]
    exact Table.find?_insert_of_some (insertNewJob_ok stableHash hins).1.attempts ha

/-- Every call takes every stored attempt to a later row of it. -/
theorem perform_attemptChange (ha : s.attempts.find? id = some a) (c : StoreCall) :
    ∃ b, (s.perform stableHash c).attempts.find? id = some b ∧
      AttemptChange stableHash s c.op c.now a b := by
  have hperforms := s.performs stableHash c
  generalize s.perform stableHash c = t at hperforms ⊢
  cases hperforms with
  | kept | jobMoved | exhausted | cancelling | consumed => exact ⟨a, ha, .kept _ _ a⟩
  | created _ sub ids => exact ⟨a, attempt_createJob ha sub ids c.now, .kept _ _ a⟩
  | attemptMoved found allowed => exact attemptChange_update ha found (.moved allowed)
  | beaten found => exact attemptChange_update ha found .beaten
  | completed done => exact attemptChange_update ha done.attempt (.completed done)
  | requeued _ _ _ added =>
    exact ⟨a, Table.find?_insert_of_some (addAttempt_ok stableHash added).1.attempts ha,
      .kept _ _ a⟩
  | recovered fresh now =>
    have hkeeps : (recoverIncompleteJobs stableHash fresh now s).2.Keeps id a :=
      recoverIncompleteJobs_rule stableHash (P := fun u => u.Keeps id a)
        (fun _ _ _ _ hu _ _ _ hrec => keeps_recoverJob hu hrec) ⟨a, ha, .refl a⟩
    obtain ⟨b, hb, hab⟩ := hkeeps
    exact ⟨b, hb, .recovered hab⟩

theorem keeps_perform (h : s.Keeps id a) (c : StoreCall) :
    (s.perform stableHash c).Keeps id a := by
  obtain ⟨x, hx, hax⟩ := h
  obtain ⟨b, hb, hxb⟩ := perform_attemptChange hx c
  exact ⟨b, hb, hax.trans hxb.continues⟩

end Attempts

end CodeResearch.ControlPlane
