import CodeResearch.ControlPlane.BackendInvariant

/-!
# What a cancellation request survives

The restart and both `get_job` tests of `_execute` look at `CANCELLING`. The error
branches and the shutdown do not: an open attempt that they finalise as retryable
or lost takes its job to `RETRY_WAIT`, from where it is queued and run again. Runs
without such a finalisation never lose a cancellation.
-/
namespace CodeResearch.ControlPlane

def JobStatus.CancelledLine (j : JobStatus) : Prop :=
  j ∈ [JobStatus.cancelling, .cancelled, .failed]

instance (j : JobStatus) : Decidable j.CancelledLine :=
  inferInstanceAs (Decidable (j ∈ _))

def Store.CancelKept (s : Store) (jobId : String) : Prop :=
  ∃ j, s.jobs.find? jobId = some j ∧ j.status.CancelledLine

/-- The errors after which `_execute` finalises its attempt as retryable or lost. -/
def JobError.Requeues (shutdownRequested : Bool) : JobError → Prop
  | .shutdownRequested | .retryable _ => True
  | .cancelled => shutdownRequested = true
  | e => (classifyJobError e).1 = .failedRetryable

instance (shutdownRequested : Bool) (e : JobError) : Decidable (e.Requeues shutdownRequested) := by
  unfold JobError.Requeues
  split <;> infer_instance

def JobError.requeueSite : JobError → Site
  | .shutdownRequested | .cancelled => .finishSafely
  | _ => .completeRetryable

def Store.OpenCancelling (s : Store) (created : CreatedJob) : Prop :=
  (∃ j ∈ s.jobs.rows, j.jobId = created.job.jobId ∧ j.status = .cancelling) ∧
    ∃ a ∈ s.attempts.rows, a.attemptId = created.attempt.attemptId ∧ ¬ a.status.Final

instance (s : Store) (created : CreatedJob) : Decidable (s.OpenCancelling created) :=
  inferInstanceAs (Decidable (_ ∧ _))

def CallEnv.Requeues (env : CallEnv) (shutdownRequested : Bool) (e : JobError) : Prop :=
  e.Requeues shutdownRequested ∧ env.fault e.requeueSite = none

instance (env : CallEnv) (shutdownRequested : Bool) (e : JobError) :
    Decidable (env.Requeues shutdownRequested e) :=
  inferInstanceAs (Decidable (_ ∧ _))

def Backend.flagOf (b : Backend) (attemptId : String) : Bool :=
  match Backend.task? b.tasks attemptId true with
  | some _ => b.shutdownRequested
  | none => true

/-- The event finalises no open attempt of a job that is being cancelled as
retryable or lost. -/
def Event.KeepsCancelled (b : Backend) (ev : Event) : Prop :=
  match ev with
  | .beginTask attemptId env =>
    ∀ t ∈ b.tasks, t.attemptId = attemptId → b.store.OpenCancelling t.created →
      ∀ f ∈ (env.fault .getJobStart).or (env.fault .completeCancelledStart),
        ¬ env.Requeues b.shutdownRequested f.toError
  | .finishTask attemptId outcome env =>
    ∀ t ∈ b.tasks ++ b.detached, t.attemptId = attemptId → b.store.OpenCancelling t.created →
      match outcome with
      | .error e => ¬ env.Requeues (b.flagOf attemptId) e
      | .ok _ => ∀ f ∈ (env.fault .getJobEnd).or (env.fault .completeCancelledEnd),
          ¬ env.Requeues (b.flagOf attemptId) f.toError
  | .shutdownLost attemptId env =>
    ∀ t ∈ b.tasks, t.attemptId = attemptId → b.store.OpenCancelling t.created →
      env.fault .finishSafely ≠ none
  | _ => True

instance (b : Backend) (ev : Event) : Decidable (ev.KeepsCancelled b) := by
  unfold Event.KeepsCancelled
  split
  · infer_instance
  · split <;> infer_instance
  · infer_instance
  · infer_instance

section Hashing

variable {stableHash : String → String} {s : Store} {jobId : String}

/-- One call keeps a cancellation, unless it completes an attempt of the job as
succeeded, retryable or lost. -/
theorem cancelKept_perform (hl : Ledger s) {c : StoreCall} (h : s.CancelKept jobId)
    (hsafe : ∀ attemptId token status errorCode refs a j,
      c.op = .completeAttempt attemptId token status errorCode refs →
      Completion stableHash s attemptId token status errorCode refs c.now a j →
      j.jobId = jobId → j.status = .cancelling →
      status ∈ [AttemptStatus.cancelled, .failedTerminal]) :
    (s.perform stableHash c).CancelKept jobId := by
  obtain ⟨j, hj, hline⟩ := h
  by_cases hterm : j.status.Terminal
  · exact ⟨j, hl.perform_terminal c hj hterm, hline⟩
  have hcan : j.status = .cancelling := by
    revert hline hterm
    cases j.status <;> decide
  have hstep := perform_jobStep stableHash s c jobId
  rw [hj] at hstep
  unfold Store.CancelKept
  generalize (s.perform stableHash c).jobs.find? jobId = row at hstep
  cases hstep with
  | kept => exact ⟨j, rfl, hline⟩
  | @changed _ k hchange =>
    refine ⟨k, rfl, ?_⟩
    obtain ⟨op, now⟩ := c
    cases hchange with
    | moved _ _ allowed =>
      rw [hcan] at allowed
      exact List.mem_cons_of_mem _ allowed
    | completed done =>
      have hstatus := hsafe _ _ _ _ _ _ _ rfl done (Table.find?_key hj) hcan
      simp only [List.mem_cons, List.not_mem_nil, or_false] at hstatus
      obtain rfl | rfl := hstatus
      · exact show JobStatus.CancelledLine .cancelled by decide
      · exact show JobStatus.CancelledLine .failed by decide
    | exhausted _ waiting _ | requeued _ waiting _ =>
      rw [hcan] at waiting
      cases waiting
    | cancelling _ _ allowed =>
      rw [hcan] at allowed
      exact absurd allowed (by decide)
    | cancelledOnRestart _ => exact show JobStatus.CancelledLine .cancelled by decide
    | exhaustedOnRestart _ kept _ | requeuedOnRestart _ kept _ => exact absurd hcan kept

theorem not_requeues_of_completionErrors {e : StoreError} (h : e ∈ completionErrors)
    (shutdownRequested : Bool) : ¬ (JobError.store e).Requeues shutdownRequested := by
  have hall : ∀ b : Bool, ∀ e ∈ completionErrors, ¬ (JobError.store e).Requeues b := by decide
  exact hall shutdownRequested e h

end Hashing

def StoreOp.Closes (op : StoreOp) (created : CreatedJob) : Prop :=
  ∃ status errorCode, op = .completeAttempt created.attempt.attemptId created.executionToken
    status errorCode none ∧ status ∈ [AttemptStatus.cancelled, .failedTerminal]

section Segments

variable (stableHash : String → String) {env : CallEnv} {created : CreatedJob} {s : Store}

variable {f : Fault} {e : JobError} {body : Exec JobError Store Progress} {t : Store}

theorem finishSafely_fault (hf : env.fault .finishSafely = some f)
    (status : AttemptStatus) (errorCode : String) :
    ((finishSafely stableHash env created status errorCode).runOn s).2 = s := by
  rw [finishSafely, Exec.runOn_tryCatch_error (Exec.runOn_bind_error (call_fault hf) _)]
  cases f with
  | controlPlane code =>
    dsimp only [Fault.toError]
    split_ifs <;> rfl
  | locked => rfl

theorem failRetryably_fault (hf : env.fault .completeRetryable = some f)
    (errorCode : String) (swallows : JobError → Bool) :
    (failRetryably stableHash env created errorCode swallows).runOn s = (.error f.toError, s) :=
  Exec.runOn_bind_error (call_fault hf) _

variable {shutdownRequested hasHandler : Bool} {j : JobRecord}

theorem handleError_closes (h : ¬ env.Requeues shutdownRequested e) :
    (handleError stableHash env shutdownRequested created e).Emits (Store.perform stableHash)
      fun c => c.op.Closes created := by
  have hsafe : ∀ status code,
      (status ∈ [AttemptStatus.cancelled, .failedTerminal] ∨ env.fault .finishSafely ≠ none) →
      ((do
        finishSafely stableHash env created status code
        return none : Exec JobError Store (Option CreatedJob))).Emits (Store.perform stableHash)
        fun c => c.op.Closes created := by
    intro status code hstatus
    refine Exec.Emits.bind ?_ fun _ => Exec.emits_pure _
    rcases hstatus with hstatus | hfault
    · exact finishSafely_emits stableHash env created _ _ fun _ => ⟨status, _, rfl, hstatus⟩
    · obtain ⟨f, hf⟩ := Option.ne_none_iff_exists'.mp hfault
      exact fun s => ⟨[], by simp, finishSafely_fault stableHash hf status code⟩
  have hretry : ∀ code swallows, env.fault .completeRetryable ≠ none →
      (failRetryably stableHash env created code swallows).Emits (Store.perform stableHash)
        fun c => c.op.Closes created := by
    intro code swallows hfault s
    obtain ⟨f, hf⟩ := Option.ne_none_iff_exists'.mp hfault
    exact ⟨[], by simp, by rw [failRetryably_fault stableHash hf]; rfl⟩
  by_cases he : e.Classified
  · have hreq : e.Requeues shutdownRequested ↔ (classifyJobError e).1 = .failedRetryable := by
      cases e <;> first | exact Iff.rfl | exact he.elim
    have hsite : e.requeueSite = .completeRetryable := by
      cases e <;> first | rfl | exact he.elim
    rw [handleError_classified _ _ _ _ he]
    split_ifs with hclass
    · exact hretry _ _ fun hn => h ⟨hreq.mpr hclass, by rw [hsite]; exact hn⟩
    · exact hsafe _ _ (.inl (by simp [(classifyJobError_status e).resolve_left hclass]))
  · cases e with
    | shutdownRequested => exact hsafe _ _ (.inr fun hn => h ⟨trivial, hn⟩)
    | cancelled =>
      cases shutdownRequested with
      | true => exact hsafe _ _ (.inr fun hn => h ⟨rfl, hn⟩)
      | false => exact hsafe _ _ (.inl (by decide))
    | retryable errorCode => exact hretry _ _ fun hn => h ⟨trivial, hn⟩
    | store _ | operational _ | artifactSecurity _ | other _ _ => exact absurd trivial he

def ClosesFrom {α : Type} (s : Store) (created : CreatedJob) (x : Exec JobError Store α) : Prop :=
  ∃ calls : List StoreCall, (∀ c ∈ calls, c.op.Closes created) ∧
    (x.runOn s).2 = calls.foldl (Store.perform stableHash) s

theorem closesFrom_tryCatch_error (hbody : body.runOn s = (.error e, s))
    (h : ¬ env.Requeues shutdownRequested e) :
    ClosesFrom stableHash s created (tryCatch body fun e => do
      return .ended (← handleError stableHash env shutdownRequested created e)) := by
  unfold ClosesFrom
  rw [Exec.runOn_tryCatch_error hbody]
  exact ((handleError_closes stableHash h).bind fun _ => Exec.emits_pure _) s

theorem closesFrom_tryCatch_ok {p : Progress} {handler : JobError → Exec JobError
    Store Progress} {c : StoreCall}
    (hbody : body.runOn s = (.ok p, t)) (hc : c.op.Closes created)
    (ht : t = s.perform stableHash c) : ClosesFrom stableHash s created (tryCatch body handler) := by
  refine ⟨[c], by simpa using hc, ?_⟩
  rw [Exec.runOn_tryCatch_ok hbody, ht]
  rfl

/-- A segment that reads the status and completes a cancelled attempt closes it, unless what it
raises requeues the job. -/
theorem closesFrom_completeCancelled {α : Type} {getSite site : Site} {x : Exec JobError Store α}
    {a : α} {rest : α → Exec JobError Store Progress} (hrest : rest a = pure (.ended none))
    (hget : ∀ f, env.fault getSite = some f → x.runOn s = (.error f.toError, s))
    (hdone : env.fault getSite = none → x.runOn s = ((do
      let _ ← call env site (completeAttempt stableHash created.attempt.attemptId
        created.executionToken .cancelled (some "job_cancelled") none)
      return a : Exec JobError Store α)).runOn s)
    (hsafe : ∀ f ∈ (env.fault getSite).or (env.fault site),
      ¬ env.Requeues shutdownRequested f.toError) :
    ClosesFrom stableHash s created (tryCatch (x >>= rest) fun e => do
      return .ended (← handleError stableHash env shutdownRequested created e)) := by
  cases hfault : env.fault getSite with
  | some f =>
    exact closesFrom_tryCatch_error stableHash (Exec.runOn_bind_error (hget f hfault) _)
      (hsafe f (by simp [hfault]))
  | none =>
    have hbody := hdone hfault
    cases hcall : env.fault site with
    | some f =>
      rw [Exec.runOn_bind_error (call_fault hcall)] at hbody
      exact closesFrom_tryCatch_error stableHash (Exec.runOn_bind_error hbody _)
        (hsafe f (by simp [hfault, hcall]))
    | none =>
      rcases hcomplete : completeAttempt stableHash created.attempt.attemptId
        created.executionToken .cancelled (some "job_cancelled") none (env.clock site) s
        with ⟨e | r, t⟩
      · obtain ⟨herr, rfl⟩ := completeAttempt_error stableHash hcomplete
        rw [Exec.runOn_bind_error (call_error hcall hcomplete)] at hbody
        exact closesFrom_tryCatch_error stableHash (Exec.runOn_bind_error hbody _)
          fun hreq => not_requeues_of_completionErrors herr shutdownRequested hreq.1
      · rw [Exec.runOn_bind_ok (call_ok hcall hcomplete)] at hbody
        refine closesFrom_tryCatch_ok stableHash (p := .ended none) (t := t)
          (by rw [Exec.runOn_bind_ok hbody, hrest]; rfl)
          (c := ⟨.completeAttempt created.attempt.attemptId created.executionToken .cancelled
            (some "job_cancelled") none, env.clock site⟩)
          ⟨_, _, rfl, by decide⟩ ?_
        rw [Store.perform_completeAttempt, hcomplete]

/-- A job that is being cancelled is closed instead of dispatched. -/
theorem executeStart_cancelling {hasHandler shutdownRequested : Bool} {j : JobRecord}
    (hj : s.jobs.find? created.job.jobId = some j) (hcan : j.status = .cancelling)
    (hsafe : ∀ f ∈ (env.fault .getJobStart).or (env.fault .completeCancelledStart),
      ¬ env.Requeues shutdownRequested f.toError) :
    ClosesFrom stableHash s created
      (executeStart stableHash env hasHandler shutdownRequested created) := by
  refine closesFrom_completeCancelled stableHash (a := false) rfl ?_ ?_ hsafe
  · exact fun f hf => Exec.runOn_bind_error (call_fault hf) _
  · intro hget
    rw [beginExecution, Exec.runOn_bind_ok (call_ok hget (getJob_of_find hj)), if_pos hcan]

/-- A handler that ends while its job is being cancelled does not complete it. -/
theorem executeEnd_cancelling {shutdownRequested : Bool} {outcome : Except JobError (List String)}
    {j : JobRecord} (hj : s.jobs.find? created.job.jobId = some j) (hcan : j.status = .cancelling)
    (hsafe : match outcome with
      | .error e => ¬ env.Requeues shutdownRequested e
      | .ok _ => ∀ f ∈ (env.fault .getJobEnd).or (env.fault .completeCancelledEnd),
          ¬ env.Requeues shutdownRequested f.toError) :
    ClosesFrom stableHash s created
      (executeEnd stableHash env shutdownRequested created outcome) := by
  cases outcome with
  | error e => exact closesFrom_tryCatch_error stableHash (Exec.runOn_bind_error rfl _) hsafe
  | ok refs =>
    refine closesFrom_completeCancelled stableHash (a := ()) rfl ?_ ?_ hsafe
    · exact fun f hf => Exec.runOn_bind_error (call_fault hf) _
    · intro hget
      rw [completeExecution, Exec.runOn_bind_ok (call_ok hget (getJob_of_find hj)), if_pos hcan]

theorem continues_of_completion {u : Store} {attemptId token : String} {status : AttemptStatus}
    {errorCode : Option String} {refs : Option (List String)} {now : Timestamp}
    {a a' : JobAttempt}
    (hc : (StoreOp.completeAttempt attemptId token status errorCode refs).OfTask created)
    (done : Completion stableHash u attemptId token status errorCode refs now a' j)
    (hkeeps : u.Keeps created.attempt.attemptId a) : a.Continues a' := by
  obtain ⟨b, hb, hab⟩ := hkeeps
  rw [← hc.completes] at hb
  obtain rfl : b = a' := Option.some.inj (hb.symm.trans done.attempt)
  exact hab

/-- A segment of any task keeps a cancellation, if it closes the attempt when that
is open and belongs to the cancelled job. -/
theorem cancelKept_segment {α : Type} {x : Exec JobError Store α} {jobId : String}
    (hl : Ledger s) (hstored : Stored s created) (h : s.CancelKept jobId)
    (hemits : x.Emits (Store.perform stableHash) fun c => c.op.OfTask created)
    (hcloses : s.OpenCancelling created → created.job.jobId = jobId →
      ClosesFrom stableHash s created x) : (x.runOn s).2.CancelKept jobId := by
  by_cases hopen : s.OpenCancelling created ∧ created.job.jobId = jobId
  · obtain ⟨calls, hcalls, heq⟩ := hcloses hopen.1 hopen.2
    rw [heq]
    refine (List.foldlRecOn (motive := fun u => Ledger u ∧ u.CancelKept jobId) calls _ ⟨hl, h⟩
      fun u hu c hc => ?_).2
    obtain ⟨status, code, hop, hstatus⟩ := hcalls c hc
    refine ⟨hu.1.perform _ (by rw [hop]; trivial), cancelKept_perform hu.1 hu.2 ?_⟩
    intro _ _ status' _ _ _ _ hop' _ _ _
    rw [hop] at hop'
    cases hop'
    exact hstatus
  obtain ⟨a, ha, hown⟩ := hstored
  by_cases hid : created.job.jobId = jobId
  · -- the job is finished, or the attempt of the task is
    obtain ⟨j, hj, hline⟩ := h
    by_cases hterm : j.status.Terminal
    · refine ⟨j, ?_, hline⟩
      refine (hemits.invariant (fun u => Ledger u ∧ u.jobs.find? jobId = some j) ?_ ⟨hl, hj⟩).2
      intro u c hu hc
      exact ⟨hu.1.perform _ hc.backend.1, hu.1.perform_terminal c hu.2 hterm⟩
    · have hcan : j.status = .cancelling := by
        revert hline hterm
        cases j.status <;> decide
      have hfinal : a.status.Final := by
        by_contra hlive
        exact hopen ⟨⟨⟨j, Table.find?_mem hj, (Table.find?_key hj).trans hid.symm, hcan⟩, a,
          Table.find?_mem ha, Table.find?_key ha, hlive⟩, hid⟩
      refine (hemits.invariant (fun u => Ledger u ∧ u.CancelKept jobId ∧
        u.Keeps created.attempt.attemptId a) ?_ ⟨hl, ⟨j, hj, hline⟩, a, ha, .refl a⟩).2.1
      rintro u c ⟨hul, hu, hkeeps⟩ hc
      refine ⟨hul.perform _ hc.backend.1, cancelKept_perform hul hu ?_, keeps_perform hkeeps c⟩
      intro attemptId _ _ _ _ a' _ hop done _ _
      rw [hop] at hc
      have hab := continues_of_completion stableHash hc done hkeeps
      exact absurd (hab.final hfinal) (not_final_of_completable done.completable)
  · refine (hemits.invariant (fun u => Ledger u ∧ u.CancelKept jobId ∧
      u.Keeps created.attempt.attemptId a) ?_ ⟨hl, h, a, ha, .refl a⟩).2.1
    rintro u c ⟨hul, hu, hkeeps⟩ hc
    refine ⟨hul.perform _ hc.backend.1, cancelKept_perform hul hu ?_, keeps_perform hkeeps c⟩
    intro attemptId _ _ _ _ a' _ hop done hjob _
    rw [hop] at hc
    have hab := continues_of_completion stableHash hc done hkeeps
    have hown' := Table.find?_key done.job
    rw [hab.jobId, hown] at hown'
    exact absurd (hown'.symm.trans hjob) hid

theorem beginExecution_started
    (h : (beginExecution stableHash env hasHandler created).runOn s = (.ok true, t)) :
    ∃ j, s.jobs.find? created.job.jobId = some j ∧ j.status = .queued := by
  obtain ⟨j, u, hget, h⟩ := Exec.runOn_bind_eq_ok_iff.mp h
  obtain ⟨hj, hu⟩ := Prod.mk.inj (call_eq_ok hget).2
  have hj := orError_eq_ok_iff.mp hj
  subst hu
  split at h
  · obtain ⟨_, _, -, h⟩ := Exec.runOn_bind_eq_ok_iff.mp h
    simp at h
  · obtain ⟨_, u, hcall, -⟩ := Exec.runOn_bind_eq_ok_iff.mp h
    refine ⟨j, hj, ?_⟩
    rcases transitionJob_cases created.job.jobId .dispatching none none (env.clock .dispatching) s
      with ⟨e, heq⟩ | ⟨k, hk, _, allowed, _⟩
    · rw [(call_eq_ok hcall).2] at heq
      cases heq
    · obtain rfl : k = j := Option.some.inj (hk.symm.trans hj)
      revert allowed
      cases k.status <;> decide

theorem executeStart_inHandler
    (h : Progress.ofResult ((executeStart stableHash env hasHandler shutdownRequested
      created).runOn s).1 = .inHandler) :
    ∃ j, s.jobs.find? created.job.jobId = some j ∧ j.status = .queued := by
  rw [executeStart, Exec.runOn_tryCatch] at h
  split at h
  · rename_i t hbody
    simp only [Progress.ofResult] at h
    subst h
    obtain ⟨started, u, hbegin, hbody⟩ := Exec.runOn_bind_eq_ok_iff.mp hbody
    cases started with
    | false => simp at hbody
    | true => exact beginExecution_started stableHash hbegin
  · rename_i e t hbody
    rw [Exec.runOn_bind] at h
    split at h <;> simp [Progress.ofResult] at h

end Segments

namespace Backend

variable (cfg : BackendConfig)

def StartsHandler (b : Backend) (ev : Event) (jobId : String) : Prop :=
  match ev with
  | .beginTask attemptId env =>
    ∃ t ∈ b.tasks, t.attemptId = attemptId ∧ t.jobId = jobId ∧
      Progress.ofResult ((executeStart cfg.stableHash env (cfg.hasHandler t.created.job.jobType)
        b.shutdownRequested t.created).runOn b.store).1 = .inHandler
  | _ => False

variable {b : Backend} {jobId : String}

theorem not_startsHandler (h : b.store.CancelKept jobId)
    (ev : Event) : ¬ StartsHandler cfg b ev jobId := by
  intro hstart
  unfold StartsHandler at hstart
  split at hstart
  · obtain ⟨t, _, _, hjob, hp⟩ := hstart
    obtain ⟨j, hj, hqueued⟩ := executeStart_inHandler cfg.stableHash hp
    obtain ⟨k, hk, hline⟩ := h
    rw [← hjob] at hk
    obtain rfl : j = k := Option.some.inj (hj.symm.trans hk)
    rw [hqueued] at hline
    exact absurd hline (by decide)
  · exact hstart

/-- One event that finalises no open attempt of a job being cancelled as retryable
or lost keeps a cancellation. -/
theorem cancelKept_step {b' : Backend} {ev : Event} (hb : Sound b)
    (hev : ev.KeepsCancelled b) (h : b.store.CancelKept jobId) (hstep : step cfg b ev = some b') :
    b'.store.CancelKept jobId := by
  have hrow : ∀ created : CreatedJob, b.store.OpenCancelling created →
      ∃ j, b.store.jobs.find? created.job.jobId = some j ∧ j.status = .cancelling := by
    rintro created ⟨⟨j, hj, hid, hcan⟩, -⟩
    exact ⟨j, by rw [← hid]; exact Table.find?_of_mem hj, hcan⟩
  have hother : (∀ c, ev.Permits b c → ∀ attemptId token status errorCode refs,
      c.op ≠ .completeAttempt attemptId token status errorCode refs) →
      b'.store.CancelKept jobId := by
    intro hne
    obtain ⟨calls, hcalls, heq⟩ := step_permitted cfg hstep
    rw [heq]
    refine (List.foldlRecOn (motive := fun u => Ledger u ∧ u.CancelKept jobId) calls _
      ⟨hb.ledger, h⟩ fun u hu c hc => ?_).2
    refine ⟨hu.1.perform _ (hcalls c hc).backend.1, cancelKept_perform hu.1 hu.2 ?_⟩
    intro _ _ _ _ _ _ _ hop
    exact absurd hop (hne c (hcalls c hc) _ _ _ _ _)
  cases ev with
  | start | submit | cancel | retry =>
    refine hother ?_
    rintro c rfl _ _ _ _ _ ⟨⟩
  | heartbeat =>
    refine hother ?_
    rintro c ⟨_, _, _, rfl⟩ _ _ _ _ _ ⟨⟩
  | shutdownBegin | shutdownDeadline | shutdownEnd | crash => exact hother fun _ hc => hc.elim
  | beginTask attemptId env =>
    simp only [step] at hstep
    split_ifs at hstep
    obtain ⟨t, ht, rfl⟩ := Option.map_eq_some_iff.mp hstep
    obtain ⟨hmem, hid, -⟩ := mem_of_task? ht
    rw [beginTask, settle_store]
    refine cancelKept_segment cfg.stableHash hb.ledger
      (hb.stored t (List.mem_append_left _ hmem)) h
      ((executeStart_emits _ _ _ _ _).mono fun _ => And.left) ?_
    intro hopen _
    obtain ⟨j, hj, hcan⟩ := hrow t.created hopen
    exact executeStart_cancelling _ hj hcan (hev t hmem hid hopen)
  | finishTask attemptId outcome env =>
    simp only [step] at hstep
    have hsegment : ∀ t ∈ b.tasks ++ b.detached, t.attemptId = attemptId →
        ((executeEnd cfg.stableHash env (b.flagOf attemptId) t.created outcome).runOn
          b.store).2.CancelKept jobId := by
      intro t hmem hid
      refine cancelKept_segment cfg.stableHash hb.ledger (hb.stored t hmem) h
        ((executeEnd_emits _ _ _ _ _).mono fun _ => .inl) ?_
      intro hopen _
      obtain ⟨j, hj, hcan⟩ := hrow t.created hopen
      exact executeEnd_cancelling _ hj hcan (hev t hmem hid hopen)
    split at hstep
    · rename_i t ht
      cases hstep
      obtain ⟨hmem, hid, -⟩ := mem_of_task? ht
      have hflag : b.flagOf attemptId = b.shutdownRequested := by rw [flagOf, ht]
      rw [finishTask, settle_store, ← hflag]
      exact hsegment t (List.mem_append_left _ hmem) hid
    · rename_i hnone
      obtain ⟨t, ht, rfl⟩ := Option.map_eq_some_iff.mp hstep
      obtain ⟨hmem, hid, -⟩ := mem_of_task? ht
      have hflag : b.flagOf attemptId = true := by rw [flagOf, hnone]
      rw [finishDetached, ← hflag]
      exact hsegment t (List.mem_append_right _ hmem) hid
  | shutdownLost attemptId env =>
    simp only [step] at hstep
    split_ifs at hstep
    obtain ⟨t, ht, rfl⟩ := Option.map_eq_some_iff.mp hstep
    have hmem := List.mem_of_find?_eq_some ht
    have hid : t.attemptId = attemptId := by simpa using List.find?_some ht
    rw [shutdownLost_store]
    refine cancelKept_segment cfg.stableHash hb.ledger
      (hb.stored t (List.mem_append_left _ hmem)) h
      (finishSafely_emits _ _ _ _ _ fun _ => .inl ⟨rfl, rfl, fun _ => rfl⟩) ?_
    intro hopen _
    obtain ⟨f, hf⟩ := Option.ne_none_iff_exists'.mp (hev t hmem hid hopen)
    exact ⟨[], by simp, finishSafely_fault _ hf _ _⟩

/-- Along every run under the guard, a job that is being cancelled is only ever
cancelled or failed, and its handler is not called again. -/
def CancellationKept (G : Backend → Event → Prop) : Prop :=
  ∀ (before after : List Event) (b b' : Backend) (jobId : String) (j : JobRecord),
    (machine cfg).Run Machine.Free (boot .empty []) before b →
    b.store.jobs.find? jobId = some j → j.status = .cancelling →
    (machine cfg).Run G b after b' →
      (∃ k, b'.store.jobs.find? jobId = some k ∧
        k.status ∈ [JobStatus.cancelling, .cancelled, .failed]) ∧
      (machine cfg).Run (fun c ev => G c ev ∧ ¬ StartsHandler cfg c ev jobId) b after b'

theorem cancellationKept_of_keepsCancelled :
    CancellationKept cfg fun b ev => ev.KeepsCancelled b := by
  intro before after b b' jobId j hbefore hj hcan hafter
  have hsound : Sound b := Sound.run cfg hbefore sound_boot_empty
  have hkept : b.store.CancelKept jobId := ⟨j, hj, by rw [hcan]; decide⟩
  have hinv : ∀ c ev c', Sound c ∧ c.store.CancelKept jobId → ev.KeepsCancelled c →
      step cfg c ev = some c' → Sound c' ∧ c'.store.CancelKept jobId :=
    fun _ _ _ hc hev hstep => ⟨hc.1.step cfg hstep, cancelKept_step cfg hc.1 hev hc.2 hstep⟩
  refine ⟨(hafter.invariant (fun c => Sound c ∧ c.store.CancelKept jobId) hinv
    ⟨hsound, hkept⟩).2, ?_⟩
  exact hafter.forall_step (fun c => Sound c ∧ c.store.CancelKept jobId)
    (fun c ev => ¬ StartsHandler cfg c ev jobId) hinv
    (fun c ev _ hc _ _ => not_startsHandler cfg hc.2 ev) ⟨hsound, hkept⟩

def cancelledRun : List Event :=
  [.submit sampleSubmission ⟨sampleIds "1", "1", "1", "1"⟩ 1,
    .beginTask "attempt_1" (CallEnv.faultless (sampleIds "2") 2), .cancel "job_1" 3]

def handlerCancelled : Event :=
  .finishTask "attempt_1" (.error .cancelled) (CallEnv.faultless (sampleIds "2") 4)

/-- The handler fails with a `RetryableJobError` before it notices. -/
def handlerRetryable : Event :=
  .finishTask "attempt_1" (.error (.retryable "busy")) (CallEnv.faultless (sampleIds "2") 4)

def statusAfter (evs : List Event) : Option JobStatus :=
  ((machine sampleConfig).exec Machine.Free (boot .empty []) evs).bind fun b =>
    (b.store.jobs.find? "job_1").map JobRecord.status

theorem exists_of_statusAfter (evs : List Event) (status : JobStatus)
    (h : statusAfter evs = some status) :
    ∃ b j, (machine sampleConfig).exec Machine.Free (boot .empty []) evs = some b ∧
      b.store.jobs.find? "job_1" = some j ∧ j.status = status := by
  obtain ⟨b, hb, h⟩ := Option.bind_eq_some_iff.mp h
  obtain ⟨j, hj, h⟩ := Option.map_eq_some_iff.mp h
  exact ⟨b, j, hb, hj, h⟩

theorem cancellationKept_handlerCancelled :
    ∃ b b' k, (machine sampleConfig).Run Machine.Free (boot .empty []) cancelledRun b ∧
      step sampleConfig b handlerCancelled = some b' ∧ b'.store.jobs.find? "job_1" = some k ∧
      k.status ∈ [JobStatus.cancelling, .cancelled, .failed] := by
  obtain ⟨b, j, hb, hj, hcan⟩ := exists_of_statusAfter cancelledRun .cancelling (by decide)
  have hguarded : (((machine sampleConfig).exec Machine.Free (boot .empty []) cancelledRun).bind
      fun b => (machine sampleConfig).exec (fun b ev => ev.KeepsCancelled b) b
        [handlerCancelled]).isSome := by decide
  rw [hb, Option.bind_some] at hguarded
  obtain ⟨b', hb'⟩ := Option.isSome_iff_exists.mp hguarded
  have hrun := Machine.run_of_exec hb'
  obtain ⟨⟨k, hk, hline⟩, -⟩ := cancellationKept_of_keepsCancelled sampleConfig cancelledRun
    [handlerCancelled] b b' "job_1" j (Machine.run_of_exec hb) hj hcan hrun
  cases hrun with
  | cons _ hstep hnil =>
    cases hnil
    exact ⟨b, _, k, Machine.run_of_exec hb, hstep, hk, hline⟩

/-- Without the guard a cancellation is lost: the handler of a cancelled job raises
a `RetryableJobError` and the job is queued again. -/
theorem not_cancellationKept_free : ¬ CancellationKept sampleConfig Machine.Free := by
  intro hkept
  obtain ⟨b, j, hb, hj, hcan⟩ := exists_of_statusAfter cancelledRun .cancelling (by decide)
  obtain ⟨b', k, hb', hk, hqueued⟩ := exists_of_statusAfter
    (cancelledRun ++ [handlerRetryable]) .queued (by decide)
  rw [Machine.exec_append, hb, Option.bind_some] at hb'
  obtain ⟨⟨k', hk', hline⟩, -⟩ := hkept cancelledRun [handlerRetryable] b b' "job_1" j
    (Machine.run_of_exec hb) hj hcan (Machine.run_of_exec hb')
  obtain rfl : k = k' := Option.some.inj (hk.symm.trans hk')
  rw [hqueued] at hline
  exact absurd hline (by decide)

end Backend

end CodeResearch.ControlPlane
