import CodeResearch.ControlPlane.RetryAccounting

/-!
# The dispatch of an attempt inside `_execute`

The segment that starts a task is cut at the write of the status `dispatched`.
What it calls before leaves its attempt undispatched, and ends it for good unless
the store is busy then.
-/
namespace CodeResearch.ControlPlane

section Dispatch

variable (stableHash : String → String)

/-- The text of `_execute` up to the dispatch of the attempt, and whether it is to be
dispatched. -/
def prepareExecution (env : CallEnv) (created : CreatedJob) : Exec JobError Store Bool := do
  let jobId := created.job.jobId
  let job ← call env .getJobStart fun _ => getJob jobId
  if job.status = .cancelling then
    let _ ← call env .completeCancelledStart
      (completeAttempt stableHash created.attempt.attemptId created.executionToken .cancelled
        (some "job_cancelled") none)
    return false
  else
    let _ ← call env .dispatching (transitionJob jobId .dispatching none none)
    let _ ← call env .outboxConsumed (markOutboxConsumedLocal created.outbox.outboxEventId)
    let _ ← call env .dispatched (transitionJob jobId .dispatched none none)
    return true

/-- The text of `_execute` until its attempt is dispatched, and whether it is. -/
def dispatchExecution (env : CallEnv) (created : CreatedJob) : Exec JobError Store Bool := do
  if ← prepareExecution stableHash env created then
    let _ ← call env .attemptDispatched
      (transitionAttempt stableHash created.attempt.attemptId created.executionToken .dispatched
        none none)
    return true
  else return false

/-- The text of `_execute` from the dispatch of its attempt to the call of the handler. -/
def claimExecution (env : CallEnv) (hasHandler : Bool) (created : CreatedJob) :
    Exec JobError Store Bool := do
  let attemptId := created.attempt.attemptId
  let token := created.executionToken
  let _ ← call env .attemptClaimed
    (transitionAttempt stableHash attemptId token .claimed
      (some (stableHash "local-in-process")) none)
  let _ ← call env .attemptRunning
    (transitionAttempt stableHash attemptId token .running none none)
  let _ ← call env .jobRunning (transitionJob created.job.jobId .running none none)
  if hasHandler then return true
  else
    let _ ← call env .completeHandlerMissing
      (completeAttempt stableHash attemptId token .failedTerminal (some "job_handler_missing")
        none)
    return false

theorem beginExecution_eq (env : CallEnv) (hasHandler : Bool) (created : CreatedJob) :
    beginExecution stableHash env hasHandler created = do
      if ← dispatchExecution stableHash env created then
        claimExecution stableHash env hasHandler created
      else return false := by
  unfold beginExecution dispatchExecution prepareExecution claimExecution
  simp only [bind_assoc]
  congr 1
  funext job
  by_cases hcancelling : job.status = .cancelling
  · simp only [hcancelling, if_true, bind_assoc, pure_bind, Bool.false_eq_true, if_false]
  · simp only [hcancelling, if_false, bind_assoc, pure_bind, if_true]

def StoreOp.Preparing (op : StoreOp) : Prop := op.Dispatching ∧ ∀ dispatched, op.Honest dispatched

variable {env : CallEnv} {created : CreatedJob} {s t : Store}

theorem prepareExecution_emits :
    (prepareExecution stableHash env created).Emits (Store.perform stableHash)
      fun c => c.op.Preparing := by
  have hjob : ∀ site target, target ∈ [JobStatus.dispatching, .dispatched, .running] →
      (call env site (transitionJob created.job.jobId target none none)).Emits
        (Store.perform stableHash) fun c => c.op.Preparing := fun site target ht =>
    call_emits (o := .transitionJob created.job.jobId target none none) (fun _ _ => rfl)
      fun _ => ⟨ht, fun _ => trivial⟩
  apply (call_getJob_emits _).bind
  intro job
  split
  · apply (call_emits (o := .completeAttempt created.attempt.attemptId created.executionToken
      .cancelled (some "job_cancelled") none) (fun _ _ => rfl)
      fun _ => ⟨trivial, fun _ => .inr (by decide)⟩).bind
    exact fun _ => Exec.emits_pure _
  · apply (hjob _ _ (by decide)).bind
    intro _
    apply (call_emits (o := .markOutboxConsumedLocal created.outbox.outboxEventId)
      (fun _ _ => rfl) fun _ => ⟨trivial, fun _ => trivial⟩).bind
    intro _
    apply (hjob _ _ (by decide)).bind
    exact fun _ => Exec.emits_pure _

/-- An attempt that is not dispatched has been prepared at most. -/
theorem dispatchExecution_undispatched {r : Except JobError Bool}
    (h : (dispatchExecution stableHash env created).runOn s = (r, t)) (hr : r ≠ .ok true) :
    ∃ calls : List StoreCall, (∀ c ∈ calls, c.op.Preparing) ∧
      t = calls.foldl (Store.perform stableHash) s := by
  have hemits : (prepareExecution stableHash env created).Emits (Store.perform stableHash)
      fun c => c.op.Preparing := prepareExecution_emits stableHash
  obtain ⟨calls, hcalls, hstore⟩ := hemits s
  refine ⟨calls, hcalls, ?_⟩
  rw [← hstore]
  rw [dispatchExecution, Exec.runOn_bind] at h
  rcases hprepare : (prepareExecution stableHash env created).runOn s with ⟨e | started, u⟩
  · rw [hprepare] at h
    cases h
    rfl
  · rw [hprepare] at h
    cases started with
    | false =>
      cases h
      rfl
    | true =>
      simp only [if_true] at h
      rw [Exec.runOn_bind] at h
      rcases hcall : (call env .attemptDispatched (transitionAttempt stableHash
        created.attempt.attemptId created.executionToken .dispatched none none)).runOn u
        with ⟨e | a, v⟩
      · rw [hcall] at h
        cases h
        -- the call raised, and a transition that raises is rolled back
        cases hf : env.fault .attemptDispatched with
        | some f =>
          rw [call_fault hf] at hcall
          cases hcall
          rfl
        | none =>
          rcases transitionAttempt_cases stableHash created.attempt.attemptId created.executionToken
            .dispatched none none (env.clock .attemptDispatched) u with ⟨e', heq⟩ | ⟨a, _, _, _, heq⟩
          · rw [call_error hf heq] at hcall
            cases hcall
            rfl
          · rw [call_ok hf heq] at hcall
            cases hcall
      · rw [hcall] at h
        cases h
        exact absurd rfl hr

def JobError.Lasting (e : JobError) : Prop :=
  e.Classified ∧ (classifyJobError e).1 ≠ .failedRetryable

def CallEnv.DispatchesQuietly (env : CallEnv) : Prop :=
  ∀ site ∈ [Site.getJobStart, .completeCancelledStart, .dispatching, .outboxConsumed, .dispatched,
    .attemptDispatched], ∀ f, env.fault site = some f → f.toError.Lasting

theorem lasting_store {code : String}
    (h : code ∉ ["local_store_busy", "artifact_store_temporarily_unavailable"]) :
    (JobError.store (.controlPlane code)).Lasting := by
  constructor
  · trivial
  · simp only [classifyJobError, if_neg h]
    decide

theorem call_ends_lasting {α : Type} {site : Site}
    {op : Timestamp → Store → Except StoreError α × Store}
    (hfault : ∀ f, env.fault site = some f → f.toError.Lasting)
    (hop : ∀ now s e t, op now s = (.error e, t) → (JobError.store e).Lasting) :
    (call env site op).Ends s (fun _ _ => True) fun e _ => e.Lasting := by
  cases hf : env.fault site with
  | some f => exact Exec.ends_of_error (call_fault hf) (hfault f hf)
  | none =>
    rcases hrun : op (env.clock site) s with ⟨e | a, u⟩
    · exact Exec.ends_of_error (call_error hf hrun) (hop _ _ _ _ hrun)
    · exact Exec.ends_of_ok (call_ok hf hrun) trivial

variable {jobId attemptId token : String} {errorCode : Option String} {now : Timestamp}
  {hasHandler shutdownRequested : Bool}

variable {e : StoreError}

theorem getJob_lasting (h : getJob jobId s = (.error e, t)) : (JobError.store e).Lasting := by
  have hfst := congrArg Prod.fst h
  obtain ⟨-, rfl⟩ := orError_eq_error_iff.mp hfst
  exact lasting_store (by decide)

theorem transitionJob_lasting {target : JobStatus} {expectedRevision : Option ℕ}
    (h : transitionJob jobId target errorCode expectedRevision now s = (.error e, t)) :
    (JobError.store e).Lasting := by
  have hx := (commit_eq_error h).1
  simp only [except_bind_eq_error_iff, ensure_eq_error_iff, orError_eq_error_iff,
    JobRecord.transition, JobRecord.validate] at hx
  rcases hx with ⟨_, rfl⟩ | ⟨j, _, (⟨_, rfl⟩ | ⟨_, _, ⟨_, rfl⟩ | ⟨_, _, hx⟩⟩) | ⟨_, _, hx⟩⟩
  · exact lasting_store (by decide)
  · exact lasting_store (by decide)
  · exact lasting_store (by decide)
  · split_ifs at hx
    cases hx
    exact ⟨trivial, by decide⟩
  · cases hx

theorem transitionAttempt_lasting {target : AttemptStatus} {worker celery : Option String}
    (h : transitionAttempt stableHash attemptId token target worker celery now s = (.error e, t)) :
    (JobError.store e).Lasting := by
  have hx := (commit_eq_error h).1
  simp only [except_bind_eq_error_iff, ensure_eq_error_iff, orError_eq_error_iff,
    authorizedAttempt] at hx
  rcases hx with (⟨_, rfl⟩ | ⟨_, _, ⟨_, rfl⟩ | ⟨_, _, hx⟩⟩) | ⟨_, _, ⟨_, rfl⟩ | ⟨_, _, hx⟩⟩
  · exact lasting_store (by decide)
  · exact lasting_store (by decide)
  · cases hx
  · exact lasting_store (by decide)
  · cases hx

theorem markOutboxConsumedLocal_lasting {eventId : String}
    (h : markOutboxConsumedLocal eventId now s = (.error e, t)) :
    (JobError.store e).Lasting := by
  have hx := (commit_eq_error h).1
  simp only [except_bind_eq_error_iff, orError_eq_error_iff] at hx
  rcases hx with ⟨_, rfl⟩ | ⟨_, _, hx⟩
  · exact lasting_store (by decide)
  · split_ifs at hx
    · cases hx
    · simp only [except_bind_eq_error_iff, ensure_eq_error_iff] at hx
      rcases hx with ⟨_, rfl⟩ | ⟨_, _, hx⟩
      · exact lasting_store (by decide)
      · cases hx

theorem completeAttempt_lasting {status : AttemptStatus} {refs : Option (List String)}
    (h : completeAttempt stableHash attemptId token status errorCode refs now s = (.error e, t)) :
    (JobError.store e).Lasting := by
  have hmem := (completeAttempt_error stableHash h).1
  simp only [completionErrors, List.mem_cons, List.not_mem_nil, or_false] at hmem
  rcases hmem with rfl | rfl | rfl | rfl | rfl | rfl | rfl
  all_goals exact ⟨trivial, by decide⟩

/-- Without a retryable fault the preparation raises no retryable error. -/
theorem dispatchExecution_lasting (hquiet : env.DispatchesQuietly) {e : JobError}
    (h : (dispatchExecution stableHash env created).runOn s = (.error e, t)) : e.Lasting := by
  have hjob : ∀ site ∈ [Site.dispatching, .dispatched], ∀ target u,
      (call env site (transitionJob created.job.jobId target none none)).Ends u
        (fun _ _ => True) fun e _ => e.Lasting := by
    intro site hsite target u
    apply call_ends_lasting (hquiet site (by revert hsite; cases site <;> decide))
    intro now v e w hop
    exact transitionJob_lasting hop
  have hprepare : (prepareExecution stableHash env created).Ends s (fun _ _ => True)
      fun e _ => e.Lasting := by
    apply (call_ends_lasting (hquiet _ (by decide)) fun _ _ _ _ => getJob_lasting).bind
    intro job u _
    split
    · apply (call_ends_lasting (hquiet _ (by decide))
        fun _ _ _ _ => completeAttempt_lasting stableHash).bind
      exact fun _ _ _ => Exec.ends_pure trivial
    · apply (hjob _ (by decide) _ u).bind
      intro _ v _
      apply (call_ends_lasting (hquiet _ (by decide))
        fun _ _ _ _ => markOutboxConsumedLocal_lasting).bind
      intro _ w _
      apply (hjob _ (by decide) _ w).bind
      exact fun _ _ _ => Exec.ends_pure trivial
  have hdispatch : (dispatchExecution stableHash env created).Ends s (fun _ _ => True)
      fun e _ => e.Lasting := by
    apply hprepare.bind
    intro started u _
    split
    · apply (call_ends_lasting (hquiet _ (by decide))
        fun _ _ _ _ => transitionAttempt_lasting stableHash).bind
      exact fun _ _ _ => Exec.ends_pure trivial
    · exact Exec.ends_pure trivial
  rw [Exec.Ends, h] at hdispatch
  exact hdispatch

/-- The first segment spends its attempt after its dispatch, or for good. -/
theorem executeStart_accounted {dispatched : List String}
    (hs : Accounted dispatched s) (hquiet : env.DispatchesQuietly)
    (hdone : ∀ u, (dispatchExecution stableHash env created).runOn s = (.ok true, u) →
      created.attempt.attemptId ∈ dispatched) :
    Accounted dispatched ((executeStart stableHash env hasHandler shutdownRequested
      created).runOn s).2 := by
  have hprepared : ∀ r u, (dispatchExecution stableHash env created).runOn s = (r, u) →
      r ≠ .ok true → Accounted dispatched u := by
    intro r u hrun hr
    obtain ⟨calls, hcalls, rfl⟩ := dispatchExecution_undispatched stableHash hrun hr
    exact List.foldlRecOn calls _ hs fun v hv c hc =>
      hv.perform (hcalls c hc).1 ((hcalls c hc).2 dispatched)
  rcases hdispatch : (dispatchExecution stableHash env created).runOn s with ⟨e | started, u⟩
  · have hu := hprepared _ _ hdispatch (by simp)
    have hlasting := dispatchExecution_lasting stableHash hquiet hdispatch
    have hbegin : (beginExecution stableHash env hasHandler created).runOn s = (.error e, u) := by
      rw [beginExecution_eq]
      exact Exec.runOn_bind_error hdispatch _
    rw [executeStart, Exec.runOn_tryCatch_error (Exec.runOn_bind_error hbegin _),
      handleError_classified _ _ _ _ hlasting.1, if_neg hlasting.2]
    have hterminal := (classifyJobError_status e).resolve_left hlasting.2
    -- what is left of the segment finishes the attempt for good
    have hemits : (finishSafely stableHash env created (classifyJobError e).1
        (classifyJobError e).2).Emits (Store.perform stableHash) fun c => c.op.Preparing := by
      apply finishSafely_emits
      intro now
      exact ⟨trivial, fun _ => .inr (by rw [hterminal]; decide)⟩
    exact ((hemits.bind fun _ => Exec.emits_pure none).bind fun _ =>
      Exec.emits_pure _).invariant (Accounted dispatched)
        (fun v c hv hc => hv.perform hc.1 (hc.2 dispatched)) hu
  · cases started with
    | false =>
      have hu := hprepared _ _ hdispatch (by simp)
      have hbegin : (beginExecution stableHash env hasHandler created).runOn s =
          (.ok false, u) := by
        rw [beginExecution_eq, Exec.runOn_bind_ok hdispatch]
        rfl
      rw [executeStart, Exec.runOn_tryCatch_ok (a := .ended none) (t := u)]
      · exact hu
      · rw [Exec.runOn_bind_ok hbegin]
        rfl
    | true =>
      have hin := hdone u hdispatch
      apply (executeStart_emits stableHash env created hasHandler
        shutdownRequested).invariant (Accounted dispatched) _ hs
      rintro v c hv ⟨hc, -⟩
      apply hv.perform hc.backend.1
      cases hop : c.op <;> rw [hop] at hc
      case completeAttempt =>
        left
        rw [hc.completes]
        exact hin
      case transitionAttempt =>
        rcases hc with hc | hc
        · exact hc.elim
        · exact hc ▸ hin
      case recoverIncompleteJobs => exact hc.elim id id
      all_goals trivial

/-- The handler is called after the dispatch of its attempt. -/
theorem dispatched_of_inHandler
    (h : Progress.ofResult ((executeStart stableHash env hasHandler shutdownRequested
      created).runOn s).1 = .inHandler) :
    ∃ u, (dispatchExecution stableHash env created).runOn s = (.ok true, u) := by
  rw [executeStart, Exec.runOn_tryCatch] at h
  split at h
  · rename_i p t hbody
    simp only [Progress.ofResult] at h
    subst h
    obtain ⟨started, u, hbegin, hbody⟩ := Exec.runOn_bind_eq_ok_iff.mp hbody
    cases started with
    | false => simp at hbody
    | true =>
      rw [beginExecution_eq] at hbegin
      obtain ⟨dispatched, v, hdispatch, hrest⟩ := Exec.runOn_bind_eq_ok_iff.mp hbegin
      cases dispatched with
      | false => simp at hrest
      | true => exact ⟨v, hdispatch⟩
  · rename_i e t hbody
    rw [Exec.runOn_bind] at h
    split at h <;> simp [Progress.ofResult] at h

end Dispatch

end CodeResearch.ControlPlane
