import CodeResearch.ControlPlane.Execution
import CodeResearch.ControlPlane.Fencing

/-!
# What the segments of `_execute` do to the store

A store call either meets its fault, raises by itself, or is performed. Every
segment is a sequence of calls on the rows of its own task.
-/
namespace CodeResearch.ControlPlane

section Call

variable {α : Type} {env : CallEnv} {site : Site}
  {op : Timestamp → Store → Except StoreError α × Store} {s t : Store}

theorem call_fault {f : Fault} (hf : env.fault site = some f) :
    (call env site op).runOn s = (.error f.toError, s) := by
  simp [call, hf]

variable {a : α} {P : StoreCall → Prop} {stableHash : String → String}

theorem call_ok (hf : env.fault site = none) (h : op (env.clock site) s = (.ok a, t)) :
    (call env site op).runOn s = (.ok a, t) := by
  simp [call, hf, h, Except.mapError]

theorem call_error {e : StoreError} (hf : env.fault site = none)
    (h : op (env.clock site) s = (.error e, t)) :
    (call env site op).runOn s = (.error (.store e), t) := by
  simp [call, hf, h, Except.mapError]

/-- A call that returned was performed. -/
theorem call_eq_ok (h : (call env site op).runOn s = (.ok a, t)) :
    env.fault site = none ∧ op (env.clock site) s = (.ok a, t) := by
  cases hf : env.fault site with
  | some f =>
    rw [call_fault hf] at h
    cases h
  | none =>
    refine ⟨rfl, ?_⟩
    rcases hop : op (env.clock site) s with ⟨e | b, u⟩
    · rw [call_error hf hop] at h
      cases h
    · rw [call_ok hf hop] at h
      cases h
      rfl

theorem ends_call {Q : Store → Prop} (hs : Q s)
    (hop : env.fault site = none → Q (op (env.clock site) s).2) :
    (call env site op).Ends s (fun _ t => Q t) fun _ t => Q t := by
  cases hf : env.fault site with
  | some f => exact Exec.ends_of_error (call_fault hf) hs
  | none =>
    have hdone := hop hf
    rcases hrun : op (env.clock site) s with ⟨e | a, t⟩ <;> rw [hrun] at hdone
    · exact Exec.ends_of_error (call_error hf hrun) hdone
    · exact Exec.ends_of_ok (call_ok hf hrun) hdone

theorem call_emits {o : StoreOp}
    (hop : ∀ now s, (op now s).2 = s.perform stableHash ⟨o, now⟩) (ho : ∀ now, P ⟨o, now⟩) :
    (call env site op).Emits (Store.perform stableHash) P := by
  intro s
  cases hf : env.fault site with
  | some f => exact ⟨[], by simp, by rw [call_fault hf]; rfl⟩
  | none => exact ⟨[⟨o, env.clock site⟩], by simp [ho], by simp [call, hf, hop]⟩

theorem getJob_of_find {jobId : String} {j : JobRecord} (hj : s.jobs.find? jobId = some j) :
    getJob jobId s = (.ok j, s) := by
  simp [getJob, hj]

theorem call_getJob_emits (jobId : String) :
    (call env site fun _ => getJob jobId).Emits (Store.perform stableHash) P := by
  intro s
  refine ⟨[], by simp, ?_⟩
  cases hf : env.fault site with
  | some f => rw [call_fault hf]; rfl
  | none => simp [call, hf, getJob]

end Call

def StoreOp.Finalising (op : StoreOp) (created : CreatedJob) : Prop :=
  match op with
  | .completeAttempt attemptId token status _ refs =>
    attemptId = created.attempt.attemptId ∧ token = created.executionToken ∧
      (status ≠ .succeeded → refs = none)
  | .createRetryAttempt _ _ => True
  | _ => False

def StoreOp.Unsuccessful : StoreOp → Prop
  | .completeAttempt _ _ status _ _ => status ≠ .succeeded
  | _ => True

def StoreOp.OfTask (op : StoreOp) (created : CreatedJob) : Prop :=
  op.Finalising created ∨
  match op with
  | .transitionJob jobId target _ _ =>
    jobId = created.job.jobId ∧ target ∈ [JobStatus.dispatching, .dispatched, .running]
  | .markOutboxConsumedLocal eventId => eventId = created.outbox.outboxEventId
  | .transitionAttempt attemptId _ _ _ _ => attemptId = created.attempt.attemptId
  | _ => False

variable {created : CreatedJob} {swallows : JobError → Bool}

theorem StoreOp.OfTask.backend {op : StoreOp} (h : op.OfTask created) : op.Backend := by
  rcases h with h | h <;> cases op <;>
    simp_all [StoreOp.Finalising, StoreOp.Backend, StoreOp.Dispatching]

theorem StoreOp.OfTask.completes {attemptId token : String} {status : AttemptStatus}
    {errorCode : Option String} {refs : Option (List String)}
    (h : (StoreOp.completeAttempt attemptId token status errorCode refs).OfTask created) :
    attemptId = created.attempt.attemptId := by
  rcases h with h | h
  · exact h.1
  · exact h.elim

section Emits

variable (stableHash : String → String) {P : StoreCall → Prop} (env : CallEnv)
  (created : CreatedJob)

theorem finishSafely_emits (status : AttemptStatus) (errorCode : String)
    (hP : ∀ now, P ⟨.completeAttempt created.attempt.attemptId created.executionToken status
      (some errorCode) none, now⟩) :
    (finishSafely stableHash env created status errorCode).Emits (Store.perform stableHash) P := by
  refine Exec.Emits.tryCatch ?_ fun e => ?_
  · exact (call_emits (fun _ _ => rfl) hP).bind fun _ => Exec.emits_pure _
  · split
    · split_ifs
      · exact Exec.emits_pure _
      · exact Exec.emits_throw _
    · exact Exec.emits_throw _

theorem failRetryably_emits {errorCode : String}
    (hP : ∀ now, P ⟨.completeAttempt created.attempt.attemptId created.executionToken
      .failedRetryable (some errorCode) none, now⟩)
    (hR : ∀ jobId now, P ⟨.createRetryAttempt jobId env.ids, now⟩) :
    (failRetryably stableHash env created errorCode swallows).Emits (Store.perform stableHash)
      P := by
  refine (call_emits (fun _ _ => rfl) hP).bind fun ⟨_, job⟩ => ?_
  have hretry : (call env .createRetry (createRetryAttempt stableHash job.jobId env.ids)).Emits
      (Store.perform stableHash) P :=
    call_emits (o := .createRetryAttempt job.jobId env.ids) (fun _ _ => rfl) (hR job.jobId)
  dsimp only
  split
  · exact hretry.bind fun _ => Exec.emits_pure _
  · refine Exec.Emits.bind (Exec.Emits.tryCatch (hretry.bind fun _ => Exec.emits_pure _)
      fun e => ?_) fun _ => Exec.emits_pure _
    split_ifs
    · exact Exec.emits_pure _
    · exact Exec.emits_throw _

theorem classifyJobError_status (e : JobError) :
    (classifyJobError e).1 = .failedRetryable ∨ (classifyJobError e).1 = .failedTerminal := by
  unfold classifyJobError
  split
  · dsimp only
    split_ifs <;> simp
  · exact .inr rfl
  · exact .inr rfl
  · exact .inl rfl
  · split
    · exact .inr rfl
    · split_ifs <;> exact .inr rfl

/-- The error branches only finalise the attempt, without success, and ask for its retry. -/
theorem handleError_emits (shutdownRequested : Bool) (e : JobError) :
    (handleError stableHash env shutdownRequested created e).Emits (Store.perform stableHash)
      fun c => c.op.Finalising created ∧ c.op.Unsuccessful := by
  have hsafe : ∀ status code, status ≠ .succeeded → ((do
      finishSafely stableHash env created status code
      return none : Exec JobError Store (Option CreatedJob))).Emits (Store.perform stableHash)
      fun c => c.op.Finalising created ∧ c.op.Unsuccessful := by
    intro status code hstatus
    apply (finishSafely_emits stableHash env created status code _).bind fun _ => Exec.emits_pure _
    exact fun _ => ⟨⟨rfl, rfl, fun _ => rfl⟩, hstatus⟩
  have hretry : ∀ code swallows, (failRetryably stableHash env created code swallows).Emits
      (Store.perform stableHash) fun c => c.op.Finalising created ∧ c.op.Unsuccessful := by
    intro code swallows
    apply failRetryably_emits stableHash env created
    · exact fun _ => ⟨⟨rfl, rfl, fun _ => rfl⟩, AttemptStatus.noConfusion⟩
    · exact fun _ _ => ⟨trivial, trivial⟩
  unfold handleError
  split
  · exact hsafe _ _ (by decide)
  · exact hsafe _ _ (by split_ifs <;> decide)
  · exact hretry _ _
  · split_ifs with hretryable
    · exact hretry _ _
    · apply hsafe
      rw [(classifyJobError_status _).resolve_left hretryable]
      decide

theorem beginExecution_emits (hasHandler : Bool) :
    (beginExecution stableHash env hasHandler created).Emits (Store.perform stableHash)
      fun c => c.op.OfTask created ∧ c.op.Unsuccessful := by
  have hjob : ∀ site target, target ∈ [JobStatus.dispatching, .dispatched, .running] →
      (call env site (transitionJob created.job.jobId target none none)).Emits
        (Store.perform stableHash) fun c => c.op.OfTask created ∧ c.op.Unsuccessful :=
    fun site target ht =>
      call_emits (o := .transitionJob created.job.jobId target none none) (fun _ _ => rfl)
        fun _ => ⟨.inr ⟨rfl, ht⟩, trivial⟩
  have hattempt : ∀ site target worker,
      (call env site (transitionAttempt stableHash created.attempt.attemptId
        created.executionToken target worker none)).Emits (Store.perform stableHash)
        fun c => c.op.OfTask created ∧ c.op.Unsuccessful := fun site target worker =>
    call_emits (o := .transitionAttempt created.attempt.attemptId created.executionToken target
      worker none) (fun _ _ => rfl) fun _ => ⟨.inr rfl, trivial⟩
  have hdone : ∀ site status code, status ≠ .succeeded → (call env site (completeAttempt stableHash
      created.attempt.attemptId created.executionToken status code none)).Emits
        (Store.perform stableHash) fun c => c.op.OfTask created ∧ c.op.Unsuccessful :=
    fun site status code hstatus =>
      call_emits (o := .completeAttempt created.attempt.attemptId created.executionToken status
        code none) (fun _ _ => rfl) fun _ => ⟨.inl ⟨rfl, rfl, fun _ => rfl⟩, hstatus⟩
  refine (call_getJob_emits _).bind fun job => ?_
  split
  · exact (hdone _ _ _ (by decide)).bind fun _ => Exec.emits_pure _
  · refine (hjob _ _ (by decide)).bind fun _ => ?_
    refine (call_emits (o := .markOutboxConsumedLocal created.outbox.outboxEventId)
      (fun _ _ => rfl) fun _ => ⟨.inr rfl, trivial⟩).bind fun _ => ?_
    refine (hjob _ _ (by decide)).bind fun _ => ?_
    refine (hattempt _ _ _).bind fun _ => (hattempt _ _ _).bind fun _ =>
      (hattempt _ _ _).bind fun _ => ?_
    refine (hjob _ _ (by decide)).bind fun _ => ?_
    split
    · exact Exec.emits_pure _
    · exact (hdone _ _ _ (by decide)).bind fun _ => Exec.emits_pure _

theorem completeExecution_emits (outcome : Except JobError (List String)) :
    (completeExecution stableHash env created outcome).Emits (Store.perform stableHash)
      fun c => c.op.Finalising created := by
  cases outcome with
  | error e => exact Exec.emits_throw e
  | ok refs =>
    refine (call_getJob_emits _).bind fun job => ?_
    split
    · exact (call_emits (o := .completeAttempt created.attempt.attemptId created.executionToken
        .cancelled (some "job_cancelled") none) (fun _ _ => rfl)
        fun _ => ⟨rfl, rfl, fun _ => rfl⟩).bind fun _ => Exec.emits_pure _
    · exact (call_emits (o := .completeAttempt created.attempt.attemptId created.executionToken
        .succeeded none (some refs)) (fun _ _ => rfl)
        fun _ => ⟨rfl, rfl, fun h => absurd rfl h⟩).bind fun _ => Exec.emits_pure _

theorem executeStart_emits (hasHandler shutdownRequested : Bool) :
    (executeStart stableHash env hasHandler shutdownRequested created).Emits
      (Store.perform stableHash) fun c => c.op.OfTask created ∧ c.op.Unsuccessful := by
  refine Exec.Emits.tryCatch ?_ fun e => ?_
  · refine (beginExecution_emits stableHash env created hasHandler).bind fun started => ?_
    split_ifs <;> exact Exec.emits_pure _
  · exact ((handleError_emits stableHash env created shutdownRequested e).mono
      fun _ h => ⟨.inl h.1, h.2⟩).bind fun _ => Exec.emits_pure _

theorem executeEnd_emits (shutdownRequested : Bool) (outcome : Except JobError (List String)) :
    (executeEnd stableHash env shutdownRequested created outcome).Emits
      (Store.perform stableHash) fun c => c.op.Finalising created := by
  refine Exec.Emits.tryCatch ?_ fun e => ?_
  · exact (completeExecution_emits stableHash env created outcome).bind
      fun _ => Exec.emits_pure _
  · exact ((handleError_emits stableHash env created shutdownRequested e).mono
      fun _ => And.left).bind fun _ => Exec.emits_pure _

end Emits

/-- The errors that reach `classify_job_error`. -/
def JobError.Classified : JobError → Prop
  | .shutdownRequested | .cancelled | .retryable _ => False
  | _ => True

theorem handleError_classified (stableHash : String → String) (env : CallEnv)
    (shutdownRequested : Bool) (created : CreatedJob) {e : JobError} (he : e.Classified) :
    handleError stableHash env shutdownRequested created e =
      if (classifyJobError e).1 = .failedRetryable then
        failRetryably stableHash env created (classifyJobError e).2 JobError.isControlPlane
      else do
        finishSafely stableHash env created (classifyJobError e).1 (classifyJobError e).2
        return none := by
  cases e <;> first | rfl | exact he.elim

section Retry

variable (stableHash : String → String) {env : CallEnv} {created retry : CreatedJob} {s t : Store}

/-- The attempt that a segment hands to `_schedule` was created by its last call. -/
theorem failRetryably_some {errorCode : String}
    (h : (failRetryably stableHash env created errorCode swallows).runOn s =
      (.ok (some retry), t)) :
    ∃ jobId u, createRetryAttempt stableHash jobId env.ids (env.clock .createRetry) u =
      (.ok retry, t) := by
  obtain ⟨⟨a, job⟩, u, -, h⟩ := Exec.runOn_bind_eq_ok_iff.mp h
  dsimp only at h
  split at h
  · obtain ⟨c, v, hcall, h⟩ := Exec.runOn_bind_eq_ok_iff.mp h
    simp only [Exec.runOn_pure, Prod.mk.injEq, Except.ok.injEq, Option.some.injEq] at h
    obtain ⟨rfl, rfl⟩ := h
    exact ⟨job.jobId, u, (call_eq_ok hcall).2⟩
  · obtain ⟨_, _, -, h⟩ := Exec.runOn_bind_eq_ok_iff.mp h
    simp at h

variable {shutdownRequested : Bool}

theorem handleError_some {e : JobError}
    (h : (handleError stableHash env shutdownRequested created e).runOn s =
      (.ok (some retry), t)) :
    ∃ jobId u, createRetryAttempt stableHash jobId env.ids (env.clock .createRetry) u =
      (.ok retry, t) := by
  have hnone : ∀ status code, ((do
      finishSafely stableHash env created status code
      return none : Exec JobError Store (Option CreatedJob))).runOn s ≠ (.ok (some retry), t) := by
    intro status code h
    obtain ⟨_, _, -, h⟩ := Exec.runOn_bind_eq_ok_iff.mp h
    simp at h
  unfold handleError at h
  split at h
  · exact absurd h (hnone _ _)
  · exact absurd h (hnone _ _)
  · exact failRetryably_some stableHash h
  · split at h
    · exact failRetryably_some stableHash h
    · exact absurd h (hnone _ _)

theorem executeStart_some {hasHandler : Bool}
    (h : (executeStart stableHash env hasHandler shutdownRequested created).runOn s =
      (.ok (.ended (some retry)), t)) :
    ∃ jobId u, createRetryAttempt stableHash jobId env.ids (env.clock .createRetry) u =
      (.ok retry, t) := by
  rw [executeStart, Exec.runOn_tryCatch] at h
  split at h
  · rename_i hbody
    obtain ⟨started, u, -, hbody⟩ := Exec.runOn_bind_eq_ok_iff.mp hbody
    cases h
    cases started <;> simp at hbody
  · obtain ⟨r, u, hrun, h⟩ := Exec.runOn_bind_eq_ok_iff.mp h
    simp only [Exec.runOn_pure, Prod.mk.injEq, Except.ok.injEq, Progress.ended.injEq] at h
    obtain ⟨rfl, rfl⟩ := h
    exact handleError_some stableHash hrun

theorem executeEnd_some {outcome : Except JobError (List String)}
    (h : (executeEnd stableHash env shutdownRequested created outcome).runOn s =
      (.ok (.ended (some retry)), t)) :
    ∃ jobId u, createRetryAttempt stableHash jobId env.ids (env.clock .createRetry) u =
      (.ok retry, t) := by
  rw [executeEnd, Exec.runOn_tryCatch] at h
  split at h
  · rename_i hbody
    obtain ⟨_, u, -, hbody⟩ := Exec.runOn_bind_eq_ok_iff.mp hbody
    cases h
    simp at hbody
  · obtain ⟨r, u, hrun, h⟩ := Exec.runOn_bind_eq_ok_iff.mp h
    simp only [Exec.runOn_pure, Prod.mk.injEq, Except.ok.injEq, Progress.ended.injEq] at h
    obtain ⟨rfl, rfl⟩ := h
    exact handleError_some stableHash hrun

theorem executeEnd_ended (env : CallEnv) (created : CreatedJob) (shutdownRequested : Bool)
    (outcome : Except JobError (List String)) (s : Store) :
    ∃ r, Progress.ofResult ((executeEnd stableHash env shutdownRequested created outcome).runOn
      s).1 = .ended r := by
  rw [executeEnd, Exec.runOn_tryCatch, Exec.runOn_bind]
  rcases (completeExecution stableHash env created outcome).runOn s with ⟨e | _, t⟩
  · simp only [Exec.runOn_bind]
    rcases (handleError stableHash env shutdownRequested created e).runOn t with ⟨_ | r, u⟩
    · exact ⟨none, rfl⟩
    · exact ⟨r, rfl⟩
  · exact ⟨none, rfl⟩

end Retry

section Calls

variable {env : CallEnv} {s : Store} {α β : Type} {site : Site} {op : Timestamp → Store → Except StoreError α × Store}
  {k : α → Exec JobError Store β} {Q : β → Store → Prop} {R : JobError → Store → Prop}

theorem ends_call_bind (hfault : ∀ f, env.fault site = some f → R f.toError s)
    (hok : env.fault site = none →
      ∃ a t, op (env.clock site) s = (.ok a, t) ∧ (k a).Ends t Q R) :
    (call env site op >>= k).Ends s Q R := by
  cases hf : env.fault site with
  | some f => exact Exec.ends_of_error (Exec.runOn_bind_error (call_fault hf) k) (hfault f hf)
  | none =>
    obtain ⟨a, t, hop, hk⟩ := hok hf
    rw [Exec.Ends, Exec.runOn_bind_ok (call_ok hf hop)]
    exact hk

end Calls

end CodeResearch.ControlPlane
