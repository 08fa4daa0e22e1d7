import CodeResearch.ControlPlane.BackendInvariant

/-!
# What the attempts of a dead job were spent on

An attempt is spent when its job moves on to the next one or dies. It is spent
honestly if it was dispatched before. A restart also spends attempts that still
wait in the queue, and so do a shutdown that gives up on them and a store that is
busy before the dispatch.
-/
namespace CodeResearch.ControlPlane

/-- The attempts outside of `dispatched` wait, unless their job has ended otherwise than
for lack of attempts. -/
def Unspent (dispatched : List String) (s : Store) : Prop :=
  ∀ a ∈ s.attempts.rows, a.attemptId ∉ dispatched → a.status = .created ∨
    ∃ j, s.jobs.find? a.jobId = some j ∧ j.status.Terminal ∧ j.status ≠ .dead

structure Accounted (dispatched : List String) (s : Store) : Prop where
  ledger : Ledger s
  unspent : Unspent dispatched s
  dead : ∀ j ∈ s.jobs.rows, j.status = .dead → j.currentAttemptNumber = j.maxAttempts

def JobStatus.Exhausting (j : JobStatus) : Prop := j ∈ [retryWait, dead]

instance (j : JobStatus) : Decidable j.Exhausting := inferInstanceAs (Decidable (_ ∈ _))

theorem JobStatus.Exhausting.atRest {j : JobStatus} (h : j.Exhausting) : j.AtRest := by
  revert h
  cases j <;> decide

variable {j : JobRecord}

theorem Unspent.dispatched {dispatched : List String} {s : Store} (h : Unspent dispatched s)
    (hl : Ledger s) (hj : s.jobs.find? j.jobId = some j) (hstatus : j.status.Exhausting)
    {a : JobAttempt} (ha : a ∈ s.attempts.rows) (hown : a.jobId = j.jobId) :
    a.attemptId ∈ dispatched := by
  by_contra hnot
  rcases h a ha hnot with hcreated | ⟨k, hk, hterm, hdead⟩
  · have hlive : ¬ a.status.Final := by
      rw [hcreated]
      decide
    exact (hl.live j (Table.find?_mem hj) a ha hown hlive).2 hstatus.atRest
  · rw [hown, hj, Option.some.injEq] at hk
    subst hk
    revert hstatus hterm hdead
    cases j.status <;> decide

section Writes

variable {dispatched : List String} {s : Store}

/-- Rewriting a job keeps the account if the undispatched attempts of the job wait, or
the job ends otherwise than for lack of attempts. -/
theorem Unspent.updateJob (h : Unspent dispatched s) (new : JobRecord) {old : JobRecord}
    (hold : s.jobs.find? new.jobId = some old)
    (hw : ∀ a ∈ s.attempts.rows, a.jobId = new.jobId → a.attemptId ∉ dispatched →
      a.status = .created ∨ new.status.Terminal ∧ new.status ≠ .dead) :
    Unspent dispatched (s.updateJob new) := by
  intro a ha hnot
  by_cases hown : a.jobId = new.jobId
  · rcases hw a ha hown hnot with hcreated | hended
    · exact .inl hcreated
    · refine .inr ⟨new, ?_, hended⟩
      rw [Store.updateJob_jobs, hown]
      exact Table.find?_replace_self (by rw [hold]; rfl)
  · rcases h a ha hnot with hcreated | ⟨j, hj, hended⟩
    · exact .inl hcreated
    · refine .inr ⟨j, ?_, hended⟩
      rwa [Store.updateJob_jobs, Table.find?_replace_of_ne _ hown]

variable {a b : JobAttempt} {now : Timestamp} {t : Store} {job : JobRecord}

theorem Unspent.created (h : Unspent dispatched s) (hj : s.jobs.find? j.jobId = some j)
    (hlive : ¬ j.status.Terminal) (ha : a ∈ s.attempts.rows) (hown : a.jobId = j.jobId)
    (hnot : a.attemptId ∉ dispatched) :
    a.status = .created := by
  rcases h a ha hnot with hcreated | ⟨k, hk, hterm, _⟩
  · exact hcreated
  · rw [hown, hj, Option.some.injEq] at hk
    subst hk
    exact absurd hterm hlive

theorem Unspent.updateLive (h : Unspent dispatched s) (new : JobRecord) {old : JobRecord}
    (hold : s.jobs.find? old.jobId = some old) (hid : new.jobId = old.jobId)
    (hlive : ¬ old.status.Terminal) : Unspent dispatched (s.updateJob new) := by
  apply h.updateJob new (hid ▸ hold)
  intro a ha hown hnot
  exact .inl (h.created hold hlive ha (hown.trans hid) hnot)

theorem Unspent.updateAttempt (h : Unspent dispatched s) (new : JobAttempt) {old : JobAttempt}
    (hold : s.attempts.find? new.attemptId = some old) (hjob : new.jobId = old.jobId)
    (hw : new.attemptId ∉ dispatched → new.status = old.status) :
    Unspent dispatched (s.updateAttempt new) := by
  have hsome : (s.attempts.find? new.attemptId).isSome := by rw [hold]; rfl
  intro a ha hnot
  rcases (Table.mem_replace hsome a).mp ha with rfl | ⟨ha, _⟩
  · have hid : old.attemptId = a.attemptId := Table.find?_key hold
    rw [hw hnot, hjob]
    exact h old (Table.find?_mem hold) (by rwa [hid])
  · exact h a ha hnot

variable {stableHash : String → String} {ids : AttemptIds} {c : Option CreatedJob}

theorem Unspent.add (h : Unspent dispatched s) {queued : JobRecord}
    (hadd : Added stableHash queued ids now s t)
    (hw : ∀ a ∈ s.attempts.rows, a.jobId = queued.jobId → a.attemptId ∈ dispatched) :
    Unspent dispatched t := by
  intro a ha hnot
  rcases (Table.mem_insert hadd.attempts a).mp ha with ha | rfl
  · have hown : a.jobId ≠ queued.jobId := fun hown => hnot (hw a ha hown)
    rcases h a ha hnot with hcreated | ⟨j, hj, hended⟩
    · exact .inl hcreated
    · refine .inr ⟨j, ?_, hended⟩
      rwa [hadd.jobs, Table.find?_replace_of_ne _ hown]
  · exact .inl rfl

theorem Unspent.insert (h : Unspent dispatched s) {sub : JobSubmission} {ids : JobIds}
    (hins : Inserted stableHash sub ids now s t) : Unspent dispatched t := by
  intro a ha hnot
  rcases (Table.mem_insert hins.attempts a).mp ha with ha | rfl
  · rcases h a ha hnot with hcreated | ⟨j, hj, hended⟩
    · exact .inl hcreated
    · exact .inr ⟨j, Table.find?_insert_of_some hins.jobs hj, hended⟩
  · exact .inl rfl

theorem Unspent.createJob (h : Unspent dispatched s) (sub : JobSubmission) (ids : JobIds)
    (now : Timestamp) : Unspent dispatched (createJob stableHash sub ids now s).2 := by
  rcases createJob_cases stableHash sub ids now s with heq | ⟨c, t, hins, heq⟩ <;> rw [heq]
  · exact h
  · exact h.insert (insertNewJob_ok stableHash hins).1

/-- A completion of an attempt that was dispatched, or one that ends its job otherwise
than for lack of attempts. -/
theorem Unspent.completeAttempt (h : Unspent dispatched s) (hl : Ledger s)
    {attemptId token : String} {status : AttemptStatus} {errorCode : Option String}
    {refs : Option (List String)}
    (done : Completion stableHash s attemptId token status errorCode refs now a j)
    (hw : attemptId ∈ dispatched ∨ status ∉ [.failedRetryable, .lost]) :
    Unspent dispatched (s.completed status errorCode refs now a j) := by
  have hid : a.attemptId = attemptId := Table.find?_key done.attempt
  have ha := Table.find?_mem done.attempt
  have hj := Table.find?_mem done.job
  have hjob : j.jobId = a.jobId := Table.find?_key done.job
  have hsome : (s.attempts.find? (a.complete status errorCode now).attemptId).isSome := by
    rw [show (a.complete status errorCode now).attemptId = attemptId from hid, done.attempt]
    rfl
  have hsomej : (s.jobs.find? (j.complete status errorCode refs now).jobId).isSome := by
    rw [show (j.complete status errorCode refs now).jobId = a.jobId from hjob, done.job]
    rfl
  obtain ⟨hnum, hrest⟩ := hl.live j hj a ha hjob.symm (not_final_of_completable done.completable)
  intro b hb hnot
  by_cases hown : b.jobId = j.jobId
  · rcases hw with hdispatched | hstatus
    · -- another undispatched attempt of the job would wait, as the current one
      have hold : b ∈ s.attempts.rows := by
        rcases (Table.mem_replace hsome b).mp hb with rfl | ⟨hb, _⟩
        · exact absurd (show (a.complete status errorCode now).attemptId ∈ dispatched by
            rwa [← hid] at hdispatched) hnot
        · exact hb
      left
      exact h.created (Table.find?_of_mem hj) (fun ht => hrest (.inl ht)) hold hown hnot
    · refine .inr ⟨j.complete status errorCode refs now, ?_, ?_⟩
      · rw [hown]
        exact Table.find?_replace_self hsomej
      · have haccepted := done.accepted
        revert haccepted hstatus
        simp only [JobRecord.complete]
        cases status <;> decide
  · have hold : b ∈ s.attempts.rows := by
      rcases (Table.mem_replace hsome b).mp hb with rfl | ⟨hb, _⟩
      · exact absurd hjob.symm hown
      · exact hb
    rcases h b hold hnot with hcreated | ⟨k, hk, hended⟩
    · exact .inl hcreated
    · refine .inr ⟨k, ?_, hended⟩
      have hne : b.jobId ≠ (j.complete status errorCode refs now).jobId := hown
      rw [Store.completed, Store.updateJob_jobs, Table.find?_replace_of_ne _ hne]
      exact hk

theorem mem_closeAttempt (ha : a ∈ s.attempts.rows) : b ∈ (s.closeAttempt a now).attempts.rows ↔
      b = a.supersede now ∨ b ∈ s.attempts.rows ∧ b.attemptId ≠ a.attemptId := by
  rw [Store.closeAttempt_attempts, Table.mem_replace]
  · rw [JobAttempt.supersede_attemptId]
  · rw [JobAttempt.supersede_attemptId, Table.find?_of_mem ha]
    rfl

theorem mem_of_closeAttempt {jobId : String} {n : ℕ}
    (ha : s.getAttemptIn jobId n = some a) (hb : b ∈ (s.closeAttempt a now).attempts.rows)
    (hne : b.jobId ≠ jobId) : b ∈ s.attempts.rows := by
  obtain ⟨hmem, hown, _⟩ := getAttemptIn_some ha
  rcases (mem_closeAttempt hmem).mp hb with rfl | ⟨hb, _⟩
  · exact absurd ((a.supersede_jobId now).trans hown) hne
  · exact hb

def NoneQueued (s : Store) (j : JobRecord) : Prop :=
  ¬ j.status.Terminal → j.status ≠ .cancelling → ∀ a ∈ s.attempts.rows, a.jobId = j.jobId →
    a.attemptNumber = j.currentAttemptNumber → a.status ≠ .created

theorem Unspent.recoverJob (h : Unspent dispatched s) (hl : Ledger s)
    (hjob : s.jobs.find? job.jobId = some job) (hlive : ¬ job.status.Terminal)
    (hqueued : NoneQueued s job)
    (hrec : ControlPlane.recoverJob stableHash ids now job s = .ok (c, t)) :
    Unspent dispatched t := by
  obtain ⟨a, ha, hrec⟩ := recoverJob_ok stableHash hrec
  obtain ⟨hmem, hown, hnum⟩ := getAttemptIn_some ha
  -- the rows of the other jobs keep their account
  have hfar : ∀ new : JobRecord, new.jobId = job.jobId → ∀ b ∈ (s.closeAttempt a now).attempts.rows,
      b.jobId ≠ job.jobId → b.attemptId ∉ dispatched → b.status = .created ∨
        ∃ j, (s.jobs.replace new).find? b.jobId = some j ∧ j.status.Terminal ∧ j.status ≠ .dead := by
    intro new hid b hb hne hnot
    rcases h b (mem_of_closeAttempt ha hb hne) hnot with hcreated | ⟨j, hj, hended⟩
    · exact .inl hcreated
    · refine .inr ⟨j, ?_, hended⟩
      rwa [Table.find?_replace_of_ne _ (by rwa [hid])]
  -- a job that goes on has spent dispatched attempts only
  have hspent : job.status ≠ .cancelling → ∀ b ∈ (s.closeAttempt a now).attempts.rows,
      b.jobId = job.jobId → b.attemptId ∈ dispatched := by
    intro hkept b hb hb'
    obtain ⟨o, ho, hoid, hoown⟩ : ∃ o ∈ s.attempts.rows, o.attemptId = b.attemptId ∧
        o.jobId = job.jobId := by
      rcases (mem_closeAttempt hmem).mp hb with rfl | ⟨hb, _⟩
      · exact ⟨a, hmem, (a.supersede_attemptId now).symm, hown⟩
      · exact ⟨b, hb, rfl, hb'⟩
    rw [← hoid]
    by_contra hnot
    have hcreated := h.created hjob hlive ho hoown hnot
    have hfinal : ¬ o.status.Final := by
      rw [hcreated]
      decide
    have hcur := (hl.live job (Table.find?_mem hjob) o ho hoown hfinal).1
    exact hqueued hlive hkept o ho hoown hcur hcreated
  cases hrec with
  | cancelled _ =>
    intro b hb hnot
    rw [Store.updateJob_jobs, Store.closeAttempt_jobs]
    by_cases hb' : b.jobId = job.jobId
    · refine .inr ⟨job.cancelOnRestart now, ?_, (by decide : JobStatus.Terminal .cancelled),
        by simp [JobRecord.cancelOnRestart]⟩
      rw [hb']
      exact Table.find?_replace_of_key (r := job.cancelOnRestart now) rfl (by rw [hjob]; rfl)
    · exact hfar (job.cancelOnRestart now) rfl b hb hb' hnot
  | exhausted hkept _ =>
    intro b hb hnot
    rw [Store.updateJob_jobs, Store.closeAttempt_jobs]
    by_cases hb' : b.jobId = job.jobId
    · exact absurd (hspent hkept b hb hb') hnot
    · exact hfar (job.exhaustOnRestart now) rfl b hb hb' hnot
  | requeued hkept _ hadd =>
    have hadded := (addAttempt_ok stableHash hadd).1
    intro b hb hnot
    rw [hadded.jobs, Store.closeAttempt_jobs]
    rcases (Table.mem_insert hadded.attempts b).mp hb with hb | rfl
    · by_cases hb' : b.jobId = job.jobId
      · exact absurd (hspent hkept b hb hb') hnot
      · exact hfar (job.requeueOnRestart now) rfl b hb hb' hnot
    · exact .inl rfl

/-- A recovery rewrites the row of its job. -/
theorem recoverJob_row (hjob : s.jobs.find? job.jobId = some job)
    (hrec : recoverJob stableHash ids now job s = .ok (c, t)) :
    ∃ k, t.jobs.find? job.jobId = some k ∧ k.revision = job.revision + 1 := by
  have hsome : (s.jobs.find? job.jobId).isSome := by rw [hjob]; rfl
  obtain ⟨a, _, hrec⟩ := recoverJob_ok stableHash hrec
  cases hrec with
  | cancelled _ =>
    rw [Store.updateJob_jobs, Store.closeAttempt_jobs]
    exact ⟨_, Table.find?_replace_of_key (r := job.cancelOnRestart now) rfl hsome, rfl⟩
  | exhausted _ _ =>
    rw [Store.updateJob_jobs, Store.closeAttempt_jobs]
    exact ⟨_, Table.find?_replace_of_key (r := job.exhaustOnRestart now) rfl hsome, rfl⟩
  | requeued _ _ hadd =>
    rw [(addAttempt_ok stableHash hadd).1.jobs, Store.closeAttempt_jobs]
    exact ⟨_, Table.find?_replace_of_key (r := job.requeueOnRestart now) rfl hsome, rfl⟩

theorem recoverJob_attempts_of_ne (hrec : recoverJob stableHash ids now job s = .ok (c, t))
    (hb : b ∈ t.attempts.rows) (hne : b.jobId ≠ job.jobId) :
    b ∈ s.attempts.rows := by
  obtain ⟨a, ha, hrec⟩ := recoverJob_ok stableHash hrec
  cases hrec with
  | cancelled | exhausted => exact mem_of_closeAttempt ha hb hne
  | requeued _ _ hadd =>
    rcases (Table.mem_insert (addAttempt_ok stableHash hadd).1.attempts b).mp hb with hb | rfl
    · exact mem_of_closeAttempt ha hb hne
    · exact absurd rfl hne

/-- A restart that finds no undispatched attempt keeps the account. -/
theorem Unspent.recoverIncompleteJobs (h : Unspent dispatched s) (hl : Ledger s)
    (hqueued : ∀ j ∈ s.jobs.rows, NoneQueued s j) (fresh : String → AttemptIds)
    (now : Timestamp) :
    Unspent dispatched (ControlPlane.recoverIncompleteJobs stableHash fresh now s).2 := by
  refine (recoverIncompleteJobs_rule stableHash (P := fun u => Ledger u ∧ Unspent dispatched u ∧
    ∀ j, s.jobs.find? j.jobId = some j → u.jobs.find? j.jobId = some j → NoneQueued u j) ?_
    ⟨hl, h, fun j hj _ => hqueued j (Table.find?_mem hj)⟩).2.1
  rintro job u c t ⟨hul, hu, hq⟩ hs hjob hlive hrec
  refine ⟨hul.recoverJob stableHash hjob hrec,
    hu.recoverJob hul hjob hlive (hq job hs hjob) hrec, ?_⟩
  intro j hjs hjt
  by_cases hid : j.jobId = job.jobId
  · obtain ⟨k, hk, hrev⟩ := recoverJob_row hjob hrec
    rw [hid, hs, Option.some.injEq] at hjs
    rw [hid, hk, Option.some.injEq] at hjt
    rw [hjt, hjs] at hrev
    omega
  · rw [recoverJob_jobs_of_ne stableHash hrec hid] at hjt
    intro hl' hkept a ha hown hnum
    exact hq j hjs hjt hl' hkept a (recoverJob_attempts_of_ne hrec ha (hown.trans_ne hid)) hown hnum

/-- The calls that spend no undispatched attempt, whatever the store holds. -/
def StoreOp.Honest (dispatched : List String) : StoreOp → Prop
  | .completeAttempt attemptId _ status _ _ =>
    attemptId ∈ dispatched ∨ status ∉ [.failedRetryable, .lost]
  | .transitionAttempt attemptId _ _ _ _ => attemptId ∈ dispatched
  | .recoverIncompleteJobs _ => False
  | _ => True

theorem Unspent.perform (h : Unspent dispatched s) (hl : Ledger s) {c : StoreCall}
    (hc : c.op.Honest dispatched) : Unspent dispatched (s.perform stableHash c) := by
  have hperforms := s.performs stableHash c
  generalize s.perform stableHash c = t at hperforms ⊢
  cases hperforms with
  | kept | consumed => exact h
  | created _ sub ids => exact h.createJob sub ids c.now
  | @jobMoved j target errorCode _ now found live =>
    exact h.updateLive (j.moveTo target errorCode now) found rfl live
  | @attemptMoved a _ target worker celery now found =>
    exact h.updateAttempt (a.moveTo target worker celery now) found rfl fun hnot =>
      absurd hc hnot
  | @beaten a _ now found =>
    exact h.updateAttempt (a.beat now) found rfl fun _ => rfl
  | completed done => exact h.completeAttempt hl done hc
  | @exhausted j _ now found waiting =>
    apply h.updateLive (j.exhaust now) found rfl
    rw [waiting]
    decide
  | requeued found waiting _ added =>
    apply h.add (addAttempt_ok stableHash added).1
    intro a ha hown
    exact h.dispatched hl found (by rw [waiting]; decide) ha hown
  | recovered => exact hc.elim
  | @cancelling j now found live => exact h.updateLive (j.cancel now) found rfl live

/-- A job dies with its last attempt. -/
theorem dead_perform (hl : Ledger s)
    (hdead : ∀ j ∈ s.jobs.rows, j.status = .dead → j.currentAttemptNumber = j.maxAttempts)
    {c : StoreCall} (hc : c.op.Dispatching) :
    ∀ j ∈ (s.perform stableHash c).jobs.rows, j.status = .dead →
      j.currentAttemptNumber = j.maxAttempts := by
  intro k hk hstatus
  have hstep := perform_jobStep stableHash s c k.jobId
  rw [Table.find?_of_mem hk] at hstep
  generalize hrow : s.jobs.find? k.jobId = row at hstep
  cases hstep with
  | kept => exact hdead k (Table.find?_mem hrow) hstatus
  | inserted => cases hstatus
  | changed hchange =>
    rename_i j
    have hbound := (hl.bounds j (Table.find?_mem hrow)).2
    generalize hop : c.op = op at hchange hc
    generalize c.now = now at hchange
    cases hchange with
    | moved _ _ _ =>
      have htarget : JobStatus.dead ∈ [JobStatus.dispatching, .dispatched, .running] := by
        rw [← hstatus]
        exact hc
      exact absurd htarget (by decide)
    | completed done =>
      have haccepted := done.accepted
      revert hstatus haccepted
      simp only [JobRecord.complete]
      rename_i status _ _ _
      cases status <;> simp [completionTarget, completionStatuses]
    | exhausted _ _ hused | exhaustedOnRestart _ _ hused => exact le_antisymm hbound hused
    | requeued | requeuedOnRestart | cancelling | cancelledOnRestart => cases hstatus

namespace Accounted

theorem empty : Accounted dispatched Store.empty :=
  ⟨Ledger.empty, by simp [Unspent, Store.empty], by simp [Store.empty]⟩

theorem mono {more : List String} (h : Accounted dispatched s) (hsub : dispatched ⊆ more) :
    Accounted more s :=
  ⟨h.ledger, fun a ha hnot => h.unspent a ha fun hin => hnot (hsub hin), h.dead⟩

theorem perform (h : Accounted dispatched s) {c : StoreCall} (hd : c.op.Dispatching)
    (hc : c.op.Honest dispatched) : Accounted dispatched (s.perform stableHash c) :=
  ⟨h.ledger.perform stableHash hd, h.unspent.perform h.ledger hc, dead_perform h.ledger h.dead hd⟩

theorem recover (h : Accounted dispatched s) (hqueued : ∀ j ∈ s.jobs.rows, NoneQueued s j)
    (fresh : String → AttemptIds) (now : Timestamp) :
    Accounted dispatched (s.perform stableHash ⟨.recoverIncompleteJobs fresh, now⟩) :=
  ⟨h.ledger.perform stableHash trivial,
    h.unspent.recoverIncompleteJobs h.ledger hqueued fresh now,
    dead_perform h.ledger h.dead trivial⟩

/-- A dead job has dispatched as many attempts as it may have. -/
theorem attempts_of_dead (h : Accounted dispatched s) (hj : j ∈ s.jobs.rows)
    (hdead : j.status = .dead) :
    (s.attempts.rows.filter fun a => a.jobId = j.jobId ∧ a.attemptId ∈ dispatched).length =
      j.maxAttempts := by
  have hall : s.attempts.rows.filter (fun a => a.jobId = j.jobId ∧ a.attemptId ∈ dispatched) =
      s.attempts.rows.filter fun a => a.jobId = j.jobId := by
    apply List.filter_congr
    intro a ha
    by_cases hown : a.jobId = j.jobId
    · have hin := h.unspent.dispatched h.ledger (Table.find?_of_mem hj) (by rw [hdead]; decide)
        ha hown
      simp [hown, hin]
    · simp [hown]
  have hnumbers := congrArg List.length (h.ledger.numbers j hj)
  rw [Store.attemptNumbers, List.length_map, List.length_range'] at hnumbers
  rw [hall, hnumbers, h.dead j hj hdead]

end Accounted

end Writes

end CodeResearch.ControlPlane
