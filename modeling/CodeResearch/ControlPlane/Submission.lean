import CodeResearch.ControlPlane.JobChanges

/-!
# Idempotent submission

A resubmission is recognised by its workspace and idempotency key and compared by
the hash of its request alone. It is answered with the stored job, whose other
columns are those of the first call.
-/
namespace CodeResearch.ControlPlane

/-- What `create_job` reads back of a job is stored: its current attempt, the outbox
event of each attempt, and its request. -/
structure Rooted (s : Store) : Prop where
  attempt : ∀ j ∈ s.jobs.rows, ∃ a ∈ s.attempts.rows, a.jobId = j.jobId ∧
    a.attemptNumber = j.currentAttemptNumber
  outbox : ∀ a ∈ s.attempts.rows, ∃ e ∈ s.outbox.rows, e.attemptId = a.attemptId
  request : ∀ j ∈ s.jobs.rows, (s.requests.find? j.jobId).isSome

variable {calls : List StoreCall} {G : Store → StoreCall → Prop}

namespace Rooted

variable {s : Store}

theorem empty : Rooted Store.empty where
  attempt := by simp [Store.empty]
  outbox := by simp [Store.empty]
  request := by simp [Store.empty]

theorem updateJob (h : Rooted s) (new : JobRecord) {old : JobRecord}
    (hold : s.jobs.find? new.jobId = some old)
    (hcur : new.currentAttemptNumber = old.currentAttemptNumber) : Rooted (s.updateJob new) := by
  have hsome : (s.jobs.find? new.jobId).isSome := by rw [hold]; rfl
  have hkey : old.jobId = new.jobId := Table.find?_key hold
  have hmem := Table.find?_mem hold
  refine ⟨?_, h.outbox, ?_⟩
  · intro j hj
    rcases (Table.mem_replace hsome j).mp hj with rfl | ⟨hj, _⟩
    · rw [← hkey, hcur]
      exact h.attempt old hmem
    · exact h.attempt j hj
  · intro j hj
    rcases (Table.mem_replace hsome j).mp hj with rfl | ⟨hj, _⟩
    · rw [← hkey]
      exact h.request old hmem
    · exact h.request j hj

theorem updateAttempt (h : Rooted s) (new : JobAttempt) {old : JobAttempt}
    (hold : s.attempts.find? new.attemptId = some old) (hjob : new.jobId = old.jobId)
    (hnum : new.attemptNumber = old.attemptNumber) : Rooted (s.updateAttempt new) := by
  have hsome : (s.attempts.find? new.attemptId).isSome := by rw [hold]; rfl
  have hkey : old.attemptId = new.attemptId := Table.find?_key hold
  refine ⟨?_, ?_, h.request⟩
  · intro j hj
    obtain ⟨a, ha, hown, hcur⟩ := h.attempt j hj
    by_cases hid : a.attemptId = new.attemptId
    · have hsame : a = old :=
        s.attempts.eq_of_key_eq ha (Table.find?_mem hold) (hid.trans hkey.symm)
      refine ⟨new, (Table.mem_replace hsome new).mpr (.inl rfl), ?_, ?_⟩
      · rw [hjob, ← hsame, hown]
      · rw [hnum, ← hsame, hcur]
    · exact ⟨a, (Table.mem_replace hsome a).mpr (.inr ⟨ha, hid⟩), hown, hcur⟩
  · intro a ha
    rcases (Table.mem_replace hsome a).mp ha with rfl | ⟨ha, _⟩
    · rw [← hkey]
      exact h.outbox old (Table.find?_mem hold)
    · exact h.outbox a ha

theorem updateOutbox (h : Rooted s) (new : OutboxEvent) {old : OutboxEvent}
    (hold : s.outbox.find? new.outboxEventId = some old)
    (hattempt : new.attemptId = old.attemptId) : Rooted (s.updateOutbox new) := by
  have hsome : (s.outbox.find? new.outboxEventId).isSome := by rw [hold]; rfl
  refine ⟨h.attempt, ?_, h.request⟩
  intro a ha
  obtain ⟨e, he, hown⟩ := h.outbox a ha
  by_cases hid : e.outboxEventId = new.outboxEventId
  · have hsame : e = old := s.outbox.eq_of_key_eq he (Table.find?_mem hold)
      (hid.trans (Table.find?_key hold).symm)
    refine ⟨new, (Table.mem_replace hsome new).mpr (.inl rfl), ?_⟩
    rw [hattempt, ← hsame, hown]
  · exact ⟨e, (Table.mem_replace hsome e).mpr (.inr ⟨he, hid⟩), hown⟩

variable {stableHash : String → String}

theorem extend (h : Rooted s) {u : Table JobAttempt.attemptId} {v : Table OutboxEvent.outboxEventId}
    {a : JobAttempt} {e : OutboxEvent} (hu : s.attempts.insert a = some u)
    (hv : s.outbox.insert e = some v) (hown : e.attemptId = a.attemptId) :
    ∀ b ∈ u.rows, ∃ e ∈ v.rows, e.attemptId = b.attemptId := by
  intro b hb
  rcases (Table.mem_insert hu b).mp hb with hb | rfl
  · obtain ⟨r, hr, hid⟩ := h.outbox b hb
    exact ⟨r, (Table.mem_insert hv r).mpr (.inl hr), hid⟩
  · exact ⟨e, (Table.mem_insert hv e).mpr (.inr rfl), hown⟩

variable {now : Timestamp} {t : Store}

theorem add (h : Rooted s) {old queued : JobRecord} {ids : AttemptIds}
    (hadd : Added stableHash queued ids now s t)
    (hold : s.jobs.find? queued.jobId = some old) : Rooted t := by
  have hsome : (s.jobs.find? queued.jobId).isSome := by rw [hold]; rfl
  refine ⟨?_, h.extend hadd.attempts hadd.outbox rfl, ?_⟩
  · intro j hj
    rw [hadd.jobs] at hj
    rcases (Table.mem_replace hsome j).mp hj with rfl | ⟨hj, _⟩
    · exact ⟨_, (Table.mem_insert hadd.attempts _).mpr (.inr rfl), rfl, rfl⟩
    · obtain ⟨a, ha, hown⟩ := h.attempt j hj
      exact ⟨a, (Table.mem_insert hadd.attempts a).mpr (.inl ha), hown⟩
  · intro j hj
    rw [hadd.jobs] at hj
    rw [hadd.requests]
    rcases (Table.mem_replace hsome j).mp hj with rfl | ⟨hj, _⟩
    · rw [← Table.find?_key hold]
      exact h.request old (Table.find?_mem hold)
    · exact h.request j hj

theorem insert (h : Rooted s) {sub : JobSubmission} {ids : JobIds}
    (hins : Inserted stableHash sub ids now s t) : Rooted t := by
  refine ⟨?_, h.extend hins.attempts hins.outbox rfl, ?_⟩
  · intro j hj
    rcases (Table.mem_insert hins.jobs j).mp hj with hj | rfl
    · obtain ⟨a, ha, hown⟩ := h.attempt j hj
      exact ⟨a, (Table.mem_insert hins.attempts a).mpr (.inl ha), hown⟩
    · exact ⟨_, (Table.mem_insert hins.attempts _).mpr (.inr rfl), rfl, rfl⟩
  · intro j hj
    rcases (Table.mem_insert hins.jobs j).mp hj with hj | rfl
    · obtain ⟨r, hr⟩ := Option.isSome_iff_exists.mp (h.request j hj)
      rw [Table.find?_insert_of_some hins.requests hr]
      rfl
    · rw [show (newJob stableHash sub ids now).jobId =
          (newRequest (newJob stableHash sub ids now) sub.requestJson now).jobId from rfl,
        Table.find?_insert_self hins.requests]
      rfl

theorem closeAttempt (h : Rooted s) {a : JobAttempt} (ha : a ∈ s.attempts.rows)
    (now : Timestamp) : Rooted (s.closeAttempt a now) := by
  have hfind : s.attempts.find? (a.supersede now).attemptId = some a := by
    rw [JobAttempt.supersede_attemptId]
    exact Table.find?_of_mem ha
  have hupd := h.updateAttempt (a.supersede now) hfind (a.supersede_jobId now)
    (a.supersede_attemptNumber now)
  unfold Store.closeAttempt
  split
  · rename_i event hevent
    apply hupd.updateOutbox (event.supersede now) _ (event.supersede_attemptId now)
    rw [OutboxEvent.supersede_outboxEventId]
    exact Table.find?_of_mem (getOutboxForAttempt_some hevent).1
  · exact hupd

theorem recoverJob (h : Rooted s) {ids : AttemptIds} {job : JobRecord} {c : Option CreatedJob}
    (hjob : s.jobs.find? job.jobId = some job)
    (hrec : recoverJob stableHash ids now job s = .ok (c, t)) : Rooted t := by
  obtain ⟨a, ha, hrec⟩ := recoverJob_ok stableHash hrec
  have hclosed := h.closeAttempt (getAttemptIn_some ha).1 now
  have hfind : (s.closeAttempt a now).jobs.find? job.jobId = some job := by
    rwa [Store.closeAttempt_jobs]
  cases hrec with
  | cancelled _ => exact hclosed.updateJob (job.cancelOnRestart now) hfind rfl
  | exhausted _ _ => exact hclosed.updateJob (job.exhaustOnRestart now) hfind rfl
  | requeued _ _ hadd => exact hclosed.add (addAttempt_ok stableHash hadd).1 hfind

theorem createJob (h : Rooted s) (sub : JobSubmission) (ids : JobIds) (now : Timestamp) :
    Rooted (createJob stableHash sub ids now s).2 := by
  rcases createJob_cases stableHash sub ids now s with heq | ⟨c, t, hins, heq⟩
  · rwa [heq]
  · rw [heq]
    exact h.insert (insertNewJob_ok stableHash hins).1

theorem perform (h : Rooted s) (c : StoreCall) : Rooted (s.perform stableHash c) := by
  have hperforms := s.performs stableHash c
  generalize s.perform stableHash c = t at hperforms ⊢
  cases hperforms with
  | kept => exact h
  | created _ sub ids => exact h.createJob sub ids c.now
  | @jobMoved j target errorCode _ now found =>
    exact h.updateJob (j.moveTo target errorCode now) found rfl
  | @attemptMoved a _ target worker celery now found =>
    exact h.updateAttempt (a.moveTo target worker celery now) found rfl rfl
  | @beaten a _ now found => exact h.updateAttempt (a.beat now) found rfl rfl
  | @completed a j _ status errorCode refs now done =>
    have hjob : s.jobs.find? j.jobId = some j := Table.find?_of_mem (Table.find?_mem done.job)
    exact (h.updateAttempt (a.complete status errorCode now) done.attempt rfl rfl).updateJob
      (j.complete status errorCode refs now) hjob rfl
  | @exhausted j _ now found => exact h.updateJob (j.exhaust now) found rfl
  | requeued found _ _ added => exact h.add (addAttempt_ok stableHash added).1 found
  | recovered fresh now =>
    exact recoverIncompleteJobs_rule stableHash
      (fun _ _ _ _ hrooted _ hj _ hrec => hrooted.recoverJob hj hrec) h
  | @cancelling j now found => exact h.updateJob (j.cancel now) found rfl
  | @consumed event now found =>
    exact h.updateOutbox (event.consume now) found rfl

theorem run (h : Rooted s) (hrun : (storeMachine stableHash).Run G s calls t) : Rooted t := by
  apply Machine.Run.invariant Rooted _ hrun h
  intro u c v hu _ hstep
  cases Option.some.inj hstep
  exact hu.perform c

end Rooted

section Submissions

variable (stableHash : String → String)

structure JobSubmission.Asks (sub : JobSubmission) (j : JobRecord) : Prop where
  projectId : j.projectId = sub.projectId
  jobType : j.jobType = sub.jobType
  queueName : j.queueName = sub.queueName
  taskSchemaVersion : j.taskSchemaVersion = sub.taskSchemaVersion

/-- A new job of the submission is valid and none of its keys is taken. -/
structure Store.Accepts (s : Store) (sub : JobSubmission) (ids : JobIds) (now : Timestamp) :
    Prop where
  valid : (newJob stableHash sub ids now).Valid
  domainRun : (newDomainRun (newJob stableHash sub ids now) now).domainRunId ∉
    s.domainRuns.rows.map DomainRunRow.domainRunId
  job : (newJob stableHash sub ids now).jobId ∉ s.jobs.rows.map JobRecord.jobId
  request : (newJob stableHash sub ids now).jobId ∉ s.requests.rows.map JobRequestRow.jobId
  attempt : "attempt_" ++ ids.attemptHex ∉ s.attempts.rows.map JobAttempt.attemptId
  number : ∀ a ∈ s.attempts.rows, ¬ (a.jobId = (newJob stableHash sub ids now).jobId ∧
    a.attemptNumber = 1)
  event : "outbox_" ++ ids.outboxHex ∉ s.outbox.rows.map OutboxEvent.outboxEventId
  key : ∀ e ∈ s.outbox.rows, e.messageDeduplicationKey ≠ messageDeduplicationKey stableHash
    (newJob stableHash sub ids now).jobId 1 sub.taskSchemaVersion
    (newJob stableHash sub ids now).requestHash
  audit : "audit_" ++ ids.auditHex ∉ s.auditEvents.rows.map AuditEvent.auditEventId

structure Store.AddsOne (s t : Store) (sub : JobSubmission) (ids : JobIds) (now : Timestamp)
    (c : CreatedJob) : Prop where
  domainRuns : t.domainRuns.rows = s.domainRuns.rows ++ [newDomainRun c.job now]
  jobs : t.jobs.rows = s.jobs.rows ++ [c.job]
  requests : t.requests.rows = s.requests.rows ++ [newRequest c.job sub.requestJson now]
  attempts : t.attempts.rows = s.attempts.rows ++ [c.attempt]
  outbox : t.outbox.rows = s.outbox.rows ++ [c.outbox]
  auditEvents : t.auditEvents.rows = s.auditEvents.rows ++ [newAuditEvent sub ids now]

/-- What a call of `create_job` has to do: it refuses a resubmission with another
request, answers any other one with the job it asks for, and else inserts the job. -/
structure Answered (s : Store) (sub : JobSubmission) (ids : JobIds) (now : Timestamp) : Prop where
  conflict : ∀ j, s.findIdempotent sub.workspaceId (stableHash sub.idempotencyKey) = some j →
    j.requestHash ≠ stableHash sub.requestJson →
    createJob stableHash sub ids now s = (.error (.controlPlane "idempotency_key_conflict"), s)
  replay : ∀ j, s.findIdempotent sub.workspaceId (stableHash sub.idempotencyKey) = some j →
    j.requestHash = stableHash sub.requestJson →
    ∃ c, createJob stableHash sub ids now s = (.ok c, s) ∧ c.job = j ∧ sub.Asks c.job
  inserted : s.findIdempotent sub.workspaceId (stableHash sub.idempotencyKey) = none →
    s.Accepts stableHash sub ids now →
    ∃ c t, createJob stableHash sub ids now s = (.ok c, t) ∧ s.AddsOne t sub ids now c ∧
      sub.Asks c.job
  refused : s.findIdempotent sub.workspaceId (stableHash sub.idempotencyKey) = none →
    ¬ s.Accepts stableHash sub ids now → ∃ e, createJob stableHash sub ids now s = (.error e, s)

def Agrees (s : Store) (sub : JobSubmission) : Prop :=
  ∀ j, s.findIdempotent sub.workspaceId (stableHash sub.idempotencyKey) = some j →
    j.requestHash = stableHash sub.requestJson → sub.Asks j

variable {stableHash} {s : Store} {sub : JobSubmission} {ids : JobIds} {now : Timestamp}

variable {j : JobRecord} {c : CreatedJob} {t : Store}

theorem createJob_of_some
    (h : s.findIdempotent sub.workspaceId (stableHash sub.idempotencyKey) = some j) :
    createJob stableHash sub ids now s = commit s (replayJob j (stableHash sub.requestJson) s) := by
  rw [createJob, h]

theorem createJob_of_none
    (h : s.findIdempotent sub.workspaceId (stableHash sub.idempotencyKey) = none) :
    createJob stableHash sub ids now s = commit s (insertNewJob stableHash sub ids now s) := by
  rw [createJob, h]

theorem createJob_conflict
    (h : s.findIdempotent sub.workspaceId (stableHash sub.idempotencyKey) = some j)
    (hhash : j.requestHash ≠ stableHash sub.requestJson) :
    createJob stableHash sub ids now s =
      (.error (.controlPlane "idempotency_key_conflict"), s) := by
  rw [createJob_of_some h, replayJob, ensure_neg hhash]
  rfl

/-- A resubmission of the same request is answered with the stored job. -/
theorem createJob_replay (hs : Rooted s)
    (h : s.findIdempotent sub.workspaceId (stableHash sub.idempotencyKey) = some j)
    (hhash : j.requestHash = stableHash sub.requestJson) :
    ∃ c, createJob stableHash sub ids now s = (.ok c, s) ∧ c.job = j := by
  have hmem : j ∈ s.jobs.rows := List.mem_of_find?_eq_some h
  obtain ⟨a, ha⟩ : ∃ a, s.getAttemptIn j.jobId j.currentAttemptNumber = some a := by
    obtain ⟨a, ha, hown⟩ := hs.attempt j hmem
    exact Option.isSome_iff_exists.mp (List.find?_isSome.mpr ⟨a, ha, by simpa using hown⟩)
  obtain ⟨e, he⟩ : ∃ e, s.getOutboxForAttempt a.attemptId = some e := by
    obtain ⟨e, he, hown⟩ := hs.outbox a (getAttemptIn_some ha).1
    exact Option.isSome_iff_exists.mp (List.find?_isSome.mpr ⟨e, he, by simpa using hown⟩)
  obtain ⟨r, hr⟩ := Option.isSome_iff_exists.mp (hs.request j hmem)
  refine ⟨⟨j, a, e, "", r.requestJson⟩, ?_, rfl⟩
  rw [createJob_of_some h, replayJob, ensure_pos hhash, except_bind_ok, ha, orError_some,
    except_bind_ok, he, orError_some, except_bind_ok, Store.getJobRequestIn, hr]
  rfl

theorem exists_insertJob {s : Store} (hkey : j.jobId ∉ s.jobs.rows.map JobRecord.jobId)
    (hnew : ∀ r ∈ s.jobs.rows, ¬ (r.workspaceId = j.workspaceId ∧
      r.idempotencyKeyHash = j.idempotencyKeyHash)) :
    ∃ u, s.insertJob j = .ok { s with jobs := u } := by
  obtain ⟨u, hu⟩ := Table.exists_insert hkey
  refine ⟨u, ?_⟩
  rw [Store.insertJob, if_neg (by simpa using hnew), hu]
  rfl

theorem exists_insertAttempt {s : Store} {a : JobAttempt}
    (hkey : a.attemptId ∉ s.attempts.rows.map JobAttempt.attemptId)
    (hnew : ∀ r ∈ s.attempts.rows, ¬ (r.jobId = a.jobId ∧ r.attemptNumber = a.attemptNumber)) :
    ∃ u, s.insertAttempt a = .ok { s with attempts := u } := by
  obtain ⟨u, hu⟩ := Table.exists_insert hkey
  refine ⟨u, ?_⟩
  rw [Store.insertAttempt, if_neg (by simpa using hnew), hu]
  rfl

theorem exists_insertOutbox {s : Store} {e : OutboxEvent}
    (hkey : e.outboxEventId ∉ s.outbox.rows.map OutboxEvent.outboxEventId)
    (hnew : ∀ r ∈ s.outbox.rows, r.messageDeduplicationKey ≠ e.messageDeduplicationKey) :
    ∃ u, s.insertOutbox e = .ok { s with outbox := u } := by
  obtain ⟨u, hu⟩ := Table.exists_insert hkey
  refine ⟨u, ?_⟩
  rw [Store.insertOutbox, if_neg (by simpa using hnew), hu]
  rfl

/-- A submission with a new key is inserted when its rows are accepted. -/
theorem insertNewJob_of_accepts
    (h : s.findIdempotent sub.workspaceId (stableHash sub.idempotencyKey) = none)
    (ha : s.Accepts stableHash sub ids now) :
    ∃ c t, insertNewJob stableHash sub ids now s = .ok (c, t) := by
  let job := newJob stableHash sub ids now
  let attempt := newAttempt stableHash job.jobId 1 ids.toAttemptIds now
  let outbox := newOutbox stableHash job attempt ids.toAttemptIds now
  have hnew : ∀ r ∈ s.jobs.rows, ¬ (r.workspaceId = job.workspaceId ∧
      r.idempotencyKeyHash = job.idempotencyKeyHash) := by
    intro r hr
    have hne := List.find?_eq_none.mp h r hr
    rwa [decide_eq_true_eq] at hne
  obtain ⟨d, hd⟩ := Table.exists_insert (r := newDomainRun job now) ha.domainRun
  obtain ⟨j, hj⟩ := exists_insertJob (s := { s with domainRuns := d }) (j := job) ha.job hnew
  obtain ⟨q, hq⟩ := Table.exists_insert (r := newRequest job sub.requestJson now) ha.request
  obtain ⟨a, hattempt⟩ := exists_insertAttempt
    (s := { s with domainRuns := d, jobs := j, requests := q }) (a := attempt) ha.attempt ha.number
  obtain ⟨e, he⟩ := exists_insertOutbox
    (s := { s with domainRuns := d, jobs := j, requests := q, attempts := a }) (e := outbox)
    ha.event ha.key
  obtain ⟨x, hx⟩ := Table.exists_insert (r := newAuditEvent sub ids now) ha.audit
  refine ⟨⟨job, attempt, outbox, ids.token, sub.requestJson⟩,
    ⟨j, q, a, e, d, x⟩, ?_⟩
  rw [insertNewJob, JobRecord.validate, if_pos ha.valid, except_bind_ok]
  dsimp only
  rw [Store.insertDomainRun, hd]
  change (Store.insertJob { s with domainRuns := d } job >>= _) = _
  rw [hj, except_bind_ok, Store.insertRequest, hq]
  change (Store.insertAttempt { s with domainRuns := d, jobs := j, requests := q } attempt >>= _) = _
  rw [hattempt, except_bind_ok, he, except_bind_ok, Store.insertAuditEvent, hx]
  rfl

theorem accepts_of_insertNewJob
    (h : insertNewJob stableHash sub ids now s = .ok (c, t)) : s.Accepts stableHash sub ids now := by
  obtain ⟨hins, _⟩ := insertNewJob_ok stableHash h
  refine ⟨hins.valid, Table.insert_fresh hins.domainRuns, Table.insert_fresh hins.jobs,
    Table.insert_fresh hins.requests, Table.insert_fresh hins.attempts, ?_,
    Table.insert_fresh hins.outbox, hins.key, Table.insert_fresh hins.auditEvents⟩
  simp only [insertNewJob, except_bind_eq_ok_iff, JobRecord.validate_eq_ok_iff] at h
  obtain ⟨_, ⟨_, rfl⟩, s₁, h₁, s₂, h₂, s₃, h₃, s₄, h₄, _⟩ := h
  simp only [Store.insertDomainRun, Store.insertRequest, except_map_eq_ok_iff] at h₁ h₃
  obtain ⟨_, _, rfl⟩ := h₁
  obtain ⟨_, _, rfl⟩ := insertJob_ok h₂
  obtain ⟨_, _, rfl⟩ := h₃
  unfold Store.insertAttempt at h₄
  split_ifs at h₄ with hany
  intro a ha hsame
  exact hany (List.any_eq_true.mpr ⟨a, ha, decide_eq_true hsame⟩)

theorem addsOne_of_insertNewJob (h : insertNewJob stableHash sub ids now s = .ok (c, t)) :
    s.AddsOne t sub ids now c ∧ sub.Asks c.job := by
  obtain ⟨hins, hjob, _, hattempt, houtbox⟩ := insertNewJob_ok stableHash h
  obtain ⟨job, attempt, outbox, token, request⟩ := c
  dsimp only at hjob hattempt houtbox
  subst hjob hattempt houtbox
  exact ⟨⟨Table.rows_insert hins.domainRuns, Table.rows_insert hins.jobs,
    Table.rows_insert hins.requests, Table.rows_insert hins.attempts,
    Table.rows_insert hins.outbox, Table.rows_insert hins.auditEvents⟩, rfl, rfl, rfl, rfl⟩

/-- In a store in which every job is rooted, a call is answered exactly when the stored
job it would be answered with is as it asks. -/
theorem answered_iff (hs : Rooted s) :
    Answered stableHash s sub ids now ↔ Agrees stableHash s sub := by
  constructor
  · intro h j hj hhash
    obtain ⟨c, _, rfl, hasks⟩ := h.replay j hj hhash
    exact hasks
  · intro h
    constructor
    case conflict => exact fun j hj hhash => createJob_conflict hj hhash
    case replay =>
      intro j hj hhash
      obtain ⟨c, hc, rfl⟩ := createJob_replay hs hj hhash
      exact ⟨c, hc, rfl, h c.job hj hhash⟩
    case inserted =>
      intro hnone ha
      obtain ⟨c, t, hins⟩ := insertNewJob_of_accepts hnone ha
      refine ⟨c, t, ?_, addsOne_of_insertNewJob hins⟩
      rw [createJob_of_none hnone, hins]
      rfl
    case refused =>
      intro hnone ha
      rw [createJob_of_none hnone]
      cases hins : insertNewJob stableHash sub ids now s with
      | error e => exact ⟨e, rfl⟩
      | ok r => exact absurd (accepts_of_insertNewJob hins) ha

/-- A call that agrees with the stored job returns the job it asks for. -/
theorem asks_of_createJob (h : Agrees stableHash s sub)
    (hc : createJob stableHash sub ids now s = (.ok c, t)) :
    sub.Asks c.job ∧ t.jobs.find? c.job.jobId = some c.job := by
  cases hfind : s.findIdempotent sub.workspaceId (stableHash sub.idempotencyKey) with
  | none =>
    rw [createJob_of_none hfind] at hc
    have hins := commit_eq_ok hc
    obtain ⟨hadds, hasks⟩ := addsOne_of_insertNewJob hins
    refine ⟨hasks, Table.find?_of_mem ?_⟩
    rw [hadds.jobs]
    exact List.mem_append_right _ List.mem_cons_self
  | some j =>
    rw [createJob_of_some hfind] at hc
    have hreplay := commit_eq_ok hc
    simp only [replayJob, except_bind_eq_ok_iff, except_pure_eq_ok_iff, Prod.mk.injEq,
      ensure_eq_ok_iff] at hreplay
    obtain ⟨_, hhash, _, _, _, _, _, _, rfl, rfl⟩ := hreplay
    exact ⟨h j hfind hhash, Table.find?_of_mem (List.mem_of_find?_eq_some hfind)⟩

theorem JobChange.asked {op : StoreOp} {k : JobRecord}
    (h : JobChange stableHash s op now j k) : k.projectId = j.projectId ∧ k.jobType = j.jobType := by
  cases h <;> exact ⟨rfl, rfl⟩

theorem asked_run (hrun : (storeMachine stableHash).Run G s calls t) {jobId : String}
    (hj : s.jobs.find? jobId = some j) :
    ∃ k, t.jobs.find? jobId = some k ∧ k.projectId = j.projectId ∧ k.jobType = j.jobType := by
  apply hrun.invariant (fun u => ∃ k, u.jobs.find? jobId = some k ∧ k.projectId = j.projectId ∧
    k.jobType = j.jobType)
  · rintro u c v ⟨k, hk, hproject, htype⟩ _ hstep
    cases Option.some.inj hstep
    have hchange := perform_jobStep stableHash u c jobId
    rw [hk] at hchange
    generalize (u.perform stableHash c).jobs.find? jobId = row at hchange ⊢
    cases hchange with
    | kept => exact ⟨k, rfl, hproject, htype⟩
    | changed h =>
      obtain ⟨hp, ht⟩ := h.asked
      exact ⟨_, rfl, hp.trans hproject, ht.trans htype⟩
  · exact ⟨j, hj, rfl, rfl⟩

variable (stableHash)

/-- Every submission along the runs is answered, and no two for different projects or job
types are answered with one job. -/
def SubmissionsAnswered (G : Store → StoreCall → Prop) : Prop :=
  (∀ calls s sub ids now, (storeMachine stableHash).Run G .empty calls s →
    G s ⟨.createJob sub ids, now⟩ → Answered stableHash s sub ids now) ∧
  ∀ calls s sub ids now c t, (storeMachine stableHash).Run G .empty calls s →
    G s ⟨.createJob sub ids, now⟩ → createJob stableHash sub ids now s = (.ok c, t) →
    ∀ calls' u sub' ids' now' c' v, (storeMachine stableHash).Run G t calls' u →
      G u ⟨.createJob sub' ids', now'⟩ → createJob stableHash sub' ids' now' u = (.ok c', v) →
      c'.job.jobId = c.job.jobId → sub'.projectId = sub.projectId ∧ sub'.jobType = sub.jobType

/-- Submissions are answered in exactly those runs in which each agrees with the stored
job of its key and request. -/
theorem submissionsAnswered_iff (G : Store → StoreCall → Prop) :
    SubmissionsAnswered stableHash G ↔
      ∀ calls s sub ids now, (storeMachine stableHash).Run G .empty calls s →
        G s ⟨.createJob sub ids, now⟩ → Agrees stableHash s sub := by
  constructor
  · intro h calls s sub ids now hrun hG
    exact (answered_iff (Rooted.empty.run hrun)).mp (h.1 calls s sub ids now hrun hG)
  · intro h
    constructor
    · intro calls s sub ids now hrun hG
      exact (answered_iff (Rooted.empty.run hrun)).mpr (h calls s sub ids now hrun hG)
    · intro calls s sub ids now c t hrun hG hc calls' u sub' ids' now' c' v hrun' hG' hc' hid
      have hstep : ∀ {w x : Store} {r : CreatedJob} {sub : JobSubmission} {ids : JobIds}
          {now : Timestamp}, createJob stableHash sub ids now w = (.ok r, x) →
          (storeMachine stableHash).step w ⟨.createJob sub ids, now⟩ = some x := by
        intro w x r sub ids now hr
        rw [storeMachine, Machine.total_step, Store.perform_createJob, hr]
      obtain ⟨hasks, hstored⟩ := asks_of_createJob (h calls s sub ids now hrun hG) hc
      have hboth := (hrun.snoc hG (hstep hc)).append hrun'
      obtain ⟨hasks', hstored'⟩ := asks_of_createJob (h _ u sub' ids' now' hboth hG') hc'
      obtain ⟨k, hk, hproject, htype⟩ := asked_run (hrun'.snoc hG' (hstep hc')) hstored
      rw [← hid, hstored', Option.some.injEq] at hk
      subst hk
      constructor
      · rw [← hasks'.projectId, hproject, hasks.projectId]
      · rw [← hasks'.jobType, htype, hasks.jobType]

/-- The submission of `sampleSubmission` for another project. -/
def otherSubmission : JobSubmission :=
  { sampleSubmission with projectId := some "project", jobType := .alignment }

/-- A submission for another project and job type gets the job of the first one. -/
theorem not_submissionsAnswered_otherSubmission : ¬ SubmissionsAnswered id Machine.Free := by
  intro h
  have hrun : (storeMachine id).Run Machine.Free .empty [sampleCreate]
      (Store.perform id .empty sampleCreate) := .cons trivial rfl (.nil _)
  have hanswered := h.1 _ _ otherSubmission ⟨sampleIds "2", "2", "2", "2"⟩ 2 hrun trivial
  obtain ⟨c, _, hjob, hasks⟩ := hanswered.replay
    (newJob id sampleSubmission ⟨sampleIds "1", "1", "1", "1"⟩ 1) (by decide +kernel)
    (by decide +kernel)
  rw [hjob] at hasks
  exact absurd hasks.projectId (by decide)

end Submissions

end CodeResearch.ControlPlane
