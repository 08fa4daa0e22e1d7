import CodeResearch.Team.Lifecycle
import Mathlib.Data.List.Find

/-!
# Team and Local submission, call by call

The same calls on a SQLite store and a PostgreSQL store that hold the same jobs. Both draw
the same ids. The Team schema has no table of domain runs and none of audit events, so what
Local records there Team does not; and Team cancels what Local refuses to cancel.
-/
namespace CodeResearch.Team

open ControlPlane

/-- The rows of a job repeat the columns that lookups use in its records. -/
structure JobRows.Mirrored (r : JobRows) : Prop where
  jobId : r.job.jobJson.jobId = r.job.jobId
  workspaceId : r.job.jobJson.workspaceId = r.job.workspaceId
  key : r.job.jobJson.idempotencyKeyHash = r.job.idempotencyKeyHash
  request : r.request.jobId = r.job.jobId
  attemptJob : r.attempt.attemptJson.jobId = r.job.jobId
  attemptId : r.attempt.attemptJson.attemptId = r.attempt.attemptId
  number : r.attempt.attemptNumber = r.job.jobJson.currentAttemptNumber
  jsonNumber : r.attempt.attemptJson.attemptNumber = r.job.jobJson.currentAttemptNumber
  job : r.job.jobJson.Accepted
  attempt : r.attempt.attemptJson.Accepted
  event : (storedEvent r.job.jobJson r.attempt.attemptJson r.event).Accepted

def JobRows.storedEvent (r : JobRows) : OutboxEvent :=
  Team.storedEvent r.job.jobJson r.attempt.attemptJson r.event

structure SameJobs (s : ControlPlane.Store) (db : Database) : Prop where
  jobs : s.jobs.rows = db.jobs.rows.map fun r => r.job.jobJson
  requests : s.requests.rows = db.jobs.rows.map JobRows.request
  attempts : s.attempts.rows = db.jobs.rows.map fun r => r.attempt.attemptJson
  outbox : s.outbox.rows = db.jobs.rows.map JobRows.storedEvent
  mirrored : ∀ r ∈ db.jobs.rows, r.Mirrored

/-- A call that both stores offer. -/
inductive Call
  | createJob (sub : JobSubmission) (ids : JobIds) (now : Timestamp)
  | getJob (jobId : String)
  | requestCancel (jobId : String) (now : Timestamp)
  | createManualRetry (jobId manualHex : String) (ids : JobIds) (now : Timestamp)

inductive Answer
  | created (c : CreatedJob)
  | job (j : JobRecord)
  deriving DecidableEq

/-- The two stores side by side. -/
structure Stores where
  sqlite : ControlPlane.Store
  postgres : Database

def retrySubmission (job : JobRecord) (requestJson jobId manualHex : String) : JobSubmission where
  workspaceId := job.workspaceId
  projectId := job.projectId
  jobType := job.jobType
  queueName := job.queueName
  requestJson := requestJson
  idempotencyKey := s!"manual-retry:{jobId}:{manualHex}"
  actorIdHash := "system"
  domainRunId := none
  retryOfJobId := some jobId
  maxAttempts := job.maxAttempts
  taskSchemaVersion := job.taskSchemaVersion

section Hashing

variable (stableHash : String → String)

def Call.sqlite (s : ControlPlane.Store) : Call → Except StoreError Answer × ControlPlane.Store
  | .createJob sub ids now =>
    (ControlPlane.createJob stableHash sub ids now s).map (Except.map .created) id
  | .getJob jobId => (ControlPlane.getJob jobId s).map (Except.map .job) id
  | .requestCancel jobId now => (ControlPlane.requestCancel jobId now s).map (Except.map .job) id
  | .createManualRetry jobId manualHex ids now =>
    (ControlPlane.createManualRetry stableHash jobId manualHex ids now s).map
      (Except.map .created) id

def Call.postgres (db : Database) : Call → Except StoreError Answer × Database
  | .createJob sub ids now => (Team.createJob stableHash sub ids now db).map (Except.map .created) id
  | .getJob jobId => ((Team.getJob jobId db).map .job, db)
  | .requestCancel jobId now => (Team.requestCancel jobId now db).map (Except.map .job) id
  | .createManualRetry jobId manualHex ids now =>
    (Team.createManualRetry stableHash jobId manualHex ids now db).map (Except.map .created) id

def Stores.step (b : Stores) (c : Call) : Stores :=
  ⟨(c.sqlite stableHash b.sqlite).2, (c.postgres stableHash b.postgres).2⟩

/-- The stores answer alike, hold the same jobs afterwards, and have recorded the same
domain runs and audit events: none, as the Team schema has no table for them. -/
structure SameCall (b : Stores) (c : Call) : Prop where
  answer : (c.sqlite stableHash b.sqlite).1 = (c.postgres stableHash b.postgres).1
  agrees : SameJobs (b.step stableHash c).sqlite (b.step stableHash c).postgres
  domainRuns : (b.step stableHash c).sqlite.domainRuns = b.sqlite.domainRuns
  auditEvents : (b.step stableHash c).sqlite.auditEvents = b.sqlite.auditEvents

/-- The drawn ids, or the key of the message, belong to a stored job already. -/
def Database.Taken (db : Database) (r : JobRows) : Prop :=
  ∃ x ∈ db.jobs.rows, x.jobId = r.jobId ∨ x.attempt.attemptId = r.attempt.attemptId ∨
    x.event.outboxEventId = r.event.outboxEventId ∨
    x.event.messageDeduplicationKey = r.event.messageDeduplicationKey

def Database.CreatesNothing (db : Database) (sub : JobSubmission) (ids : JobIds)
    (now : Timestamp) : Prop :=
  match db.findIdempotent sub.workspaceId (stableHash sub.idempotencyKey) with
  | some r => r.job.jobJson.requestHash = stableHash sub.requestJson →
      r.request.requestJson = sub.requestJson
  | none => ¬ (newJob stableHash sub ids now).Valid ∨ db.Taken (createdRows stableHash sub ids now)

/-- The call creates no job and cancels none that `JOB_TRANSITIONS` protects. -/
def Call.Plain (db : Database) : Call → Prop
  | .createJob sub ids now => db.CreatesNothing stableHash sub ids now
  | .getJob _ => True
  | .requestCancel jobId _ => ∀ r ∈ db.jobs.find? jobId,
      r.job.jobJson.status.Terminal ∨ JobStatus.cancelling ∈ jobTransitions r.job.jobJson.status
  | .createManualRetry jobId manualHex ids now => ∀ r ∈ db.jobs.find? jobId,
      r.job.jobJson.status.Terminal →
        db.CreatesNothing stableHash
          (retrySubmission r.job.jobJson r.request.requestJson jobId manualHex) ids now

end Hashing

theorem find?_of_unique {α : Type*} {l : List α} {q : α → Bool} {a : α} (ha : a ∈ l)
    (hq : q a = true) (hunique : ∀ b ∈ l, q b = true → b = a) : l.find? q = some a := by
  cases hfound : l.find? q with
  | none => exact absurd hq (List.find?_eq_none.mp hfound a ha)
  | some b => rw [hunique b (List.mem_of_find?_eq_some hfound) (List.find?_some hfound)]

section Lookups

variable {stableHash : String → String} {s : ControlPlane.Store} {db : Database}

theorem SameJobs.find?_jobs (h : SameJobs s db) (jobId : String) :
    s.jobs.find? jobId = (db.jobs.find? jobId).map fun r => r.job.jobJson := by
  unfold Table.find?
  rw [h.jobs, List.find?_map]
  congr 1
  apply List.find?_congr
  intro r hr
  simp only [Function.comp_apply]
  rw [(h.mirrored r hr).jobId]
  rfl

theorem SameJobs.findIdempotent (h : SameJobs s db) (workspaceId hash : String) :
    s.findIdempotent workspaceId hash =
      (db.findIdempotent workspaceId hash).map fun r => r.job.jobJson := by
  unfold Store.findIdempotent Database.findIdempotent
  rw [h.jobs, List.find?_map]
  congr 1
  apply List.find?_congr
  intro r hr
  simp only [Function.comp_apply]
  rw [(h.mirrored r hr).workspaceId, (h.mirrored r hr).key]

theorem SameJobs.eq_of_jobId {r x : JobRows} (hr : r ∈ db.jobs.rows) (hx : x ∈ db.jobs.rows)
    (hid : x.job.jobId = r.job.jobId) : x = r :=
  db.jobs.eq_of_key_eq hx hr hid

theorem SameJobs.eq_of_attemptId (h : SameJobs s db) {r x : JobRows} (hr : r ∈ db.jobs.rows)
    (hx : x ∈ db.jobs.rows)
    (hid : x.attempt.attemptJson.attemptId = r.attempt.attemptJson.attemptId) : x = r := by
  have hnodup := s.attempts.nodup
  rw [h.attempts, List.map_map] at hnodup
  exact List.inj_on_of_nodup_map hnodup hx hr hid

variable {r : JobRows}

theorem SameJobs.getAttemptIn (h : SameJobs s db) (hr : r ∈ db.jobs.rows) :
    s.getAttemptIn r.job.jobJson.jobId r.job.jobJson.currentAttemptNumber =
      some r.attempt.attemptJson := by
  have hm := h.mirrored r hr
  unfold Store.getAttemptIn
  rw [h.attempts, List.find?_map, find?_of_unique hr]
  · rfl
  · simp [hm.attemptJob, hm.jobId, hm.jsonNumber]
  · intro x hx hq
    simp only [Function.comp_apply, decide_eq_true_eq] at hq
    exact eq_of_jobId hr hx (((h.mirrored x hx).attemptJob.symm.trans hq.1).trans hm.jobId)

theorem SameJobs.getOutboxForAttempt (h : SameJobs s db) (hr : r ∈ db.jobs.rows) :
    s.getOutboxForAttempt r.attempt.attemptJson.attemptId = some r.storedEvent := by
  unfold Store.getOutboxForAttempt
  rw [h.outbox, List.find?_map, find?_of_unique hr]
  · rfl
  · exact decide_eq_true rfl
  · intro x hx hq
    exact h.eq_of_attemptId hr hx (of_decide_eq_true hq)

theorem SameJobs.getJobRequestIn (h : SameJobs s db) (hr : r ∈ db.jobs.rows) :
    s.getJobRequestIn r.job.jobJson.jobId = .ok r.request.requestJson := by
  have hm := h.mirrored r hr
  unfold Store.getJobRequestIn Table.find?
  rw [h.requests, List.find?_map, find?_of_unique hr]
  · rfl
  · simp [hm.request, hm.jobId]
  · intro x hx hq
    simp only [Function.comp_apply, decide_eq_true_eq] at hq
    exact eq_of_jobId hr hx (((h.mirrored x hx).request.symm.trans hq).trans hm.jobId)

theorem SameJobs.replay_sqlite (h : SameJobs s db) (hr : r ∈ db.jobs.rows) (requestHash : String) :
    ControlPlane.replayJob r.job.jobJson requestHash s =
      if r.job.jobJson.requestHash = requestHash then
        .ok (⟨r.job.jobJson, r.attempt.attemptJson, r.storedEvent, "", r.request.requestJson⟩, s)
      else .error (.controlPlane "idempotency_key_conflict") := by
  unfold ControlPlane.replayJob
  split_ifs with hhash
  · rw [ensure_pos hhash, except_bind_ok, h.getAttemptIn hr, orError_some, except_bind_ok,
      h.getOutboxForAttempt hr, orError_some, except_bind_ok, h.getJobRequestIn hr]
    rfl
  · rw [ensure_neg hhash]
    rfl

/-- Rows that `create_job` can answer from. -/
structure Database.Replays (db : Database) (r : JobRows) : Prop where
  mirrored : r.Mirrored
  attempt : (db.jobs.rows.find? fun x => x.attempt.attemptId = r.attempt.attemptJson.attemptId) =
    some r

/-- The answer of Team to a resubmission. -/
theorem Database.Replays.answer (h : db.Replays r) (requestJson requestHash : String) :
    replayJob r requestJson requestHash db =
      if r.job.jobJson.requestHash = requestHash then
        .ok ⟨r.job.jobJson, r.attempt.attemptJson, r.storedEvent, "", requestJson⟩
      else .error (.controlPlane "idempotency_key_conflict") := by
  have hm := h.mirrored
  have hjob := load_eq_ok_iff.mpr ⟨hm.job, rfl⟩
  have hattempt := load_eq_ok_iff.mpr ⟨hm.attempt, rfl⟩
  have hevent := load_eq_ok_iff.mpr ⟨hm.event, rfl⟩
  unfold replayJob
  rw [hjob, except_bind_ok]
  split_ifs with hhash
  · rw [ensure_pos hhash, except_bind_ok, ensure_pos hm.number, except_bind_ok, h.attempt,
      orError_some, except_bind_ok, hattempt, except_bind_ok, hevent]
    rfl
  · rw [ensure_neg hhash]
    rfl

theorem SameJobs.replays (h : SameJobs s db) (hr : r ∈ db.jobs.rows) : db.Replays r := by
  refine ⟨h.mirrored r hr, find?_of_unique hr ?_ ?_⟩
  · exact decide_eq_true (h.mirrored r hr).attemptId.symm
  · intro x hx hq
    exact h.eq_of_attemptId hr hx ((h.mirrored x hx).attemptId.trans (of_decide_eq_true hq))

end Lookups

section Insertions

variable {stableHash : String → String} {s : ControlPlane.Store} {sub : JobSubmission}
  {ids : JobIds} {now : Timestamp}

/-- A valid record is refused by a constraint or not at all. -/
theorem insertNewJob_error {e : StoreError} (hvalid : (newJob stableHash sub ids now).Valid)
    (h : ControlPlane.insertNewJob stableHash sub ids now s = .error e) : e = .integrity := by
  have hjob : (newJob stableHash sub ids now).validate = .ok (newJob stableHash sub ids now) :=
    if_pos hvalid
  simp only [ControlPlane.insertNewJob, hjob, except_bind_ok, except_bind_eq_error_iff] at h
  obtain h | ⟨s₁, -, h⟩ := h
  · rw [Store.insertDomainRun, except_map_eq_error_iff, orError_eq_error_iff] at h
    exact h.2.symm
  obtain h | ⟨s₂, -, h⟩ := h
  · unfold Store.insertJob at h
    split_ifs at h
    · cases h
      rfl
    · rw [except_map_eq_error_iff, orError_eq_error_iff] at h
      exact h.2.symm
  obtain h | ⟨s₃, -, h⟩ := h
  · rw [Store.insertRequest, except_map_eq_error_iff, orError_eq_error_iff] at h
    exact h.2.symm
  obtain h | ⟨s₄, -, h⟩ := h
  · unfold Store.insertAttempt at h
    split_ifs at h
    · cases h
      rfl
    · rw [except_map_eq_error_iff, orError_eq_error_iff] at h
      exact h.2.symm
  obtain h | ⟨s₅, -, h⟩ := h
  · unfold Store.insertOutbox at h
    split_ifs at h
    · cases h
      rfl
    · rw [except_map_eq_error_iff, orError_eq_error_iff] at h
      exact h.2.symm
  obtain h | ⟨s₆, -, h⟩ := h
  · rw [Store.insertAuditEvent, except_map_eq_error_iff, orError_eq_error_iff] at h
    exact h.2.symm
  · cases h

theorem insertNewJob_invalid (hvalid : ¬ (newJob stableHash sub ids now).Valid) :
    ControlPlane.insertNewJob stableHash sub ids now s = .error .validation := by
  have hjob : (newJob stableHash sub ids now).validate = .error .validation := if_neg hvalid
  unfold ControlPlane.insertNewJob
  rw [hjob]
  rfl

end Insertions

variable {r : JobRows}

section Create

variable {stableHash : String → String} {s : ControlPlane.Store} {db : Database}
  {sub : JobSubmission} {ids : JobIds} {now : Timestamp}

def JobRows.sqliteReplay (r : JobRows) (requestHash : String) : Except StoreError CreatedJob :=
  if r.job.jobJson.requestHash = requestHash then
    .ok ⟨r.job.jobJson, r.attempt.attemptJson, r.storedEvent, "", r.request.requestJson⟩
  else .error (.controlPlane "idempotency_key_conflict")

def JobRows.postgresReplay (r : JobRows) (requestJson requestHash : String) :
    Except StoreError CreatedJob :=
  if r.job.jobJson.requestHash = requestHash then
    .ok ⟨r.job.jobJson, r.attempt.attemptJson, r.storedEvent, "", requestJson⟩
  else .error (.controlPlane "idempotency_key_conflict")

variable (ids now) in
theorem SameJobs.createJob_sqlite_found (h : SameJobs s db)
    (hr : db.findIdempotent sub.workspaceId (stableHash sub.idempotencyKey) = some r) :
    ControlPlane.createJob stableHash sub ids now s =
      (r.sqliteReplay (stableHash sub.requestJson), s) := by
  have hmem : r ∈ db.jobs.rows := List.mem_of_find?_eq_some hr
  unfold ControlPlane.createJob
  rw [h.findIdempotent, hr, Option.map_some]
  dsimp only
  rw [h.replay_sqlite hmem]
  unfold JobRows.sqliteReplay
  split_ifs <;> rfl

variable (ids now) in
theorem Database.Replays.createJob_found (h : db.Replays r)
    (hr : db.findIdempotent sub.workspaceId (stableHash sub.idempotencyKey) = some r) :
    createJob stableHash sub ids now db =
      (r.postgresReplay sub.requestJson (stableHash sub.requestJson), db) := by
  unfold createJob
  rw [hr]
  dsimp only
  rw [h.answer]
  unfold JobRows.postgresReplay
  split_ifs <;> rfl

variable (ids now) in
theorem createJob_postgres_none
    (hnone : db.findIdempotent sub.workspaceId (stableHash sub.idempotencyKey) = none) :
    createJob stableHash sub ids now db =
      transact db (insertNewJob stableHash sub ids now db) := by
  unfold createJob
  rw [hnone]

variable (ids now) in
theorem SameJobs.createJob_sqlite_none (h : SameJobs s db)
    (hnone : db.findIdempotent sub.workspaceId (stableHash sub.idempotencyKey) = none) :
    ControlPlane.createJob stableHash sub ids now s =
      commit s (ControlPlane.insertNewJob stableHash sub ids now s) := by
  unfold ControlPlane.createJob
  rw [h.findIdempotent, hnone]
  rfl

theorem insertNewJob_postgres_invalid (hvalid : ¬ (newJob stableHash sub ids now).Valid) :
    insertNewJob stableHash sub ids now db = .error .validation := by
  have hjob : load JobRecord.Accepted (newJob stableHash sub ids now) = .error .validation :=
    if_neg fun hacc => hvalid hacc.valid
  unfold insertNewJob
  rw [hjob]
  rfl

section Digests

variable (hdigest : ∀ text, IsDigest (stableHash text))

include hdigest

/-- A valid submission passes the models: its digests are digests. -/
theorem insertNewJob_postgres_valid (hvalid : (newJob stableHash sub ids now).Valid) :
    insertNewJob stableHash sub ids now db =
      (db.insert (createdRows stableHash sub ids now)).map fun t =>
        (⟨newJob stableHash sub ids now,
          newAttempt stableHash (newJob stableHash sub ids now).jobId 1 ids.toAttemptIds now,
          newOutbox stableHash (newJob stableHash sub ids now)
            (newAttempt stableHash (newJob stableHash sub ids now).jobId 1 ids.toAttemptIds now)
            ids.toAttemptIds now, ids.token, sub.requestJson⟩, t) := by
  have hjob : load JobRecord.Accepted (newJob stableHash sub ids now) = .ok _ :=
    if_pos ⟨hvalid, hdigest _, hdigest _⟩
  have hattempt : load JobAttempt.Accepted (newAttempt stableHash
      (newJob stableHash sub ids now).jobId 1 ids.toAttemptIds now) = .ok _ :=
    if_pos ⟨le_refl 1, hdigest _⟩
  have hevent : load OutboxEvent.Accepted (newOutbox stableHash (newJob stableHash sub ids now)
      (newAttempt stableHash (newJob stableHash sub ids now).jobId 1 ids.toAttemptIds now)
      ids.toAttemptIds now) = .ok _ :=
    if_pos ⟨le_refl 1, hvalid.taskSchemaVersion, hdigest _, hdigest _⟩
  unfold insertNewJob
  rw [hjob, except_bind_ok, hattempt, except_bind_ok, hevent, except_bind_ok]
  change (db.insert (createdRows stableHash sub ids now) >>= _) = _
  cases db.insert (createdRows stableHash sub ids now) <;> rfl

omit hdigest in
theorem clashes_iff_taken
    (hnone : db.findIdempotent sub.workspaceId (stableHash sub.idempotencyKey) = none) :
    (∃ x ∈ db.jobs.rows, x.jobId = (createdRows stableHash sub ids now).jobId ∨
        (createdRows stableHash sub ids now).Clashes x) ↔
      db.Taken (createdRows stableHash sub ids now) := by
  constructor
  · rintro ⟨x, hx, hid | hkey | hrest⟩
    · exact ⟨x, hx, .inl hid⟩
    · exact absurd (decide_eq_true hkey) (List.find?_eq_none.mp hnone x hx)
    · exact ⟨x, hx, .inr hrest⟩
  · rintro ⟨x, hx, hid | hrest⟩
    · exact ⟨x, hx, .inl hid⟩
    · exact ⟨x, hx, .inr (.inr hrest)⟩

variable (sub ids now) in
omit hdigest in
/-- The four insertions succeed exactly when the drawn ids are new. -/
theorem insert_cases
    (hnone : db.findIdempotent sub.workspaceId (stableHash sub.idempotencyKey) = none) :
    (db.Taken (createdRows stableHash sub ids now) ∧
        db.insert (createdRows stableHash sub ids now) = .error .integrity) ∨
      (¬ db.Taken (createdRows stableHash sub ids now) ∧
        ∃ u, db.jobs.insert (createdRows stableHash sub ids now) = some u ∧
          db.insert (createdRows stableHash sub ids now) = .ok { db with jobs := u }) := by
  by_cases htaken : db.Taken (createdRows stableHash sub ids now)
  · refine .inl ⟨htaken, ?_⟩
    cases hins : db.insert (createdRows stableHash sub ids now) with
    | error e =>
      unfold Database.insert at hins
      split_ifs at hins
      · cases hins
        rfl
      · rw [except_map_eq_error_iff, orError_eq_error_iff] at hins
        rw [hins.2]
    | ok t =>
      obtain ⟨hclash, u, hu, _⟩ := insert_eq_ok hins
      obtain ⟨x, hx, hid | hc⟩ := (clashes_iff_taken hnone).mpr htaken
      · exact absurd (List.mem_map.mpr ⟨x, hx, hid⟩) (Table.insert_fresh hu)
      · exact absurd hc (hclash x hx)
  · have hnew : (createdRows stableHash sub ids now).jobId ∉ db.jobs.rows.map JobRows.jobId := by
      intro hmem
      obtain ⟨x, hx, hid⟩ := List.mem_map.mp hmem
      exact htaken ⟨x, hx, .inl hid⟩
    obtain ⟨u, hu⟩ := Table.exists_insert hnew
    refine .inr ⟨htaken, u, hu, ?_⟩
    unfold Database.insert
    rw [if_neg, hu]
    · rfl
    · intro hany
      obtain ⟨x, hx, hc⟩ := List.any_eq_true.mp hany
      exact htaken ((clashes_iff_taken hnone).mp ⟨x, hx, .inr (of_decide_eq_true hc)⟩)

omit hdigest in
/-- Local inserts no job under taken ids. -/
theorem SameJobs.not_taken (h : SameJobs s db) {t : ControlPlane.Store}
    (hins : Inserted stableHash sub ids now s t) :
    ¬ db.Taken (createdRows stableHash sub ids now) := by
  rintro ⟨x, hx, hid | hid | hid | hid⟩
  · refine Table.insert_fresh hins.jobs ?_
    rw [h.jobs, List.map_map]
    exact List.mem_map.mpr ⟨x, hx, (h.mirrored x hx).jobId.trans hid⟩
  · refine Table.insert_fresh hins.attempts ?_
    rw [h.attempts, List.map_map]
    exact List.mem_map.mpr ⟨x, hx, (h.mirrored x hx).attemptId.trans hid⟩
  · refine Table.insert_fresh hins.outbox ?_
    rw [h.outbox, List.map_map]
    exact List.mem_map.mpr ⟨x, hx, hid⟩
  · refine hins.key x.storedEvent ?_ hid
    rw [h.outbox]
    exact List.mem_map_of_mem hx

end Digests

end Create

section Calls

variable {stableHash : String → String} {b : Stores} {c c' : Call}

theorem sameCall_iff_of_kept (h : SameJobs b.sqlite b.postgres)
    (hs : (c.sqlite stableHash b.sqlite).2 = b.sqlite)
    (hp : (c.postgres stableHash b.postgres).2 = b.postgres) :
    SameCall stableHash b c ↔
      (c.sqlite stableHash b.sqlite).1 = (c.postgres stableHash b.postgres).1 := by
  constructor
  · exact SameCall.answer
  · intro hanswer
    have hstep : b.step stableHash c = b := by
      unfold Stores.step
      rw [hs, hp]
    exact ⟨hanswer, by rwa [hstep], by rw [hstep], by rw [hstep]⟩

theorem sameCall_congr (hs : c.sqlite stableHash b.sqlite = c'.sqlite stableHash b.sqlite)
    (hp : c.postgres stableHash b.postgres = c'.postgres stableHash b.postgres) :
    SameCall stableHash b c ↔ SameCall stableHash b c' := by
  have hstep : b.step stableHash c = b.step stableHash c' := by
    unfold Stores.step
    rw [hs, hp]
  constructor
  · rintro ⟨ha, hg, hd, he⟩
    exact ⟨by rw [← hs, ← hp]; exact ha, by rwa [← hstep], by rw [← hstep, hd],
      by rw [← hstep, he]⟩
  · rintro ⟨ha, hg, hd, he⟩
    exact ⟨by rw [hs, hp]; exact ha, by rwa [hstep], by rw [hstep, hd], by rw [hstep, he]⟩

theorem replays_eq_iff {requestJson requestHash : String} :
    r.sqliteReplay requestHash = r.postgresReplay requestJson requestHash ↔
      (r.job.jobJson.requestHash = requestHash → r.request.requestJson = requestJson) := by
  unfold JobRows.sqliteReplay JobRows.postgresReplay
  split_ifs with hhash
  · simp [hhash]
  · simp [hhash]

variable (hdigest : ∀ text, IsDigest (stableHash text))

include hdigest

/-- `create_job` is the same call on both stores exactly when it creates nothing. -/
theorem sameCall_createJob_iff (h : SameJobs b.sqlite b.postgres) (sub : JobSubmission)
    (ids : JobIds) (now : Timestamp) :
    SameCall stableHash b (.createJob sub ids now) ↔
      b.postgres.CreatesNothing stableHash sub ids now := by
  unfold Database.CreatesNothing
  cases hfind : b.postgres.findIdempotent sub.workspaceId (stableHash sub.idempotencyKey) with
  | some r =>
    have hmem : r ∈ b.postgres.jobs.rows := List.mem_of_find?_eq_some hfind
    have hsqlite := h.createJob_sqlite_found ids now hfind
    have hpostgres := (h.replays hmem).createJob_found ids now hfind
    dsimp only
    rw [sameCall_iff_of_kept h, ← replays_eq_iff]
    · dsimp only [Call.sqlite, Call.postgres]
      rw [hsqlite, hpostgres]
      dsimp only [Prod.map]
      constructor
      · intro heq
        cases hl : r.sqliteReplay (stableHash sub.requestJson) <;>
          cases hr : r.postgresReplay sub.requestJson (stableHash sub.requestJson) <;>
          simp_all [Except.map]
      · intro heq
        rw [heq]
    · dsimp only [Call.sqlite]
      rw [hsqlite]
      rfl
    · dsimp only [Call.postgres]
      rw [hpostgres]
      rfl
  | none =>
    have hsqlite := h.createJob_sqlite_none ids now hfind
    have hpostgres := createJob_postgres_none ids now hfind
    dsimp only
    by_cases hvalid : (newJob stableHash sub ids now).Valid
    · rw [insertNewJob_postgres_valid hdigest hvalid] at hpostgres
      rcases insert_cases sub ids now hfind with ⟨htaken, hins⟩ | ⟨hnew, u, _, hins⟩
      · rw [hins] at hpostgres
        have hrefused : ControlPlane.insertNewJob stableHash sub ids now b.sqlite =
            .error .integrity := by
          cases hl : ControlPlane.insertNewJob stableHash sub ids now b.sqlite with
          | error e => rw [insertNewJob_error hvalid hl]
          | ok x => exact absurd htaken (h.not_taken (insertNewJob_ok _ hl).1)
        rw [hrefused] at hsqlite
        refine iff_of_true ?_ (.inr htaken)
        rw [sameCall_iff_of_kept h] <;> dsimp only [Call.sqlite, Call.postgres] <;>
          first | rw [hsqlite, hpostgres]; rfl | rw [hsqlite]; rfl | rw [hpostgres]; rfl
      · rw [hins] at hpostgres
        refine iff_of_false ?_ (not_or.mpr ⟨not_not_intro hvalid, hnew⟩)
        intro hsame
        cases hl : ControlPlane.insertNewJob stableHash sub ids now b.sqlite with
        | error e =>
          have hanswer := hsame.answer
          dsimp only [Call.sqlite, Call.postgres] at hanswer
          rw [hsqlite, hpostgres, hl] at hanswer
          cases hanswer
        | ok x =>
          obtain ⟨created, t⟩ := x
          have hruns := hsame.domainRuns
          dsimp only [Stores.step, Call.sqlite] at hruns
          rw [hsqlite, hl] at hruns
          have hgrown := Table.rows_insert (insertNewJob_ok _ hl).1.domainRuns
          rw [show t.domainRuns = b.sqlite.domainRuns from hruns] at hgrown
          exact absurd (congrArg List.length hgrown) (by simp)
    · rw [insertNewJob_postgres_invalid hvalid] at hpostgres
      rw [insertNewJob_invalid hvalid] at hsqlite
      refine iff_of_true ?_ (.inl hvalid)
      rw [sameCall_iff_of_kept h] <;> dsimp only [Call.sqlite, Call.postgres] <;>
        first | rw [hsqlite, hpostgres]; rfl | rw [hsqlite]; rfl | rw [hpostgres]; rfl

omit hdigest in
theorem sameCall_getJob (h : SameJobs b.sqlite b.postgres) (jobId : String) :
    SameCall stableHash b (.getJob jobId) := by
  rw [sameCall_iff_of_kept h rfl rfl]
  dsimp only [Call.sqlite, Call.postgres, Prod.map, ControlPlane.getJob, Team.getJob]
  rw [h.find?_jobs]
  cases hr : b.postgres.jobs.find? jobId with
  | none => rfl
  | some r =>
    have hjob := load_eq_ok_iff.mpr ⟨(h.mirrored r (Table.find?_mem hr)).job, rfl⟩
    rw [orError_some, except_bind_ok, hjob]
    rfl

omit hdigest in
/-- The rows after a cancellation repeat their columns as before. -/
theorem JobRows.Mirrored.cancel {now : Timestamp} (h : r.Mirrored)
    (hterm : ¬ r.job.jobJson.status.Terminal) :
    (r.writeJob (r.job.jobJson.cancel now) now).Mirrored where
  jobId := h.jobId
  workspaceId := h.workspaceId
  key := h.key
  request := h.request
  attemptJob := h.attemptJob
  attemptId := h.attemptId
  number := h.number
  jsonNumber := h.jsonNumber
  job := cancel_accepted h.job hterm
  attempt := h.attempt
  event := h.event

omit hdigest in
/-- Both stores write the same cancelled record. -/
theorem SameJobs.cancel {s : ControlPlane.Store} {db : Database} (h : SameJobs s db)
    (hr : r ∈ db.jobs.rows) {now : Timestamp} (hterm : ¬ r.job.jobJson.status.Terminal) :
    SameJobs (s.updateJob (r.job.jobJson.cancel now))
      (db.update (r.writeJob (r.job.jobJson.cancel now) now)) := by
  have hkey := (h.mirrored r hr).jobId
  have hfind : db.jobs.find? (r.writeJob (r.job.jobJson.cancel now) now).jobId = some r :=
    Table.find?_of_mem hr
  refine ⟨?_, ?_, ?_, ?_, ?_⟩
  · rw [Store.updateJob_jobs, Table.rows_replace, h.jobs, Database.update_jobs,
      Table.rows_replace, List.map_map, List.map_map]
    apply List.map_congr_left
    intro x hx
    have hcond : x.job.jobJson.jobId = (r.job.jobJson.cancel now).jobId ↔
        x.jobId = (r.writeJob (r.job.jobJson.cancel now) now).jobId := by
      rw [(h.mirrored x hx).jobId, show (r.job.jobJson.cancel now).jobId = _ from hkey]
      rfl
    simp only [Function.comp_apply]
    by_cases hid : x.jobId = (r.writeJob (r.job.jobJson.cancel now) now).jobId
    · rw [if_pos hid, if_pos (hcond.mpr hid)]
      rfl
    · rw [if_neg hid, if_neg (mt hcond.mp hid)]
  · exact h.requests.trans (Table.map_replace hfind JobRows.request rfl).symm
  · exact h.attempts.trans
      (Table.map_replace hfind (fun x : JobRows => x.attempt.attemptJson) rfl).symm
  · exact h.outbox.trans (Table.map_replace hfind JobRows.storedEvent rfl).symm
  · intro x hx
    rw [Database.update_jobs, Table.mem_replace (Option.isSome_iff_exists.mpr ⟨r, hfind⟩)] at hx
    rcases hx with rfl | ⟨hx, _⟩
    · exact (h.mirrored r hr).cancel hterm
    · exact h.mirrored x hx

omit hdigest in
/-- `request_cancel` is the same call on both stores, except that Team cancels where
`JOB_TRANSITIONS` does not let Local. -/
theorem sameCall_requestCancel_iff (h : SameJobs b.sqlite b.postgres) (jobId : String)
    (now : Timestamp) :
    SameCall stableHash b (.requestCancel jobId now) ↔
      ∀ r ∈ b.postgres.jobs.find? jobId,
        r.job.jobJson.status.Terminal ∨
          JobStatus.cancelling ∈ jobTransitions r.job.jobJson.status := by
  have hsqlite := h.find?_jobs jobId
  cases hr : b.postgres.jobs.find? jobId with
  | none =>
    rw [hr] at hsqlite
    refine iff_of_true ?_ (fun r hr => nomatch hr)
    rw [sameCall_iff_of_kept h] <;>
      simp only [Call.sqlite, Call.postgres, ControlPlane.requestCancel, Team.requestCancel,
        hsqlite, hr, Option.map_none, orError_none, except_bind_error, commit_error] <;> rfl
  | some r =>
    rw [hr, Option.map_some] at hsqlite
    have hmem := Table.find?_mem hr
    have hacc := (h.mirrored r hmem).job
    have hjob := load_eq_ok_iff.mpr ⟨hacc, rfl⟩
    simp only [Option.mem_def, Option.some.injEq, forall_eq']
    by_cases hterm : r.job.jobJson.status.Terminal
    · have hlocal : ControlPlane.requestCancel jobId now b.sqlite =
          (.ok r.job.jobJson, b.sqlite) := by
        unfold ControlPlane.requestCancel
        rw [hsqlite, orError_some, except_bind_ok, if_pos hterm]
        rfl
      have hteam : Team.requestCancel jobId now b.postgres =
          (.ok r.job.jobJson, b.postgres) := by
        unfold Team.requestCancel
        rw [hr, orError_some, except_bind_ok, hjob, except_bind_ok, if_pos hterm]
        rfl
      refine iff_of_true ?_ (.inl hterm)
      rw [sameCall_iff_of_kept h] <;> dsimp only [Call.sqlite, Call.postgres] <;>
        first | rw [hlocal, hteam]; rfl | rw [hlocal]; rfl | rw [hteam]; rfl
    · have hteam : Team.requestCancel jobId now b.postgres =
          (.ok (r.job.jobJson.cancel now),
            b.postgres.update (r.writeJob (r.job.jobJson.cancel now) now)) := by
        unfold Team.requestCancel
        rw [hr, orError_some, except_bind_ok, hjob, except_bind_ok, if_neg hterm]
        rfl
      by_cases hedge : JobStatus.cancelling ∈ jobTransitions r.job.jobJson.status
      · have hvalid : (r.job.jobJson.cancel now).validate = .ok (r.job.jobJson.cancel now) :=
          if_pos (cancel_accepted hacc hterm).valid
        have hlocal : ControlPlane.requestCancel jobId now b.sqlite =
            (.ok (r.job.jobJson.cancel now), b.sqlite.updateJob (r.job.jobJson.cancel now)) := by
          unfold ControlPlane.requestCancel
          rw [hsqlite, orError_some, except_bind_ok, if_neg hterm, ensure_pos hedge,
            except_bind_ok, hvalid]
          rfl
        refine iff_of_true ⟨?_, ?_, ?_, ?_⟩ (.inr hedge) <;>
          dsimp only [Stores.step, Call.sqlite, Call.postgres]
        · rw [hlocal, hteam]
          rfl
        · rw [hlocal, hteam]
          exact h.cancel hmem hterm
        · rw [hlocal]
          rfl
        · rw [hlocal]
          rfl
      · have hlocal : ControlPlane.requestCancel jobId now b.sqlite =
            (.error (.controlPlane "job_cannot_cancel"), b.sqlite) := by
          unfold ControlPlane.requestCancel
          rw [hsqlite, orError_some, except_bind_ok, if_neg hterm, ensure_neg hedge]
          rfl
        refine iff_of_false ?_ (not_or.mpr ⟨hterm, hedge⟩)
        intro hsame
        have hanswer := hsame.answer
        dsimp only [Call.sqlite, Call.postgres] at hanswer
        rw [hlocal, hteam] at hanswer
        cases hanswer

/-- A manual retry of a terminal job is the `create_job` of its retry submission. -/
theorem sameCall_createManualRetry_iff (h : SameJobs b.sqlite b.postgres)
    (jobId manualHex : String) (ids : JobIds) (now : Timestamp) :
    SameCall stableHash b (.createManualRetry jobId manualHex ids now) ↔
      ∀ r ∈ b.postgres.jobs.find? jobId, r.job.jobJson.status.Terminal →
        b.postgres.CreatesNothing stableHash
          (retrySubmission r.job.jobJson r.request.requestJson jobId manualHex) ids now := by
  have hsqlite := h.find?_jobs jobId
  cases hr : b.postgres.jobs.find? jobId with
  | none =>
    rw [hr] at hsqlite
    refine iff_of_true ?_ (fun r hr => nomatch hr)
    rw [sameCall_iff_of_kept h] <;>
      simp only [Call.sqlite, Call.postgres, ControlPlane.createManualRetry,
        Team.createManualRetry, Team.getJob, hsqlite, hr, Option.map_none, orError_none,
        except_bind_error] <;> rfl
  | some r =>
    rw [hr, Option.map_some] at hsqlite
    have hmem := Table.find?_mem hr
    have hjob := load_eq_ok_iff.mpr ⟨(h.mirrored r hmem).job, rfl⟩
    have hkey : r.jobId = jobId := Table.find?_key hr
    have hid : r.job.jobJson.jobId = jobId := (h.mirrored r hmem).jobId.trans hkey
    have hget : Team.getJob jobId b.postgres = .ok r.job.jobJson := by
      unfold Team.getJob
      rw [hr, orError_some, except_bind_ok, hjob]
    have hrequest : b.sqlite.getJobRequestIn jobId = .ok r.request.requestJson :=
      hid ▸ h.getJobRequestIn hmem
    simp only [Option.mem_def, Option.some.injEq, forall_eq']
    by_cases hterm : r.job.jobJson.status.Terminal
    · rw [← sameCall_createJob_iff hdigest h, imp_iff_right hterm]
      apply sameCall_congr
      · dsimp only [Call.sqlite, ControlPlane.createManualRetry]
        rw [hsqlite]
        dsimp only
        rw [if_neg (not_not_intro hterm), hrequest]
        rfl
      · dsimp only [Call.postgres, Team.createManualRetry]
        rw [hget]
        dsimp only
        rw [if_neg (not_not_intro hterm), hr]
        rfl
    · have hlocal : ControlPlane.createManualRetry stableHash jobId manualHex ids now b.sqlite =
          (.error (.controlPlane "manual_retry_requires_terminal_job"), b.sqlite) := by
        unfold ControlPlane.createManualRetry
        rw [hsqlite]
        dsimp only
        rw [if_pos hterm]
      have hteam : Team.createManualRetry stableHash jobId manualHex ids now b.postgres =
          (.error (.controlPlane "manual_retry_requires_terminal_job"), b.postgres) := by
        unfold Team.createManualRetry
        rw [hget]
        dsimp only
        rw [if_pos hterm]
      refine iff_of_true ?_ (fun ht => absurd ht hterm)
      rw [sameCall_iff_of_kept h] <;> dsimp only [Call.sqlite, Call.postgres] <;>
        first | rw [hlocal, hteam]; rfl | rw [hlocal]; rfl | rw [hteam]; rfl

theorem sameCall_iff (h : SameJobs b.sqlite b.postgres) (c : Call) :
    SameCall stableHash b c ↔ c.Plain stableHash b.postgres := by
  cases c with
  | createJob sub ids now => exact sameCall_createJob_iff hdigest h sub ids now
  | getJob jobId => exact iff_of_true (sameCall_getJob h jobId) trivial
  | requestCancel jobId now => exact sameCall_requestCancel_iff h jobId now
  | createManualRetry jobId manualHex ids now =>
    exact sameCall_createManualRetry_iff hdigest h jobId manualHex ids now

theorem sameCalls_iff (h : SameJobs b.sqlite b.postgres) (calls : List Call) :
    Machine.EachStep (Stores.step stableHash) (SameCall stableHash) b calls ↔
      Machine.EachStep (Stores.step stableHash) (fun b c => c.Plain stableHash b.postgres) b
        calls := by
  refine Machine.eachStep_iff (Stores.step stableHash)
    (fun b => SameJobs b.sqlite b.postgres) ?_ ?_ h calls
  · intro b c _ hsame
    exact hsame.agrees
  · intro b c hb
    exact sameCall_iff hdigest hb c

end Calls

end CodeResearch.Team
