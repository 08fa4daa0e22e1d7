import CodeResearch.Team.Worker

/-!
# What a transaction does to one job

The rows and executions of a job change by one of a few steps, whatever the transaction
and whichever other jobs it touches. Invariants of a job are proved against these steps.
-/
namespace CodeResearch.Team

open ControlPlane

section Hashing

variable (stableHash : String → String)

/-- The rows that `create_job` inserts for a submission. -/
def createdRows (sub : JobSubmission) (ids : JobIds) (now : Timestamp) : JobRows :=
  let job := newJob stableHash sub ids now
  let attempt := newAttempt stableHash job.jobId 1 ids.toAttemptIds now
  newRows job attempt (newOutbox stableHash job attempt ids.toAttemptIds now) sub.requestJson now

/-- Rows as `create_job` inserts them. -/
def JobRows.New (r : JobRows) : Prop :=
  ∃ sub ids now, r = createdRows stableHash sub ids now ∧ r.job.jobJson.Accepted ∧
    r.attempt.attemptJson.Accepted

/-- What a committed transaction does to the rows and the executions of one job. -/
inductive JobStep :
    Step → Option JobRows × List Execution → Option JobRows × List Execution → Prop
  | kept (a : Step) (v : Option JobRows × List Execution) : JobStep a v v
  | created {a : Step} {r : JobRows} {xs : List Execution} (fresh : r.New stableHash) :
      JobStep a (none, xs) (some r, xs)
  | eventClaimed {dispatcherId : String} {minSchema maxSchema batchSize : ℕ}
      {locked : String → Bool} {tokens : String → String} {now : Timestamp} {r : JobRows}
      {xs : List Execution}
      (unpublished : r.event.status = .pending ∨ r.event.status = .publishing) :
      JobStep (.claimOutboxBatch dispatcherId minSchema maxSchema batchSize locked tokens now)
        (some r, xs)
        (some (r.claimEvent stableHash dispatcherId (tokens r.event.outboxEventId) now), xs)
  | acknowledged {eventId token messageId : String} {now : Timestamp} {r : JobRows}
      {xs : List Execution} (acknowledges : r.Acknowledges stableHash eventId token) :
      JobStep (.acknowledge eventId token messageId now) (some r, xs)
        (some (r.acknowledge messageId now), xs)
  | claimed {workerId : String} {capabilities : Capabilities} {queueNames : List String}
      {locked : String → Bool} {token : String} {celeryTaskId : Option String}
      {now : Timestamp} {r : JobRows} {xs : List Execution}
      (dispatched : r.job.status = .dispatched ∧ r.attempt.status = .dispatched) :
      JobStep (.claimNextJob workerId capabilities queueNames locked token celeryTaskId now)
        (some r, xs)
        (some (r.claim stableHash (stableHash workerId) token now),
          xs ++ [⟨⟨r.job.jobId, r.job.workspaceId, r.job.projectId, r.attempt.attemptId, token,
            r.job.requestHash⟩, stableHash workerId, celeryTaskId, .claimed⟩])
  | read {jobId : String} {k : ℕ} {r : JobRows} {xs : List Execution} {x : Execution}
      {job : JobRecord} {attempt : JobAttempt} (at_k : xs[k]? = some x)
      (phase : x.phase = .claimed) (returned : r.read stableHash x.claim = .ok (job, attempt)) :
      JobStep (.readClaimed jobId k) (some r, xs)
        (some r, xs.set k { x with phase := .read job attempt })
  | raised {jobId : String} {k : ℕ} {o : Option JobRows} {xs : List Execution} {x : Execution}
      (at_k : xs[k]? = some x) (phase : x.phase = .claimed)
      (refused : ∀ r ∈ o, ∀ copies, r.read stableHash x.claim ≠ .ok copies) :
      JobStep (.readClaimed jobId k) (o, xs) (o, xs.set k { x with phase := .ended })
  | started {jobId : String} {k : ℕ} {now : Timestamp} {o : Option JobRows}
      {xs : List Execution} {x : Execution} {job : JobRecord} {attempt : JobAttempt}
      (at_k : xs[k]? = some x) (phase : x.phase = .read job attempt) :
      JobStep (.writeRunning jobId k now) (o, xs)
        (o.map fun r => r.start stableHash x.claim x.workerIdHash x.celeryTaskId job attempt now,
          xs.set k { x with phase := .handling })
  | finalized {jobId : String} {k : ℕ} {outcome : Outcome} {now : Timestamp}
      {o : Option JobRows} {xs : List Execution} {x : Execution} (at_k : xs[k]? = some x)
      (phase : x.phase = .handling) :
      JobStep (.finalize jobId k outcome now) (o, xs)
        (o.map fun r =>
            (r.finalize stableHash x.claim.attemptId x.claim.executionToken outcome
              now).toOption.getD r,
          xs.set k { x with phase := .ended })
  | cancelled {jobId : String} {now : Timestamp} {r : JobRows} {xs : List Execution}
      (accepted : r.job.jobJson.Accepted) (unfinished : ¬ r.job.jobJson.status.Terminal) :
      JobStep (.requestCancel jobId now) (some r, xs)
        (some (r.writeJob (r.job.jobJson.cancel now) now), xs)

end Hashing

section Rows

variable {stableHash : String → String} {db : Database} {jobId : String}

variable {r : JobRows} {now : Timestamp} {attemptId token : String} {outcome : Outcome}

theorem find?_update {r' : JobRows} (hr : db.jobs.find? r.jobId = some r)
    (hid : r'.jobId = r.jobId) :
    (db.update r').jobs.find? jobId =
      if jobId = r.jobId then some r' else db.jobs.find? jobId := by
  rw [Database.update_jobs]
  split_ifs with h
  · rw [h]
    exact Table.find?_replace_of_key hid (Option.isSome_iff_exists.mpr ⟨r, hr⟩)
  · exact Table.find?_replace_of_ne _ (by rw [hid]; exact h)

theorem load_eq_ok_iff {ρ : Type} {Accepted : ρ → Prop} [DecidablePred Accepted] {json a : ρ} :
    load Accepted json = .ok a ↔ Accepted json ∧ json = a := by
  unfold load
  split_ifs with h <;> simp [h]

theorem insert_eq_ok {t : Database} (h : db.insert r = .ok t) :
    (∀ x ∈ db.jobs.rows, ¬ r.Clashes x) ∧ ∃ u, db.jobs.insert r = some u ∧
      t = { db with jobs := u } := by
  unfold Database.insert at h
  split_ifs at h with hclash
  rw [except_map_eq_ok_iff] at h
  obtain ⟨u, hu, rfl⟩ := h
  refine ⟨?_, u, orError_eq_ok_iff.mp hu, rfl⟩
  intro x hx hc
  exact hclash (List.any_eq_true.mpr ⟨x, hx, decide_eq_true hc⟩)

theorem insertNewJob_eq_ok {sub : JobSubmission} {ids : JobIds}
    {created : CreatedJob} {t : Database}
    (h : insertNewJob stableHash sub ids now db = .ok (created, t)) :
    (createdRows stableHash sub ids now).New stableHash ∧
      db.insert (createdRows stableHash sub ids now) = .ok t := by
  simp only [insertNewJob, except_bind_eq_ok_iff, load_eq_ok_iff, except_pure_eq_ok_iff] at h
  obtain ⟨job, ⟨hjob, rfl⟩, attempt, ⟨hattempt, rfl⟩, event, ⟨_, rfl⟩, u, hu, heq⟩ := h
  cases heq
  exact ⟨⟨sub, ids, now, rfl, hjob, hattempt⟩, hu⟩

theorem createJob_cases (sub : JobSubmission) (ids : JobIds) (now : Timestamp) (db : Database) :
    (createJob stableHash sub ids now db).2 = db ∨
      ∃ r u, r.New stableHash ∧ (∀ x ∈ db.jobs.rows, ¬ r.Clashes x) ∧
        db.jobs.insert r = some u ∧
        (createJob stableHash sub ids now db).2 = { db with jobs := u } := by
  unfold createJob
  cases hfound : db.findIdempotent sub.workspaceId (stableHash sub.idempotencyKey) with
  | some r =>
    left
    dsimp only
    cases replayJob r sub.requestJson (stableHash sub.requestJson) db with
    | error | ok => rfl
  | none =>
    dsimp only
    rcases transact_cases db (insertNewJob stableHash sub ids now db) with
      ⟨e, _, h⟩ | ⟨created, t, hnew, h⟩
    · exact .inl (by rw [h])
    · obtain ⟨hfresh, hins⟩ := insertNewJob_eq_ok hnew
      obtain ⟨hclash, u, hu, rfl⟩ := insert_eq_ok hins
      exact .inr ⟨_, u, hfresh, hclash, hu, by rw [h]⟩

theorem createManualRetry_cases (jobId manualHex : String) (ids : JobIds) (now : Timestamp)
    (db : Database) :
    (createManualRetry stableHash jobId manualHex ids now db).2 = db ∨
      ∃ r u, r.New stableHash ∧ (∀ x ∈ db.jobs.rows, ¬ r.Clashes x) ∧
        db.jobs.insert r = some u ∧
        (createManualRetry stableHash jobId manualHex ids now db).2 = { db with jobs := u } := by
  unfold createManualRetry
  cases getJob jobId db with
  | error e => exact .inl rfl
  | ok job =>
    dsimp only
    split_ifs
    · cases db.jobs.find? jobId with
      | none => exact .inl rfl
      | some r => exact createJob_cases _ ids now db
    · exact .inl rfl

theorem jobStep_insert {u : Table JobRows.jobId} (a : Step)
    (xs : List Execution) (hr : r.New stableHash) (hu : db.jobs.insert r = some u) :
    JobStep stableHash a (db.jobs.find? jobId, xs) (u.find? jobId, xs) := by
  by_cases h : jobId = r.jobId
  · subst h
    have hnone : db.jobs.find? r.jobId = none :=
      db.jobs.find?_eq_none_iff.mpr (Table.insert_fresh hu)
    rw [hnone, Table.find?_insert_self hu]
    exact .created hr
  · rw [Table.find?_insert_of_ne hu h]
    exact .kept _ _

variable (stableHash) in
theorem find?_claimOutboxBatch {dispatcherId : String} {minSchema maxSchema batchSize : ℕ}
    {locked : String → Bool} {tokens : String → String} :
    let t := (claimOutboxBatch stableHash dispatcherId minSchema maxSchema batchSize locked tokens
      now db).2
    t.jobs.find? jobId = db.jobs.find? jobId ∨
      ∃ r, db.jobs.find? jobId = some r ∧
        r.event.Claimable db.workers.rows minSchema maxSchema now ∧
        t.jobs.find? jobId =
          some (r.claimEvent stableHash dispatcherId (tokens r.event.outboxEventId) now) := by
  dsimp only [claimOutboxBatch]
  rw [Table.find?_updateWhere]
  cases hr : db.jobs.find? jobId with
  | none => exact .inl rfl
  | some r =>
    rw [Option.map_some]
    split_ifs with hmem
    · obtain ⟨x, hx, hid⟩ := List.mem_map.mp (of_decide_eq_true hmem)
      obtain ⟨hrow, hclaim⟩ := mem_outboxCandidates hx
      have hxr : x = r := db.jobs.eq_of_key_eq hrow (Table.find?_mem hr) hid
      subst hxr
      exact .inr ⟨x, rfl, hclaim, rfl⟩
    · exact .inl rfl

theorem acknowledge_jobId (r : JobRows) (messageId : String) (now : Timestamp) :
    (r.acknowledge messageId now).jobId = r.jobId := by
  unfold JobRows.acknowledge JobRows.jobId JobRow.dispatch
  dsimp only
  split_ifs <;> rfl

variable (stableHash) in
theorem acknowledge_cases (eventId token messageId : String) (now : Timestamp) (db : Database) :
    (acknowledgeOutboxPublish stableHash eventId token messageId now db = (false, db) ∧
        ∀ r ∈ db.jobs.rows, ¬ r.Acknowledges stableHash eventId token) ∨
      ∃ r ∈ db.jobs.rows, r.Acknowledges stableHash eventId token ∧
        (acknowledgeOutboxPublish stableHash eventId token messageId now db).2 =
          db.update (r.acknowledge messageId now) := by
  unfold acknowledgeOutboxPublish
  cases hfound : db.jobs.rows.find? fun r => r.Acknowledges stableHash eventId token with
  | none =>
    refine .inl ⟨rfl, fun r hr hack => ?_⟩
    exact List.find?_eq_none.mp hfound r hr (decide_eq_true hack)
  | some r =>
    have hack := List.find?_some hfound
    exact .inr ⟨r, List.mem_of_find?_eq_some hfound, of_decide_eq_true hack, rfl⟩

variable (stableHash) in
theorem claimNextJob_cases (workerId : String) (capabilities : Capabilities)
    (queueNames : List String) (locked : String → Bool) (rawToken : String) (now : Timestamp)
    (db : Database) :
    claimNextJob stableHash workerId capabilities queueNames locked rawToken now db = (none, db) ∨
      ∃ r ∈ db.jobs.rows,
        r.Claimable db.workers.rows (stableHash workerId) capabilities queueNames ∧
        claimNextJob stableHash workerId capabilities queueNames locked rawToken now db =
          (some ⟨r.job.jobId, r.job.workspaceId, r.job.projectId, r.attempt.attemptId, rawToken,
              r.job.requestHash⟩,
            db.update (r.claim stableHash (stableHash workerId) rawToken now)) := by
  unfold claimNextJob
  cases hfound : db.jobCandidate (stableHash workerId) capabilities queueNames locked with
  | none => exact .inl rfl
  | some r =>
    obtain ⟨hr, hclaim⟩ := jobCandidate_eq_some hfound
    exact .inr ⟨r, hr, hclaim, rfl⟩

theorem find?_writeRunning {claim : Claim} {workerIdHash : String} {celeryTaskId : Option String}
    {job : JobRecord} {attempt : JobAttempt} :
    (writeRunning stableHash claim workerIdHash celeryTaskId job attempt now db).jobs.find? jobId =
      if jobId = claim.jobId then
        (db.jobs.find? jobId).map fun r =>
          r.start stableHash claim workerIdHash celeryTaskId job attempt now
      else db.jobs.find? jobId := by
  unfold writeRunning
  cases hr : db.jobs.find? claim.jobId with
  | none =>
    split_ifs with h
    · rw [h, hr]
      rfl
    · rfl
  | some r =>
    have hkey : r.jobId = claim.jobId := Table.find?_key hr
    dsimp only
    have hid : (r.start stableHash claim workerIdHash celeryTaskId job attempt now).jobId =
      r.jobId := rfl
    rw [find?_update (hkey ▸ hr) hid, hkey]
    split_ifs with h
    · rw [h, hr]
      rfl
    · rfl

theorem finalize_jobId {t : JobRows}
    (h : r.finalize stableHash attemptId token outcome now = .ok t) :
    t.jobId = r.jobId := by
  unfold JobRows.finalize at h
  split_ifs at h
  · simp only [except_bind_eq_ok_iff, load_eq_ok_iff] at h
    obtain ⟨job, _, attempt, _, h⟩ := h
    split_ifs at h <;> cases h <;> rfl
  · cases h
    rfl

theorem find?_finalize (id : String) :
    (finalize stableHash id attemptId token outcome now db).2.jobs.find? jobId =
      if jobId = id then
        (db.jobs.find? jobId).map fun r =>
          (r.finalize stableHash attemptId token outcome now).toOption.getD r
      else db.jobs.find? jobId := by
  unfold finalize
  cases hr : db.jobs.find? id with
  | none =>
    split_ifs with h
    · rw [h, hr]
      rfl
    · rfl
  | some r =>
    have hkey : r.jobId = id := Table.find?_key hr
    dsimp only
    cases hfin : r.finalize stableHash attemptId token outcome now with
    | error e =>
      split_ifs with h
      · rw [h, hr, Option.map_some, hfin]
        exact hr
      · rfl
    | ok t =>
      have hid := finalize_jobId hfin
      change (db.update t).jobs.find? jobId = _
      rw [find?_update (hkey ▸ hr) hid, hkey]
      split_ifs with h
      · rw [h, hr, Option.map_some, hfin]
        rfl
      · rfl

theorem requestCancel_cases (id : String) (now : Timestamp) (db : Database) :
    (requestCancel id now db).2 = db ∨
      ∃ r, db.jobs.find? id = some r ∧ r.job.jobJson.Accepted ∧
        ¬ r.job.jobJson.status.Terminal ∧
        requestCancel id now db = (.ok (r.job.jobJson.cancel now),
          db.update (r.writeJob (r.job.jobJson.cancel now) now)) := by
  unfold requestCancel
  cases hr : db.jobs.find? id with
  | none => exact .inl rfl
  | some r =>
    rw [orError_some, except_bind_ok]
    by_cases hacc : r.job.jobJson.Accepted
    · rw [load, if_pos hacc, except_bind_ok]
      split_ifs with hterm
      · exact .inl rfl
      · exact .inr ⟨r, rfl, hacc, hterm, rfl⟩
    · rw [load, if_neg hacc]
      exact .inl rfl

end Rows

namespace Profile

def Owned (p : Profile) : Prop := ∀ jobId, ∀ x ∈ p.executions jobId, x.claim.jobId = jobId

def view (p : Profile) (jobId : String) : Option JobRows × List Execution :=
  (p.db.jobs.find? jobId, p.executions jobId)

section Steps

variable {stableHash : String → String} {p : Profile}

variable {db : Database} {jobId : String} {k : ℕ} {x : Execution}

theorem owned_moveTo (h : p.Owned) (hx : (p.executions jobId)[k]? = some x) (phase : Phase) :
    Owned ⟨db, p.moveTo jobId k x phase⟩ := by
  intro id y hy
  dsimp only [moveTo] at hy
  rw [Function.update_apply] at hy
  split_ifs at hy with hid
  · subst hid
    rcases List.mem_or_eq_of_mem_set hy with hy | rfl
    · exact h id y hy
    · exact h id x (List.mem_of_getElem? hx)
  · exact h id y hy

theorem owned_step (h : p.Owned) (a : Step) : (p.step stableHash a).Owned := by
  cases a with
  | claimNextJob workerId capabilities queueNames locked rawToken celeryTaskId now =>
    dsimp only [step]
    generalize claimNextJob stableHash workerId capabilities queueNames locked rawToken now p.db
      = answer
    obtain ⟨claimed, db⟩ := answer
    cases claimed with
    | none => exact h
    | some c =>
      intro id y hy
      dsimp only [Profile.claim] at hy
      rw [Function.update_apply] at hy
      split_ifs at hy with hid
      · subst hid
        rcases List.mem_append.mp hy with hy | hy
        · exact h _ y hy
        · rw [List.mem_singleton.mp hy]
      · exact h id y hy
  | readClaimed jobId k =>
    dsimp only [step]
    cases hx : (p.executions jobId)[k]? with
    | none => exact h
    | some x =>
      dsimp only
      split_ifs
      · unfold readBy
        cases readClaimed stableHash x.claim p.db <;> exact owned_moveTo h hx _
      · exact h
  | writeRunning jobId k now =>
    dsimp only [step]
    cases hx : (p.executions jobId)[k]? with
    | none => exact h
    | some x =>
      dsimp only
      cases x.phase with
      | read job attempt => exact owned_moveTo h hx _
      | _ => exact h
  | finalize jobId k outcome now =>
    dsimp only [step]
    cases hx : (p.executions jobId)[k]? with
    | none => exact h
    | some x =>
      dsimp only
      split_ifs
      · exact owned_moveTo h hx _
      · exact h
  | _ => exact h

theorem moveTo_apply {id : String} {phase : Phase} : p.moveTo jobId k x phase id =
      if id = jobId then (p.executions id).set k { x with phase := phase }
      else p.executions id := by
  unfold moveTo
  rw [Function.update_apply]
  split_ifs with h
  · rw [h]
  · rfl

theorem jobStep_of_insert (a : Step)
    (h : db = p.db ∨ ∃ r u, r.New stableHash ∧ (∀ x ∈ p.db.jobs.rows, ¬ r.Clashes x) ∧
      p.db.jobs.insert r = some u ∧ db = { p.db with jobs := u }) :
    JobStep stableHash a (p.view jobId) (view { p with db := db } jobId) := by
  rcases h with rfl | ⟨r, u, hr, _, hu, rfl⟩
  · exact .kept _ _
  · exact jobStep_insert a _ hr hu

variable (stableHash) in
/-- The step lemma: every transaction is one of the steps of every job. -/
theorem jobStep (h : p.Owned) (a : Step) (jobId : String) :
    JobStep stableHash a (p.view jobId) ((p.step stableHash a).view jobId) := by
  cases a with
  | createJob sub ids now => exact jobStep_of_insert _ (createJob_cases sub ids now p.db)
  | createManualRetry id manualHex ids now =>
    exact jobStep_of_insert _ (createManualRetry_cases id manualHex ids now p.db)
  | register row => exact .kept _ _
  | claimOutboxBatch dispatcherId minSchema maxSchema batchSize locked tokens now =>
    dsimp only [step, view]
    rcases find?_claimOutboxBatch stableHash with hfind | ⟨r, hr, hclaim, hfind⟩
    · rw [hfind]
      exact .kept _ _
    · rw [hfind, hr]
      exact .eventClaimed (hclaim.1.imp id And.left)
  | acknowledge eventId token messageId now =>
    dsimp only [step, view]
    rcases acknowledge_cases stableHash eventId token messageId now p.db with
      ⟨heq, _⟩ | ⟨r, hr, hack, heq⟩
    · rw [heq]
      exact .kept _ _
    · rw [heq, find?_update (Table.find?_of_mem hr) (acknowledge_jobId r messageId now)]
      split_ifs with hid
      · rw [hid, Table.find?_of_mem hr]
        exact .acknowledged hack
      · exact .kept _ _
  | claimNextJob workerId capabilities queueNames locked rawToken celeryTaskId now =>
    dsimp only [step]
    rcases claimNextJob_cases stableHash workerId capabilities queueNames locked
      rawToken now p.db with heq | ⟨r, hr, hclaim, heq⟩
    · rw [heq]
      exact .kept _ _
    · rw [heq]
      dsimp only [Profile.claim, view]
      have hid : (r.claim stableHash (stableHash workerId) rawToken now).jobId = r.jobId := rfl
      rw [find?_update (Table.find?_of_mem hr) hid, Function.update_apply]
      change JobStep stableHash _ _ (_, if jobId = r.jobId then p.executions r.jobId ++ _ else _)
      split_ifs with hjob
      · rw [hjob, Table.find?_of_mem hr]
        exact .claimed ⟨hclaim.2.1, hclaim.2.2.2.1⟩
      · exact .kept _ _
  | readClaimed id k =>
    dsimp only [step]
    cases hx : (p.executions id)[k]? with
    | none => exact .kept _ _
    | some x =>
      dsimp only
      split_ifs with hphase
      · have howned : x.claim.jobId = id := h id x (List.mem_of_getElem? hx)
        unfold readBy
        by_cases hjob : jobId = id
        · subst hjob
          cases hread : readClaimed stableHash x.claim p.db with
          | error e =>
            dsimp only [view]
            rw [moveTo_apply, if_pos rfl]
            refine .raised hx hphase fun r hr copies hcopies => ?_
            rw [readClaimed, howned, Option.mem_def.mp hr, orError_some, except_bind_ok,
              hcopies] at hread
            cases hread
          | ok copies =>
            obtain ⟨job, attempt⟩ := copies
            dsimp only [view]
            rw [moveTo_apply, if_pos rfl]
            rw [readClaimed, howned, except_bind_eq_ok_iff] at hread
            obtain ⟨r, hr, hcopies⟩ := hread
            rw [orError_eq_ok_iff.mp hr]
            exact .read hx hphase hcopies
        · cases readClaimed stableHash x.claim p.db with
          | error | ok =>
            dsimp only [view]
            rw [moveTo_apply, if_neg hjob]
            exact .kept _ _
      · exact .kept _ _
  | writeRunning id k now =>
    dsimp only [step]
    cases hx : (p.executions id)[k]? with
    | none => exact .kept _ _
    | some x =>
      dsimp only
      cases hphase : x.phase with
      | read job attempt =>
        dsimp only [view]
        rw [find?_writeRunning, h id x (List.mem_of_getElem? hx), moveTo_apply]
        split_ifs with hjob
        · subst hjob
          exact .started hx hphase
        · exact .kept _ _
      | _ => exact .kept _ _
  | finalize id k outcome now =>
    dsimp only [step]
    cases hx : (p.executions id)[k]? with
    | none => exact .kept _ _
    | some x =>
      dsimp only
      split_ifs with hphase
      · dsimp only [view]
        rw [find?_finalize, h id x (List.mem_of_getElem? hx), moveTo_apply]
        split_ifs with hjob
        · subst hjob
          exact .finalized hx hphase
        · exact .kept _ _
      · exact .kept _ _
  | requestCancel id now =>
    dsimp only [step, view]
    rcases requestCancel_cases id now p.db with heq | ⟨r, hr, hacc, hterm, heq⟩
    · rw [heq]
      exact .kept _ _
    · rw [heq]
      dsimp only
      have hkey : r.jobId = id := Table.find?_key hr
      rw [find?_update (hkey ▸ hr) (r.writeJob_jobId _ now)]
      split_ifs with hjob
      · rw [hjob, hkey, hr]
        exact .cancelled hacc hterm
      · exact .kept _ _

end Steps

end Profile

end CodeResearch.Team
