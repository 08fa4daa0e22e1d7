import CodeResearch.Team.Story

/-!
# The life of a job in the Team profile

A job waits without executions until it is claimed; the claim leaves it with one
execution that reads, writes the start, handles and finalises. Every transaction of any
process keeps that shape, whatever the order of the commits.
-/
namespace CodeResearch.Team

open ControlPlane

/-- What the rows of a job keep over its whole life. -/
structure JobRows.Linked (r : JobRows) : Prop where
  job : r.job.jobJson.Accepted
  attempt : r.attempt.attemptJson.Accepted
  requestHash : r.job.jobJson.requestHash = r.job.requestHash
  current : r.job.jobJson.currentAttemptNumber = r.attempt.attemptJson.attemptNumber

/-- No claim of the job was ever accepted. -/
structure JobRows.Unclaimed (r : JobRows) : Prop where
  attempt : (r.attempt.status = .created ∧ r.event.status ≠ .published) ∨
    (r.attempt.status = .dispatched ∧ r.event.status = .published)
  column : r.job.status ∈ [JobStatus.queued, .dispatched, .cancelling]
  json : r.job.jobJson.status ∈ [JobStatus.queued, .cancelling]

section Hashing

variable (stableHash : String → String)

structure JobRows.HeldBy (r : JobRows) (x : Execution) : Prop where
  attemptId : r.attempt.attemptId = x.claim.attemptId
  token : r.attempt.executionTokenHash = stableHash x.claim.executionToken
  requestHash : r.job.requestHash = x.claim.requestHash
  published : r.event.status = .published
  attempt : r.attempt.status ∉ [AttemptStatus.created, .dispatched]

def JobRows.During (r : JobRows) : Phase → Prop
  | .claimed => r.job.status ∈ [JobStatus.running, .cancelling] ∧ ¬ r.job.jobJson.status.Terminal
  | .read job attempt =>
    r.job.status ∈ [JobStatus.running, .cancelling] ∧ ¬ r.job.jobJson.status.Terminal ∧
      job.Accepted ∧ ¬ job.status.Terminal ∧ attempt.Accepted ∧
      job.requestHash = r.job.requestHash ∧ job.currentAttemptNumber = attempt.attemptNumber
  | .handling => r.job.status ∈ [JobStatus.running, .cancelling] ∧
      r.job.jobJson.status = r.job.status
  | .ended => r.job.jobJson.status.Terminal ∧ r.job.status = r.job.jobJson.status ∧
      (r.job.jobJson.cancelRequested = true → r.job.jobJson.status = .cancelled)

/-- The rows and executions of a job at some point of its life. -/
inductive Alive : Option JobRows × List Execution → Prop
  | absent : Alive (none, [])
  | waiting {r : JobRows} (linked : r.Linked) (unclaimed : r.Unclaimed) : Alive (some r, [])
  | held {r : JobRows} {x : Execution} (linked : r.Linked) (held : r.HeldBy stableHash x)
      (during : r.During x.phase) : Alive (some r, [x])

end Hashing

variable {stableHash : String → String}

variable {r : JobRows} {job : JobRecord} {now : Timestamp} {x : Execution}
  {v : Option JobRows × List Execution}

theorem JobRows.New.alive (h : r.New stableHash) : Alive stableHash (some r, []) := by
  obtain ⟨sub, ids, now, rfl, hjob, hattempt⟩ := h
  refine .waiting ⟨hjob, hattempt, rfl, rfl⟩ ⟨.inl ⟨rfl, ?_⟩, ?_, ?_⟩
  · exact show OutboxStatus.pending ≠ .published by decide
  · exact show JobStatus.queued ∈ _ by decide
  · exact show JobStatus.queued ∈ _ by decide

theorem runningJob_accepted (h : job.Accepted)
    (hterm : ¬ job.status.Terminal) : (runningJob job now).Accepted := by
  have hfinished : job.finishedAt.isSome ≠ true := fun hf =>
    hterm (h.valid.terminalFinishedAt.mpr hf)
  refine ⟨?_, h.idempotencyKeyHash, h.requestHash⟩
  exact { h.valid with
    revision := Nat.le_add_left 1 _
    terminalFinishedAt := iff_of_false (show ¬ JobStatus.Terminal .running by decide) hfinished }

theorem finalJob_terminal (job : JobRecord) (outcome : Outcome) :
    (finalJob job outcome).Terminal := by
  unfold finalJob
  split_ifs <;> decide

theorem finalAttempt_final (job : JobRecord) (outcome : Outcome) :
    (finalAttempt job outcome) ∉ [AttemptStatus.created, .dispatched] := by
  unfold finalAttempt
  split_ifs
  · decide
  · cases outcome <;> simp [Outcome.terminalAttempt]

theorem finishedJob_accepted {outcome : Outcome} (h : job.Accepted) :
    (finishedJob job (finalJob job outcome) (finalErrorCode job outcome) outcome.resultRefs
      now).Accepted := by
  refine ⟨?_, h.idempotencyKeyHash, h.requestHash⟩
  exact { h.valid with
    revision := Nat.le_add_left 1 _
    resultArtifactRefIds := by
      change outcome.resultRefs.length ≤ 200
      cases outcome <;> simp [Outcome.resultRefs]
    terminalFinishedAt := iff_of_true (finalJob_terminal job outcome) rfl }

theorem JobRows.HeldBy.write (h : r.HeldBy stableHash x) (job : JobRecord) (now : Timestamp) :
    (r.writeJob job now).HeldBy stableHash x :=
  ⟨h.attemptId, h.token, h.requestHash, h.published, h.attempt⟩

theorem JobRows.Linked.cancel (h : r.Linked) (hterm : ¬ r.job.jobJson.status.Terminal) :
    (r.writeJob (r.job.jobJson.cancel now) now).Linked :=
  ⟨cancel_accepted h.job hterm, h.attempt, h.requestHash, h.current⟩

theorem JobRows.During.cancel {phase : Phase}
    (h : r.During phase) (hterm : ¬ r.job.jobJson.status.Terminal) :
    (r.writeJob (r.job.jobJson.cancel now) now).During phase := by
  have hcolumn : JobStatus.cancelling ∈ [JobStatus.running, .cancelling] := by decide
  have hopen : ¬ JobStatus.Terminal .cancelling := by decide
  cases phase with
  | claimed => exact ⟨hcolumn, hopen⟩
  | read job attempt => exact ⟨hcolumn, hopen, h.2.2⟩
  | handling => exact ⟨hcolumn, rfl⟩
  | ended => exact absurd h.1 hterm

theorem loaded_eq_ok_iff {ρ : Type} {Accepted : ρ → Prop} [DecidablePred Accepted] {json a : ρ} :
    loaded Accepted json = .ok a ↔ Accepted json ∧ json = a := by
  rw [← load_eq_ok_iff]
  unfold loaded
  cases load Accepted json <;> simp [Except.mapError]

theorem JobRows.read_eq_ok {claim : Claim} {attempt : JobAttempt}
    (h : r.read stableHash claim = .ok (job, attempt)) :
    job = r.job.jobJson ∧ attempt = r.attempt.attemptJson := by
  simp only [JobRows.read, except_bind_eq_ok_iff, loaded_eq_ok_iff, except_pure_eq_ok_iff] at h
  obtain ⟨_, _, _, ⟨_, rfl⟩, _, ⟨_, rfl⟩, _, _, _, _, heq⟩ := h
  cases heq
  exact ⟨rfl, rfl⟩

theorem JobRows.HeldBy.read (h : r.HeldBy stableHash x) (hl : r.Linked) :
    r.read stableHash x.claim = .ok (r.job.jobJson, r.attempt.attemptJson) := by
  have hjob := loaded_eq_ok_iff.mpr ⟨hl.job, rfl⟩
  have hattempt := loaded_eq_ok_iff.mpr ⟨hl.attempt, rfl⟩
  unfold JobRows.read
  rw [ensure_pos h.attemptId, except_bind_ok, hjob, except_bind_ok, hattempt, except_bind_ok,
    ensure_pos h.token.symm, except_bind_ok, ensure_pos (hl.requestHash.trans h.requestHash)]
  rfl

theorem JobRows.HeldBy.start {attempt : JobAttempt} (h : r.HeldBy stableHash x) :
    r.start stableHash x.claim x.workerIdHash x.celeryTaskId job attempt now =
      { r with
        attempt := r.attempt.write (runningAttempt attempt x.workerIdHash x.celeryTaskId now)
        job := r.job.write (runningJob job now) now } := by
  unfold JobRows.start
  rw [if_pos ⟨h.attemptId, h.token⟩]

theorem JobRows.HeldBy.finalize {outcome : Outcome} (h : r.HeldBy stableHash x) (hl : r.Linked) :
    r.finalize stableHash x.claim.attemptId x.claim.executionToken outcome now =
      .ok (r.finish r.job.jobJson r.attempt.attemptJson outcome now) := by
  unfold JobRows.finalize load
  rw [if_pos ⟨h.attemptId, h.token.symm⟩, if_pos hl.job, if_pos hl.attempt]
  simp only [except_bind_ok]
  rw [if_neg (not_not_intro hl.current)]
  rfl

theorem JobStep.of_waiting {a : Step}
    (h : JobStep stableHash a (some r, []) v) (hl : r.Linked) (hu : r.Unclaimed) :
    Alive stableHash v := by
  cases h with
  | kept _ _ => exact .waiting hl hu
  | eventClaimed unpublished =>
    refine .waiting ⟨hl.job, hl.attempt, hl.requestHash, hl.current⟩ ⟨?_, hu.column, hu.json⟩
    rcases hu.attempt with ⟨hattempt, _⟩ | ⟨_, hpublished⟩
    · exact .inl ⟨hattempt, show OutboxStatus.publishing ≠ .published by decide⟩
    · rw [hpublished] at unpublished
      rcases unpublished with h | h <;> cases h
  | @acknowledged _ _ messageId now _ _ acknowledges =>
    have hcreated : r.attempt.status = .created := by
      rcases hu.attempt with ⟨hattempt, _⟩ | ⟨_, hpublished⟩
      · exact hattempt
      · rw [acknowledges.2.1] at hpublished
        cases hpublished
    refine .waiting ?_ ⟨?_, ?_, ?_⟩ <;> unfold JobRows.acknowledge AttemptRow.dispatch JobRow.dispatch
    · rw [if_pos hcreated]
      split_ifs <;> exact ⟨hl.job, hl.attempt, hl.requestHash, hl.current⟩
    · rw [if_pos hcreated]
      exact .inr ⟨rfl, rfl⟩
    · split_ifs
      · exact show JobStatus.dispatched ∈ _ by decide
      · exact hu.column
    · split_ifs <;> exact hu.json
  | @claimed _ _ _ _ _ _ _ _ _ dispatched =>
    refine .held ⟨hl.job, hl.attempt, hl.requestHash, hl.current⟩ ⟨rfl, rfl, rfl, ?_, ?_⟩ ⟨?_, ?_⟩
    · rcases hu.attempt with ⟨hattempt, _⟩ | ⟨_, hpublished⟩
      · rw [dispatched.2] at hattempt
        cases hattempt
      · exact hpublished
    · exact show AttemptStatus.claimed ∉ _ by decide
    · exact show JobStatus.running ∈ _ by decide
    · have hjson := hu.json
      change ¬ r.job.jobJson.status.Terminal
      revert hjson
      cases r.job.jobJson.status <;> decide
  | read at_k _ _ | raised at_k _ _ => cases at_k
  | started at_k _ | finalized at_k _ => cases at_k
  | cancelled _ unfinished =>
    refine .waiting (hl.cancel unfinished) ⟨hu.attempt, ?_, ?_⟩ <;>
      exact show JobStatus.cancelling ∈ _ by decide

theorem eq_of_getElem?_singleton {y : Execution} {k : ℕ} (h : [x][k]? = some y) :
    k = 0 ∧ y = x := by
  cases k with
  | zero => exact ⟨rfl, (Option.some.inj h).symm⟩
  | succ k => cases h

/-- The event of a claimed job is published and its attempt no longer waits. -/
theorem JobRows.HeldBy.settled {r : JobRows} {x : Execution} (hx : r.HeldBy stableHash x) :
    ¬ (r.event.status = .pending ∨ r.event.status = .publishing) ∧
      ¬ (r.job.status = .dispatched ∧ r.attempt.status = .dispatched) := by
  rw [hx.published]
  exact ⟨by decide, fun h => hx.attempt (by rw [h.2]; decide)⟩

theorem JobStep.of_held {a : Step} (h : JobStep stableHash a (some r, [x]) v)
    (hl : r.Linked) (hx : r.HeldBy stableHash x) (hd : r.During x.phase) :
    Alive stableHash v := by
  cases h with
  | kept _ _ => exact .held hl hx hd
  | eventClaimed unpublished => exact absurd unpublished hx.settled.1
  | acknowledged acknowledges => exact absurd (.inr acknowledges.2.1) hx.settled.1
  | claimed dispatched => exact absurd dispatched hx.settled.2
  | read at_k phase returned =>
    obtain ⟨rfl, rfl⟩ := eq_of_getElem?_singleton at_k
    obtain ⟨rfl, rfl⟩ := JobRows.read_eq_ok returned
    rw [phase] at hd
    exact .held hl ⟨hx.attemptId, hx.token, hx.requestHash, hx.published, hx.attempt⟩
      ⟨hd.1, hd.2, hl.job, hd.2, hl.attempt, hl.requestHash, hl.current⟩
  | raised at_k phase refused =>
    obtain ⟨rfl, rfl⟩ := eq_of_getElem?_singleton at_k
    exact absurd (hx.read hl) (refused r rfl _)
  | @started _ _ now _ _ _ job attempt at_k phase =>
    obtain ⟨rfl, rfl⟩ := eq_of_getElem?_singleton at_k
    rw [phase] at hd
    obtain ⟨_, _, hjob, hopen, hattempt, hrequest, hcurrent⟩ := hd
    rw [Option.map_some, hx.start]
    refine .held ⟨runningJob_accepted hjob hopen, ?_, hrequest, hcurrent⟩
      ⟨hx.attemptId, hx.token, hx.requestHash, hx.published, ?_⟩ ⟨?_, rfl⟩
    · exact ⟨hattempt.attemptNumber, hattempt.executionTokenHash⟩
    · exact show AttemptStatus.running ∉ _ by decide
    · exact show JobStatus.running ∈ _ by decide
  | @finalized _ _ outcome now _ _ _ at_k phase =>
    obtain ⟨rfl, rfl⟩ := eq_of_getElem?_singleton at_k
    rw [Option.map_some, hx.finalize hl]
    refine .held ⟨finishedJob_accepted hl.job, ?_, hl.requestHash, hl.current⟩
      ⟨hx.attemptId, hx.token, hx.requestHash, hx.published, ?_⟩ ⟨?_, rfl, ?_⟩
    · exact ⟨hl.attempt.attemptNumber, hl.attempt.executionTokenHash⟩
    · exact finalAttempt_final _ outcome
    · exact finalJob_terminal _ outcome
    · intro hcancel
      exact if_pos (.inl hcancel)
  | cancelled _ unfinished =>
    exact .held (hl.cancel unfinished) (hx.write _ _) (hd.cancel unfinished)

theorem JobStep.alive {a : Step} {w : Option JobRows × List Execution}
    (h : JobStep stableHash a v w) (hv : Alive stableHash v) : Alive stableHash w := by
  cases hv with
  | absent =>
    cases h with
    | kept _ _ => exact .absent
    | created fresh => exact fresh.alive
    | raised at_k _ _ => cases at_k
    | started at_k _ | finalized at_k _ => cases at_k
  | waiting hl hu => exact h.of_waiting hl hu
  | held hl hx hd => exact h.of_held hl hx hd

namespace Profile

/-- The jobs of a profile are alive, and its executions are kept under their jobs. -/
structure Sound (stableHash : String → String) (p : Profile) : Prop where
  owned : p.Owned
  alive : ∀ jobId, Alive stableHash (p.view jobId)

theorem sound_start : start.Sound stableHash :=
  ⟨fun _ _ hx => absurd hx List.not_mem_nil, fun _ => .absent⟩

theorem Sound.step {p : Profile} (h : p.Sound stableHash) (a : Step) :
    (p.step stableHash a).Sound stableHash :=
  ⟨owned_step h.owned a, fun jobId => (jobStep stableHash h.owned a jobId).alive (h.alive jobId)⟩

theorem Sound.run {p : Profile} (h : p.Sound stableHash) (labels : List Step) :
    (labels.foldl (Profile.step stableHash) p).Sound stableHash := by
  induction labels generalizing p with
  | nil => exact h
  | cons a labels ih => exact ih (h.step a)

/-- In every run a job is executed once at most, whatever processes claim, deliver and
acknowledge it. An execution that has ended left the job in one terminal status in column and
record, cancelled if the record had a request for it. -/
theorem executed_once (stableHash : String → String) (labels : List Step) (jobId : String) :
    let p := labels.foldl (Profile.step stableHash) .start
    (p.executions jobId).length ≤ 1 ∧ ∀ x ∈ p.executions jobId, x.phase = .ended →
      ∃ r, p.db.jobs.find? jobId = some r ∧ r.job.jobJson.status.Terminal ∧
        r.job.status = r.job.jobJson.status ∧
        (r.job.jobJson.cancelRequested = true → r.job.jobJson.status = .cancelled) := by
  intro p
  have halive : Alive stableHash (p.db.jobs.find? jobId, p.executions jobId) :=
    ((@sound_start stableHash).run labels).alive jobId
  generalize p.db.jobs.find? jobId = row, p.executions jobId = executions at halive ⊢
  cases halive with
  | absent | waiting => simp
  | @held r x _ _ hduring =>
    refine ⟨le_rfl, fun y hy hended => ⟨r, rfl, ?_⟩⟩
    obtain rfl := List.mem_singleton.mp hy
    rwa [hended] at hduring

end Profile

end CodeResearch.Team
