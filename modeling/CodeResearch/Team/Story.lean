import CodeResearch.Team.JobSteps

/-!
# Columns and records of the Team rows

`acknowledge_outbox_publish` and `claim_next_job` write status and token columns and leave
`job_json` and `attempt_json` as they were. Until the first acknowledgement the rows tell
one story; the first acknowledgement ends that.
-/
namespace CodeResearch.Team

open ControlPlane

/-- The columns of a job and of its attempt say what their JSON records say. -/
structure JobRows.OneStory (r : JobRows) : Prop where
  jobStatus : r.job.status = r.job.jobJson.status
  attemptStatus : r.attempt.status = r.attempt.attemptJson.status
  attemptToken : r.attempt.executionTokenHash = r.attempt.attemptJson.executionTokenHash
  /-- A claimed attempt has a worker, and its token is the token of the job. -/
  jobToken : r.attempt.workerIdHash.isSome = true →
    r.job.executionTokenHash = some r.attempt.executionTokenHash
  job : r.job.jobJson.Accepted
  attempt : r.attempt.attemptJson.Accepted

/-- A status stays, or moves along an edge of its table. -/
def Edge {σ : Type} (transitions : σ → List σ) (a b : σ) : Prop := b = a ∨ b ∈ transitions a

/-- Every status of the rows, in columns and in records, stays or moves along an edge. -/
structure JobRows.Moves (r r' : JobRows) : Prop where
  job : Edge jobTransitions r.job.status r'.job.status
  jobJson : Edge jobTransitions r.job.jobJson.status r'.job.jobJson.status
  attempt : Edge attemptTransitions r.attempt.status r'.attempt.status
  attemptJson : Edge attemptTransitions r.attempt.attemptJson.status r'.attempt.attemptJson.status

theorem JobRows.Moves.of_eq {r r' : JobRows} (hjob : r'.job.status = r.job.status)
    (hjson : r'.job.jobJson.status = r.job.jobJson.status) (hattempt : r'.attempt = r.attempt) :
    r.Moves r' :=
  ⟨.inl hjob, .inl hjson, .inl (by rw [hattempt]), .inl (by rw [hattempt])⟩

/-- The rows of a job whose event was not acknowledged yet. -/
structure JobRows.Undispatched (r : JobRows) : Prop where
  story : r.OneStory
  attempt : r.attempt.status = .created
  job : r.job.status = .queued ∨ r.job.status = .cancelling
  unclaimed : r.attempt.workerIdHash = none

section Steps

variable (stableHash : String → String)

def StoryKept (p : Profile) (a : Step) : Prop :=
  (∀ r ∈ (p.step stableHash a).db.jobs.rows, r.OneStory) ∧
    ∀ r ∈ p.db.jobs.rows,
      ∃ r', (p.step stableHash a).db.jobs.find? r.jobId = some r' ∧ r.Moves r'

def Step.TakesEffect (p : Profile) : Step → Prop
  | .acknowledge eventId token _ _ => ∃ r ∈ p.db.jobs.rows, r.Acknowledges stableHash eventId token
  | _ => False

/-- No acknowledgement has taken effect, so no attempt could be claimed. -/
structure Profile.Undispatched (p : Profile) : Prop where
  rows : ∀ r ∈ p.db.jobs.rows, r.Undispatched
  idle : ∀ jobId, p.executions jobId = []

variable {stableHash : String → String}

theorem JobRows.New.undispatched {r : JobRows} (h : r.New stableHash) : r.Undispatched := by
  obtain ⟨sub, ids, now, rfl, hjob, hattempt⟩ := h
  exact ⟨⟨rfl, rfl, rfl, nofun, hjob, hattempt⟩, rfl, .inl rfl, rfl⟩

theorem cancel_accepted {job : JobRecord} {now : Timestamp} (h : job.Accepted)
    (hterm : ¬ job.status.Terminal) : (job.cancel now).Accepted := by
  have hfinished : job.finishedAt.isSome ≠ true := fun hf =>
    hterm (h.valid.terminalFinishedAt.mpr hf)
  refine ⟨?_, h.idempotencyKeyHash, h.requestHash⟩
  exact { h.valid with
    revision := Nat.le_add_left 1 _
    terminalFinishedAt :=
      iff_of_false (show ¬ JobStatus.Terminal .cancelling by decide) hfinished }

theorem JobRows.Undispatched.cancel {r : JobRows} {now : Timestamp} (h : r.Undispatched)
    (hterm : ¬ r.job.jobJson.status.Terminal) :
    (r.writeJob (r.job.jobJson.cancel now) now).Undispatched ∧
      r.Moves (r.writeJob (r.job.jobJson.cancel now) now) := by
  have hstory := h.story
  have hedge : Edge jobTransitions r.job.status .cancelling := by
    rcases h.job with hs | hs <;> rw [hs]
    · exact .inr (by decide)
    · exact .inl rfl
  constructor
  · exact ⟨⟨rfl, hstory.attemptStatus, hstory.attemptToken, hstory.jobToken,
      cancel_accepted hstory.job hterm, hstory.attempt⟩, h.attempt, .inr rfl, h.unclaimed⟩
  · exact ⟨hedge, hstory.jobStatus ▸ hedge, .inl rfl, .inl rfl⟩

/-- The step lemma for one job: only an acknowledgement dispatches it. -/
theorem JobStep.undispatched {a : Step} {o o' : Option JobRows} {xs : List Execution}
    (h : JobStep stableHash a (o, []) (o', xs)) (ho : ∀ r ∈ o, r.Undispatched)
    (hack : ∀ r ∈ o, ∀ eventId token messageId now, a = .acknowledge eventId token messageId now →
      ¬ r.Acknowledges stableHash eventId token) :
    xs = [] ∧ (∀ r ∈ o', r.Undispatched) ∧ ∀ r ∈ o, ∃ r', o' = some r' ∧ r.Moves r' := by
  cases h with
  | kept _ _ => exact ⟨rfl, ho, fun r hr => ⟨r, hr, .of_eq rfl rfl rfl⟩⟩
  | created fresh =>
    refine ⟨rfl, fun r hr => ?_, fun r hr => ?_⟩
    · cases hr
      exact fresh.undispatched
    · cases hr
  | @eventClaimed _ _ _ _ _ _ _ r _ _ =>
    have hr := ho r rfl
    refine ⟨rfl, fun t ht => ?_, fun t ht => ?_⟩
    · cases ht
      exact ⟨⟨hr.story.jobStatus, hr.story.attemptStatus, hr.story.attemptToken,
        hr.story.jobToken, hr.story.job, hr.story.attempt⟩, hr.attempt, hr.job, hr.unclaimed⟩
    · cases ht
      exact ⟨_, rfl, .of_eq rfl rfl rfl⟩
  | @acknowledged eventId token messageId now r _ acknowledges =>
    exact absurd acknowledges (hack r rfl eventId token messageId now rfl)
  | @claimed _ _ _ _ _ _ _ r _ dispatched =>
    have hcreated := (ho r rfl).attempt
    rw [dispatched.2] at hcreated
    cases hcreated
  | read at_k _ _ | raised at_k _ _ => cases at_k
  | started at_k _ | finalized at_k _ => cases at_k
  | @cancelled _ _ r _ _ unfinished =>
    obtain ⟨hkept, hmoves⟩ := (ho r rfl).cancel unfinished
    refine ⟨rfl, fun t ht => ?_, fun t ht => ?_⟩
    · cases ht
      exact hkept
    · cases ht
      exact ⟨_, rfl, hmoves⟩

namespace Profile

variable {p : Profile}

theorem Undispatched.owned (h : p.Undispatched) : p.Owned := by
  intro jobId x hx
  rw [h.idle] at hx
  cases hx

theorem Undispatched.view_step (h : p.Undispatched) {a : Step}
    (ha : ¬ a.TakesEffect stableHash p) (jobId : String) :
    (p.step stableHash a).executions jobId = [] ∧
      (∀ r ∈ (p.step stableHash a).db.jobs.find? jobId, r.Undispatched) ∧
      ∀ r ∈ p.db.jobs.find? jobId,
        ∃ r', (p.step stableHash a).db.jobs.find? jobId = some r' ∧ r.Moves r' := by
  have hstep := jobStep stableHash h.owned a jobId
  unfold view at hstep
  rw [h.idle] at hstep
  refine hstep.undispatched (fun r hr => h.rows r (Table.find?_mem hr)) ?_
  rintro r hr eventId token messageId now rfl hack
  exact ha ⟨r, Table.find?_mem hr, hack⟩

theorem undispatched_start : start.Undispatched :=
  ⟨fun _ hr => absurd hr List.not_mem_nil, fun _ => rfl⟩

theorem Undispatched.step (h : p.Undispatched) {a : Step} (ha : ¬ a.TakesEffect stableHash p) :
    (p.step stableHash a).Undispatched where
  rows r hr := (h.view_step ha r.jobId).2.1 r (Table.find?_of_mem hr)
  idle jobId := (h.view_step ha jobId).1

/-- An effective acknowledgement moves the column of an attempt and not its record. -/
theorem Undispatched.not_oneStory (h : p.Undispatched) {a : Step}
    (ha : a.TakesEffect stableHash p) : ¬ StoryKept stableHash p a := by
  cases a with
  | acknowledge eventId token messageId now =>
    obtain ⟨x, hx, hack⟩ := ha
    rcases acknowledge_cases stableHash eventId token messageId now p.db with
      ⟨_, hnone⟩ | ⟨r, hr, _, heq⟩
    · exact absurd hack (hnone x hx)
    · rintro ⟨hstory, _⟩
      have hrow : r.acknowledge messageId now ∈
          (p.step stableHash (.acknowledge eventId token messageId now)).db.jobs.rows := by
        dsimp only [Profile.step]
        rw [heq, Database.update_jobs, Table.mem_replace]
        · exact .inl rfl
        · exact Option.isSome_iff_exists.mpr ⟨r, by
            rw [acknowledge_jobId]
            exact Table.find?_of_mem hr⟩
      have hstatus := (hstory _ hrow).attemptStatus
      have hold := h.rows r hr
      have hjson : r.attempt.attemptJson.status = .created := by
        rw [← hold.story.attemptStatus, hold.attempt]
      simp [JobRows.acknowledge, AttemptRow.dispatch, hold.attempt, hjson] at hstatus
  | _ => exact ha.elim

theorem Undispatched.storyKept_iff (h : p.Undispatched) (a : Step) :
    StoryKept stableHash p a ↔ ¬ a.TakesEffect stableHash p := by
  constructor
  · intro hkept ha
    exact h.not_oneStory ha hkept
  · intro ha
    refine ⟨fun r hr => ((h.step ha).rows r hr).story, fun r hr => ?_⟩
    exact (h.view_step ha r.jobId).2.2 r (Table.find?_of_mem hr)

end Profile

/-- The rows tell one story in every state of a run, and every change of a status is an
edge of its table, exactly when no acknowledgement of the run takes effect. -/
theorem one_story_iff (stableHash : String → String) (labels : List Step) :
    Machine.EachStep (Profile.step stableHash) (StoryKept stableHash) .start labels ↔
      Machine.EachStep (Profile.step stableHash) (fun p a => ¬ a.TakesEffect stableHash p) .start
        labels := by
  refine Machine.eachStep_iff _ Profile.Undispatched ?_ ?_ Profile.undispatched_start labels
  · intro p a hp hkept
    exact hp.step ((hp.storyKept_iff a).mp hkept)
  · intro p a hp
    exact hp.storyKept_iff a

end Steps

namespace Sample

/-- A digest of 64 characters that tells short texts of different lengths apart. -/
def digest (text : String) : String :=
  String.ofList ((List.replicate 64 '0').set (text.length % 64) '1')

def submission : JobSubmission where
  workspaceId := "ws"
  projectId := some "project"
  jobType := .analysis
  queueName := "cra.analysis"
  requestJson := "{}"
  idempotencyKey := "key"
  actorIdHash := "actor"
  domainRunId := none
  retryOfJobId := none
  maxAttempts := 3
  taskSchemaVersion := 1

def ids : JobIds where
  attemptHex := "a"
  outboxHex := "o"
  token := "token"
  jobHex := "j"
  runHex := "r"
  auditHex := "e"

def registered (now : Timestamp) : WorkerRow where
  workerIdHash := digest "worker"
  minTaskSchemaVersion := 1
  maxTaskSchemaVersion := 1
  queueNames := ["cra.analysis"]
  heartbeatAt := now

def dispatch : List Step :=
  [.createJob submission ids 1, .register (registered 2),
    .claimOutboxBatch "dispatcher" 1 1 50 (fun _ => false) (fun _ => "claim") 3,
    .acknowledge "outbox_o" "claim" "message" 4]

end Sample

/-- After the acknowledgement `get_job` reports a queued job that the columns have
dispatched. -/
theorem dispatched_job_reads_queued :
    ¬ ∀ stableHash labels,
      Machine.EachStep (Profile.step stableHash) (StoryKept stableHash) .start labels := by
  intro h
  have hkept := (h Sample.digest Sample.dispatch).2.2.2.1.1
  have hrow : ∃ r ∈ (Sample.dispatch.foldl (Profile.step Sample.digest) .start).db.jobs.rows,
      r.job.status = .dispatched ∧ r.job.jobJson.status = .queued := by decide +kernel
  obtain ⟨r, hr, hcolumn, hjson⟩ := hrow
  have hstatus := (hkept r hr).jobStatus
  rw [hcolumn, hjson] at hstatus
  cases hstatus

end CodeResearch.Team
