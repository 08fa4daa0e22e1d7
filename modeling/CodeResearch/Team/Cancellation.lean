import CodeResearch.Team.Lifecycle

/-!
# What becomes of a cancelled Team job

`request_cancel` writes `cancelling` whatever the job's status is. A job that was not
claimed yet then has a status that no claim accepts. A claim that has not started yet
starts all the same, and a start that had read the job before the cancellation writes its
copy over it. Only a job whose handler runs is cancelled as it should be.
-/
namespace CodeResearch.Team

open ControlPlane

namespace Profile

section Hashing

variable (stableHash : String → String)

/-- The cancellation is recorded, and the job has not ended otherwise. -/
def CancelKept (p : Profile) (jobId : String) : Prop :=
  ∃ r, p.db.jobs.find? jobId = some r ∧ r.job.jobJson.cancelRequested = true ∧
    (∀ status ∈ [r.job.status, r.job.jobJson.status], status ≠ .completed ∧ status ≠ .failed)

/-- A handler that runs now was running before. -/
def NoneStarted (p q : Profile) (jobId : String) : Prop :=
  ∀ (k : ℕ) (x : Execution), (q.executions jobId)[k]? = some x → x.phase = .handling →
    ∃ y : Execution, (p.executions jobId)[k]? = some y ∧ y.phase = .handling

/-- The job has arrived at `cancelled`, in its column and in its record. -/
def Cancelled (p : Profile) (jobId : String) : Prop :=
  ∃ r, p.db.jobs.find? jobId = some r ∧ r.job.status = .cancelled ∧
    r.job.jobJson.status = .cancelled

/-- Whatever happens after the cancellation, it is kept, it starts no handler, and the job
can still arrive at `cancelled`. -/
def Honoured (p : Profile) (jobId : String) : Prop :=
  ∀ labels : List Step,
    let q := labels.foldl (step stableHash) p
    q.CancelKept jobId ∧ NoneStarted p q jobId ∧
      ∃ more : List Step, (more.foldl (step stableHash) q).Cancelled jobId

def Stale (p : Profile) (jobId attemptId executionToken : String) : Prop :=
  ∀ r ∈ p.db.jobs.find? jobId,
    r.attempt.attemptId ≠ attemptId ∨
      r.attempt.executionTokenHash ≠ stableHash executionToken ∨
      r.attempt.attemptJson.attemptNumber ≠ r.job.jobJson.currentAttemptNumber

end Hashing

def Settled (p : Profile) (jobId : String) : Prop :=
  ∃ r, p.db.jobs.find? jobId = some r ∧ r.job.jobJson.status.Terminal

/-- The start of the job's execution has committed and `_finalize` has not. -/
def HandlerRuns (p : Profile) (jobId : String) : Prop :=
  ∃ x ∈ p.executions jobId, x.phase = .handling

end Profile

variable {stableHash : String → String} {p : Profile} {jobId : String}

variable {r : JobRows} {a : Step} {v : Option JobRows × List Execution}

theorem JobRows.Unclaimed.open (h : r.Unclaimed) :
    ¬ r.job.jobJson.status.Terminal ∧ ¬ r.job.status.Terminal := by
  obtain ⟨_, hcolumn, hjson⟩ := h
  constructor
  · revert hjson
    cases r.job.jobJson.status <;> decide
  · revert hcolumn
    cases r.job.status <;> decide

theorem JobRows.During.terminal_iff {phase : Phase} (h : r.During phase) :
    (r.job.jobJson.status.Terminal ∨ r.job.status.Terminal) ↔ phase = .ended := by
  have hopen : r.job.status ∈ [JobStatus.running, .cancelling] → ¬ r.job.status.Terminal := by
    cases r.job.status <;> decide
  cases phase with
  | claimed => exact iff_of_false (not_or.mpr ⟨h.2, hopen h.1⟩) nofun
  | read job attempt => exact iff_of_false (not_or.mpr ⟨h.2.1, hopen h.1⟩) nofun
  | handling =>
    refine iff_of_false (not_or.mpr ⟨?_, hopen h.1⟩) nofun
    rw [h.2]
    exact hopen h.1
  | ended => exact iff_of_true (.inl h.1) rfl

/-- A finished job is left as it is by every transaction. -/
theorem JobStep.of_ended {x : Execution} (h : JobStep stableHash a (some r, [x]) v)
    (hx : r.HeldBy stableHash x) (hd : r.During x.phase) (hended : x.phase = .ended) :
    v = (some r, [x]) := by
  cases h with
  | kept _ _ => rfl
  | eventClaimed unpublished => exact absurd unpublished hx.settled.1
  | acknowledged acknowledges => exact absurd (.inr acknowledges.2.1) hx.settled.1
  | claimed dispatched => exact absurd dispatched hx.settled.2
  | read at_k phase _ | raised at_k phase _ | started at_k phase | finalized at_k phase =>
    obtain ⟨rfl, rfl⟩ := eq_of_getElem?_singleton at_k
    rw [hended] at phase
    cases phase
  | cancelled _ unfinished =>
    rw [hended] at hd
    exact absurd hd.1 unfinished

namespace Profile

theorem Sound.ended (h : p.Sound stableHash) {r : JobRows}
    (hr : p.db.jobs.find? jobId = some r)
    (hterm : r.job.jobJson.status.Terminal ∨ r.job.status.Terminal) :
    ∃ x, p.view jobId = (some r, [x]) ∧ r.HeldBy stableHash x ∧ r.During x.phase ∧
      x.phase = .ended := by
  have halive := h.alive jobId
  unfold view at halive ⊢
  rw [hr] at halive ⊢
  generalize p.executions jobId = xs at halive
  cases halive with
  | waiting _ hu =>
    obtain ⟨hjson, hcolumn⟩ := hu.open
    exact absurd hterm (not_or.mpr ⟨hjson, hcolumn⟩)
  | @held _ x _ hx hd => exact ⟨x, rfl, hx, hd, hd.terminal_iff.mp hterm⟩

theorem Sound.view_run_of_ended (h : p.Sound stableHash) {r : JobRows} {x : Execution}
    (hv : p.view jobId = (some r, [x])) (hx : r.HeldBy stableHash x) (hd : r.During x.phase)
    (hended : x.phase = .ended) (labels : List Step) :
    (labels.foldl (Profile.step stableHash) p).view jobId = (some r, [x]) := by
  induction labels generalizing p with
  | nil => exact hv
  | cons a labels ih =>
    have hstep := jobStep stableHash h.owned a jobId
    rw [hv] at hstep
    exact ih (h.step a) (hstep.of_ended hx hd hended)

end Profile

/-- The rows and the execution of a job that was cancelled while its handler ran. -/
inductive Cancelling (stableHash : String → String) : Option JobRows × List Execution → Prop
  | handling {r : JobRows} {x : Execution} (linked : r.Linked) (held : r.HeldBy stableHash x)
      (during : r.During x.phase) (phase : x.phase = .handling)
      (requested : r.job.jobJson.cancelRequested = true) : Cancelling stableHash (some r, [x])
  | ended {r : JobRows} {x : Execution} (held : r.HeldBy stableHash x)
      (during : r.During x.phase) (phase : x.phase = .ended)
      (requested : r.job.jobJson.cancelRequested = true) : Cancelling stableHash (some r, [x])

/-- The step lemma: the cancellation is kept until the job is cancelled. -/
theorem JobStep.cancelling {w : Option JobRows × List Execution}
    (h : JobStep stableHash a v w) (hv : Cancelling stableHash v) : Cancelling stableHash w := by
  cases hv with
  | ended hx hd hended hrequested =>
    rw [h.of_ended hx hd hended]
    exact .ended hx hd hended hrequested
  | @handling r x hl hx hd hphase hrequested =>
    have halive := h.of_held hl hx hd
    cases h with
    | kept _ _ => exact .handling hl hx hd hphase hrequested
    | eventClaimed unpublished => exact absurd unpublished hx.settled.1
    | acknowledged acknowledges => exact absurd (.inr acknowledges.2.1) hx.settled.1
    | claimed dispatched => exact absurd dispatched hx.settled.2
    | read at_k phase _ | raised at_k phase _ | started at_k phase =>
      obtain ⟨rfl, rfl⟩ := eq_of_getElem?_singleton at_k
      rw [hphase] at phase
      cases phase
    | finalized at_k phase =>
      obtain ⟨rfl, rfl⟩ := eq_of_getElem?_singleton at_k
      rw [Option.map_some, hx.finalize hl] at halive ⊢
      cases halive with
      | held _ hx' hd' => exact .ended hx' hd' rfl hrequested
    | cancelled _ unfinished =>
      exact .handling (hl.cancel unfinished) (hx.write _ _) (hd.cancel unfinished) hphase rfl

theorem JobRows.During.cancelled (h : r.During .ended)
    (hrequested : r.job.jobJson.cancelRequested = true) :
    r.job.status = .cancelled ∧ r.job.jobJson.status = .cancelled :=
  ⟨h.2.1.trans (h.2.2 hrequested), h.2.2 hrequested⟩

namespace Profile

theorem Sound.cancelling_run (h : p.Sound stableHash) (hv : Cancelling stableHash (p.view jobId))
    (labels : List Step) :
    Cancelling stableHash ((labels.foldl (Profile.step stableHash) p).view jobId) := by
  induction labels generalizing p with
  | nil => exact hv
  | cons a labels ih => exact ih (h.step a) ((jobStep stableHash h.owned a jobId).cancelling hv)

theorem cancelKept_of_cancelling (hv : Cancelling stableHash (p.view jobId)) :
    p.CancelKept jobId := by
  unfold view at hv
  unfold CancelKept
  generalize p.db.jobs.find? jobId = o at hv
  generalize p.executions jobId = xs at hv
  cases hv with
  | @handling r x _ _ hd hphase hrequested =>
    refine ⟨r, rfl, hrequested, ?_⟩
    rw [hphase] at hd
    obtain ⟨hcolumn, hjson⟩ := hd
    rw [hjson]
    revert hcolumn
    cases r.job.status <;> decide
  | @ended r x _ hd hphase hrequested =>
    refine ⟨r, rfl, hrequested, ?_⟩
    rw [hphase] at hd
    obtain ⟨hcolumn, hjson⟩ := hd.cancelled hrequested
    rw [hcolumn, hjson]
    decide

/-- `_finalize` of the running handler cancels the job. -/
theorem Sound.exists_cancelled (h : p.Sound stableHash)
    (hv : Cancelling stableHash (p.view jobId)) :
    ∃ more : List Step, (more.foldl (Profile.step stableHash) p).Cancelled jobId := by
  generalize hview : p.view jobId = v at hv
  cases hv with
  | @ended r x _ hd hphase hrequested =>
    refine ⟨[], r, congrArg Prod.fst hview, ?_⟩
    rw [hphase] at hd
    exact hd.cancelled hrequested
  | @handling r x hl hx hd hphase hrequested =>
    have hexec : p.executions jobId = [x] := congrArg Prod.snd hview
    have hat : (p.executions jobId)[0]? = some x := by rw [hexec]; rfl
    have hclaim : x.claim.jobId = jobId := h.owned jobId x (by rw [hexec]; exact List.mem_singleton_self x)
    refine ⟨[.finalize jobId 0 .nothing 0], r.finish r.job.jobJson r.attempt.attemptJson .nothing 0,
      ?_, ?_⟩
    · simp only [List.foldl_cons, List.foldl_nil, Profile.step, hat, if_pos hphase]
      rw [find?_finalize, if_pos hclaim.symm, show p.db.jobs.find? jobId = some r from
        congrArg Prod.fst hview, Option.map_some, hx.finalize hl]
      rfl
    · have hfinal : finalJob r.job.jobJson .nothing = .cancelled := if_pos (.inl hrequested)
      exact ⟨hfinal, hfinal⟩

/-- A cancelled handler starts no other one. -/
theorem Sound.noneStarted (h : p.Sound stableHash) (hv : Cancelling stableHash (p.view jobId))
    (labels : List Step) :
    NoneStarted p (labels.foldl (Profile.step stableHash) p) jobId := by
  have hrun := h.cancelling_run hv labels
  generalize hview : p.view jobId = v at hv
  intro k y hy hphase
  cases hv with
  | @handling r x _ _ _ hx _ =>
    have hexec : p.executions jobId = [x] := congrArg Prod.snd hview
    generalize hlater : (labels.foldl (Profile.step stableHash) p).view jobId = w at hrun
    obtain ⟨z, hz⟩ : ∃ z, ((labels.foldl (Profile.step stableHash) p).executions jobId) = [z] := by
      cases hrun with
      | handling | ended => exact ⟨_, congrArg Prod.snd hlater⟩
    rw [hz] at hy
    obtain ⟨rfl, rfl⟩ := eq_of_getElem?_singleton hy
    exact ⟨x, by rw [hexec]; rfl, hx⟩
  | @ended r x held during hx _ =>
    have hlater := h.view_run_of_ended hview held during hx labels
    rw [show (labels.foldl (Profile.step stableHash) p).executions jobId = [x] from
      congrArg Prod.snd hlater] at hy
    obtain ⟨rfl, rfl⟩ := eq_of_getElem?_singleton hy
    rw [hx] at hphase
    cases hphase

theorem Sound.honoured (h : p.Sound stableHash) (hv : Cancelling stableHash (p.view jobId)) :
    p.Honoured stableHash jobId := by
  intro labels
  have hrun := h.cancelling_run hv labels
  exact ⟨cancelKept_of_cancelling hrun, h.noneStarted hv labels,
    (h.run labels).exists_cancelled hrun⟩

end Profile

/-- A cancelled job that no claim accepts. -/
structure JobRows.Stuck (r : JobRows) : Prop where
  linked : r.Linked
  unclaimed : r.Unclaimed
  column : r.job.status = .cancelling
  json : r.job.jobJson.status = .cancelling

/-- The step lemma: a stuck job stays stuck. -/
theorem JobStep.stuck (h : JobStep stableHash a (some r, []) v) (hr : r.Stuck) :
    ∃ r' : JobRows, v = (some r', []) ∧ r'.Stuck := by
  have halive := h.of_waiting hr.linked hr.unclaimed
  cases h with
  | kept _ _ => exact ⟨r, rfl, hr⟩
  | eventClaimed _ =>
    cases halive with
    | waiting hl hu => exact ⟨_, rfl, hl, hu, hr.column, hr.json⟩
  | @acknowledged _ _ messageId now _ _ _ =>
    cases halive with
    | waiting hl hu =>
      have hjob : r.job.dispatch now = r.job := by
        unfold JobRow.dispatch
        rw [hr.column]
        exact if_neg (by decide)
      refine ⟨_, rfl, hl, hu, ?_, ?_⟩ <;> unfold JobRows.acknowledge <;> dsimp only <;> rw [hjob]
      · exact hr.column
      · exact hr.json
  | claimed dispatched =>
    have hcolumn := dispatched.1
    rw [hr.column] at hcolumn
    cases hcolumn
  | read at_k _ _ | raised at_k _ _ => cases at_k
  | started at_k _ | finalized at_k _ => cases at_k
  | cancelled _ _ =>
    cases halive with
    | waiting hl hu => exact ⟨_, rfl, hl, hu, rfl, rfl⟩

namespace Profile

variable {r : JobRows} {job : JobRecord} {x : Execution}

/-- A stuck job never arrives at `cancelled`. -/
theorem Sound.not_cancelled_of_stuck (h : p.Sound stableHash)
    (hv : p.view jobId = (some r, [])) (hr : r.Stuck) (labels : List Step) :
    ¬ (labels.foldl (Profile.step stableHash) p).Cancelled jobId := by
  induction labels generalizing p r with
  | nil =>
    rintro ⟨r', hr', _, hjson⟩
    have hfind : p.db.jobs.find? jobId = some r := congrArg Prod.fst hv
    cases hfind.symm.trans hr'
    rw [hr.json] at hjson
    cases hjson
  | cons a labels ih =>
    have hstep := jobStep stableHash h.owned a jobId
    rw [hv] at hstep
    obtain ⟨r', hv', hr'⟩ := hstep.stuck hr
    exact ih (h.step a) hv' hr'

variable (stableHash) in
theorem executions_writeRunning {attempt : JobAttempt}
    (hx : p.executions jobId = [x]) (hphase : x.phase = .read job attempt) (now : Timestamp) :
    (p.step stableHash (.writeRunning jobId 0 now)).executions jobId =
      [{ x with phase := .handling }] := by
  have hat : (p.executions jobId)[0]? = some x := by rw [hx]; rfl
  simp only [Profile.step, hat, hphase]
  rw [moveTo_apply, if_pos rfl, hx]
  rfl

theorem executions_readClaimed (hx : p.executions jobId = [x])
    (hphase : x.phase = .claimed) (hr : p.db.jobs.find? jobId = some r) (hl : r.Linked)
    (hheld : r.HeldBy stableHash x) (hclaim : x.claim.jobId = jobId) :
    (p.step stableHash (.readClaimed jobId 0)).executions jobId =
      [{ x with phase := .read r.job.jobJson r.attempt.attemptJson }] := by
  have hat : (p.executions jobId)[0]? = some x := by rw [hx]; rfl
  have hread : Team.readClaimed stableHash x.claim p.db =
      .ok (r.job.jobJson, r.attempt.attemptJson) := by
    rw [Team.readClaimed, hclaim, hr, orError_some, except_bind_ok, hheld.read hl]
  simp only [Profile.step, hat, if_pos hphase, readBy, hread]
  rw [moveTo_apply, if_pos rfl, hx]
  rfl

theorem not_honoured_of_started (labels : List Step) {y : Execution}
    (hx : p.executions jobId = [x]) (hphase : x.phase ≠ .handling)
    (hy : (labels.foldl (Profile.step stableHash) p).executions jobId = [y])
    (hstarted : y.phase = .handling) : ¬ p.Honoured stableHash jobId := by
  intro h
  obtain ⟨z, hz, hrunning⟩ := (h labels).2.1 0 y (by rw [hy]; rfl) hstarted
  rw [hx] at hz
  cases hz
  exact hphase hrunning

/-- A claimed job that is cancelled before its handler runs. -/
theorem Sound.not_honoured_of_held (h : p.Sound stableHash)
    (hv : p.view jobId = (some r, [x])) (hl : r.Linked) (hx : r.HeldBy stableHash x)
    (hopen : x.phase ≠ .ended) (hphase : x.phase ≠ .handling) :
    ¬ p.Honoured stableHash jobId := by
  have hr : p.db.jobs.find? jobId = some r := congrArg Prod.fst hv
  have hexec : p.executions jobId = [x] := congrArg Prod.snd hv
  have hclaim : x.claim.jobId = jobId := h.owned jobId x (by rw [hexec]; exact List.mem_singleton_self x)
  cases hp : x.phase with
  | claimed =>
    have hread := executions_readClaimed hexec hp hr hl hx hclaim
    have hwrite := executions_writeRunning stableHash hread rfl 0
    exact not_honoured_of_started [.readClaimed jobId 0, .writeRunning jobId 0 0] hexec
      hphase hwrite rfl
  | read job attempt =>
    exact not_honoured_of_started [.writeRunning jobId 0 0] hexec hphase
      (executions_writeRunning stableHash hexec hp 0) rfl
  | handling => exact absurd hp hphase
  | ended => exact absurd hp hopen

variable (stableHash) in
/-- What an answer of `request_cancel` says about the stored job. -/
theorem requestCancel_returns {now : Timestamp} (h : (requestCancel jobId now p.db).1 = .ok job) :
    ∃ r, p.db.jobs.find? jobId = some r ∧
      ((r.job.jobJson.status.Terminal ∧ job = r.job.jobJson ∧
          p.step stableHash (.requestCancel jobId now) = p) ∨
        (¬ r.job.jobJson.status.Terminal ∧
          (p.step stableHash (.requestCancel jobId now)).view jobId =
            (some (r.writeJob (r.job.jobJson.cancel now) now),
              p.executions jobId))) := by
  dsimp only [step]
  unfold requestCancel at h ⊢
  cases hr : p.db.jobs.find? jobId with
  | none =>
    rw [hr] at h
    cases h
  | some r =>
    refine ⟨r, rfl, ?_⟩
    rw [hr, orError_some, except_bind_ok] at h
    rw [orError_some, except_bind_ok]
    by_cases hacc : r.job.jobJson.Accepted
    · rw [load, if_pos hacc, except_bind_ok] at h ⊢
      split_ifs at h ⊢ with hterm
      · cases h
        exact .inl ⟨hterm, rfl, rfl⟩
      · refine .inr ⟨hterm, ?_⟩
        have hkey : r.jobId = jobId := Table.find?_key hr
        change ((p.db.update _).jobs.find? jobId, _) = _
        rw [find?_update (hkey ▸ hr) (r.writeJob_jobId _ now), if_pos hkey.symm]
    · rw [load, if_neg hacc] at h
      cases h

/-- A cancellation is honoured exactly when its job is finished or its handler runs. -/
theorem Sound.honoured_iff (h : p.Sound stableHash) {now : Timestamp}
    (hreturn : (requestCancel jobId now p.db).1 = .ok job) (hreq : job.cancelRequested = true) :
    (p.step stableHash (.requestCancel jobId now)).Honoured stableHash jobId ↔
      p.Settled jobId ∨ p.HandlerRuns jobId := by
  obtain ⟨r, hr, ⟨hterm, rfl, hstep⟩ | ⟨hterm, hview⟩⟩ :=
    requestCancel_returns stableHash hreturn
  · obtain ⟨x, hv, hx, hd, hended⟩ := h.ended hr (.inl hterm)
    rw [hstep]
    refine iff_of_true (h.honoured ?_) (.inl ⟨r, hr, hterm⟩)
    rw [hv]
    exact .ended hx hd hended hreq
  · have hnext := h.step (.requestCancel jobId now)
    have hunsettled : ¬ p.Settled jobId := by
      rintro ⟨r', hr', hterm'⟩
      rw [hr] at hr'
      cases hr'
      exact hterm hterm'
    have halive := h.alive jobId
    unfold view at halive
    rw [hr] at halive
    generalize hxs : p.executions jobId = xs at halive hview
    cases halive with
    | waiting hl hu =>
      have hruns : ¬ p.HandlerRuns jobId := by
        rintro ⟨x, hx, _⟩
        rw [hxs] at hx
        cases hx
      refine iff_of_false ?_ (not_or.mpr ⟨hunsettled, hruns⟩)
      intro hhon
      obtain ⟨_, _, more, hmore⟩ := hhon []
      refine hnext.not_cancelled_of_stuck hview ⟨hl.cancel hterm, ⟨hu.attempt, ?_, ?_⟩, rfl, rfl⟩
        more hmore <;>
        exact show JobStatus.cancelling ∈ _ by decide
    | @held _ x hl hx hd =>
      by_cases hphase : x.phase = .handling
      · refine iff_of_true (hnext.honoured ?_) (.inr ⟨x, by rw [hxs]; exact List.mem_singleton_self x, hphase⟩)
        rw [hview]
        exact .handling (hl.cancel hterm) (hx.write _ _) (hd.cancel hterm) hphase rfl
      · have hruns : ¬ p.HandlerRuns jobId := by
          rintro ⟨y, hy, hyphase⟩
          rw [hxs] at hy
          rw [List.mem_singleton.mp hy] at hyphase
          exact hphase hyphase
        have hopen : x.phase ≠ .ended := fun he => hterm (hd.terminal_iff.mpr he |>.elim id
          fun hcolumn => by
            rw [he] at hd
            rwa [hd.2.1] at hcolumn)
        exact iff_of_false (hnext.not_honoured_of_held hview (hl.cancel hterm) (hx.write _ _)
          hopen hphase) (not_or.mpr ⟨hunsettled, hruns⟩)

/-- `_finalize` with a token or an attempt that is not the current one changes no row. -/
theorem finalize_of_stale {attemptId token : String} (h : p.Stale stableHash jobId attemptId token)
    (outcome : Outcome) (now : Timestamp) :
    (finalize stableHash jobId attemptId token outcome now p.db).2 = p.db := by
  unfold finalize
  cases hr : p.db.jobs.find? jobId with
  | none => rfl
  | some r =>
    dsimp only
    unfold JobRows.finalize
    split_ifs with hcurrent
    · have hnumber : r.job.jobJson.currentAttemptNumber ≠ r.attempt.attemptJson.attemptNumber := by
        rcases h r hr with hid | htoken | hnumber
        · exact absurd hcurrent.1 hid
        · exact absurd hcurrent.2.symm htoken
        · exact hnumber.symm
      by_cases hjob : r.job.jobJson.Accepted
      · by_cases hattempt : r.attempt.attemptJson.Accepted
        · rw [load, if_pos hjob, load, if_pos hattempt]
          simp only [except_bind_ok, if_pos hnumber]
          exact congrArg (fun jobs => ({ p.db with jobs := jobs } : Database))
            (Table.replace_of_mem (Table.find?_mem hr))
        · rw [load, if_pos hjob, load, if_neg hattempt]
          rfl
      · rw [load, if_neg hjob]
        rfl
    · exact congrArg (fun jobs => ({ p.db with jobs := jobs } : Database))
        (Table.replace_of_mem (Table.find?_mem hr))

end Profile

/-- In every state that any interleaving of the transactions reaches: an answered
cancellation is honoured exactly when it finds the job finished or its handler running; a
finished job never changes again; and a stale `_finalize` changes no row. -/
theorem cancellation_honoured_iff (stableHash : String → String) (labels : List Step) :
    let p := labels.foldl (Profile.step stableHash) .start
    (∀ jobId now job, (requestCancel jobId now p.db).1 = .ok job → job.cancelRequested = true →
      ((p.step stableHash (.requestCancel jobId now)).Honoured stableHash jobId ↔
        p.Settled jobId ∨ p.HandlerRuns jobId)) ∧
    (∀ jobId r, p.db.jobs.find? jobId = some r →
      r.job.jobJson.status.Terminal ∨ r.job.status.Terminal →
      ∀ more : List Step,
        (more.foldl (Profile.step stableHash) p).db.jobs.find? jobId = some r) ∧
    ∀ jobId attemptId token, p.Stale stableHash jobId attemptId token → ∀ outcome now,
      (finalize stableHash jobId attemptId token outcome now p.db).2 = p.db := by
  intro p
  have h : p.Sound stableHash := Profile.sound_start.run labels
  refine ⟨?_, ?_, ?_⟩
  · intro jobId now job hreturn hreq
    exact h.honoured_iff hreturn hreq
  · intro jobId r hr hterm more
    obtain ⟨x, hv, hx, hd, hended⟩ := h.ended hr hterm
    exact congrArg Prod.fst (h.view_run_of_ended hv hx hd hended more)
  · intro jobId attemptId token hstale outcome now
    exact Profile.finalize_of_stale hstale outcome now

namespace Sample

def readStart : List Step :=
  dispatch ++ [.claimNextJob "worker" ⟨some "job_j", some "attempt_a"⟩ ["cra.analysis"]
    (fun _ => false) "execution token" none 5, .readClaimed "job_j" 0]

def finishStart : List Step := [.writeRunning "job_j" 0 7, .finalize "job_j" 0 .nothing 8]

end Sample

/-- The start overwrites a cancellation that was answered, and the job completes. -/
theorem cancellation_lost_by_start :
    ¬ ∀ (stableHash : String → String) (labels : List Step),
      let p := labels.foldl (Profile.step stableHash) Profile.start
      ∀ jobId now job, (requestCancel jobId now p.db).1 = .ok job → job.cancelRequested = true →
        (p.step stableHash (.requestCancel jobId now)).Honoured stableHash jobId := by
  intro h
  have hanswer : ∃ job,
      (requestCancel "job_j" 6
        (Sample.readStart.foldl (Profile.step Sample.digest) .start).db).1.toOption = some job ∧
      job.cancelRequested = true := by decide +kernel
  obtain ⟨job, hreturn, hreq⟩ := hanswer
  obtain ⟨⟨r, hr, hkept, _⟩, _⟩ := h Sample.digest Sample.readStart "job_j" 6 job
    (except_toOption_eq_some_iff.mp hreturn) hreq Sample.finishStart
  have hlost : ∀ r ∈ (Sample.finishStart.foldl (Profile.step Sample.digest)
      ((Sample.readStart.foldl (Profile.step Sample.digest) .start).step Sample.digest
        (.requestCancel "job_j" 6))).db.jobs.find? "job_j",
      r.job.jobJson.cancelRequested = false := by decide +kernel
  rw [hlost r hr] at hkept
  cases hkept

end CodeResearch.Team
