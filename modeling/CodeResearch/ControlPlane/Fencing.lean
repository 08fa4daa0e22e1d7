import CodeResearch.ControlPlane.Ledger
import CodeResearch.ControlPlane.Terminal
import Mathlib

/-!
# Fencing of superseded attempts

A call that presents an attempt behind the current one touches no other row.
Together with the ledger this leaves room for one successful completion in the
life of a job, whose result references are the ones the job keeps.
-/
namespace CodeResearch.ControlPlane

def StoreOp.Presents (op : StoreOp) (attemptId : String) : Prop :=
  match op with
  | .transitionAttempt id _ _ _ _ | .heartbeatAttempt id _ | .completeAttempt id _ _ _ _ =>
    id = attemptId
  | _ => False

instance (op : StoreOp) (attemptId : String) : Decidable (op.Presents attemptId) := by
  unfold StoreOp.Presents
  cases op <;> infer_instance

/-- Only rows of the attempt `attemptId` differ. -/
structure SameBut (attemptId : String) (s t : Store) : Prop where
  jobs : t.jobs = s.jobs
  outbox : t.outbox = s.outbox
  attempts : ∀ id, id ≠ attemptId → t.attempts.find? id = s.attempts.find? id

theorem SameBut.refl (attemptId : String) (s : Store) : SameBut attemptId s s :=
  ⟨rfl, rfl, fun _ _ => rfl⟩

theorem sameBut_updateAttempt (s : Store) (a : JobAttempt) :
    SameBut a.attemptId s (s.updateAttempt a) :=
  ⟨rfl, rfl, fun _ hid => Table.find?_replace_of_ne _ hid⟩

variable (stableHash : String → String)

variable {c : StoreCall} {j : JobRecord} {s : Store} {jobId : String}

/-- A superseded attempt can rewrite nothing but its own row. -/
theorem superseded_sameBut {a : JobAttempt}
    (ha : s.attempts.find? a.attemptId = some a) (hj : s.jobs.find? a.jobId = some j)
    (hlt : a.attemptNumber < j.currentAttemptNumber) (hc : c.op.Presents a.attemptId) :
    SameBut a.attemptId s (s.perform stableHash c) := by
  obtain ⟨op, now⟩ := c
  cases op with
  | transitionAttempt id token target worker celery =>
    obtain rfl : id = a.attemptId := hc
    rcases transitionAttempt_cases stableHash a.attemptId token target worker celery now s with
      ⟨e, heq⟩ | ⟨b, hb, _, _, heq⟩
    · simp only [Store.perform, heq]
      exact .refl _ _
    · simp only [Store.perform, heq]
      rw [← Table.find?_key hb]
      exact sameBut_updateAttempt s (b.moveTo target worker celery now)
  | heartbeatAttempt id token =>
    obtain rfl : id = a.attemptId := hc
    rcases heartbeatAttempt_cases stableHash a.attemptId token now s with ⟨e, heq⟩ | ⟨b, hb, heq⟩
    · simp only [Store.perform, heq]
      exact .refl _ _
    · simp only [Store.perform, heq]
      rw [← Table.find?_key hb]
      exact sameBut_updateAttempt s (b.beat now)
  | completeAttempt id token status errorCode refs =>
    obtain rfl : id = a.attemptId := hc
    rcases completeAttempt_cases stableHash a.attemptId token status errorCode refs now s with
      ⟨e, heq⟩ | ⟨b, k, done, heq⟩
    · simp only [Store.perform, heq]
      exact .refl _ _
    · -- a completion is accepted for the current attempt only
      obtain rfl : a = b := Option.some.inj (ha.symm.trans done.attempt)
      obtain rfl : j = k := Option.some.inj (hj.symm.trans done.job)
      exact absurd done.current (by omega)
  | _ => exact hc.elim

/-- The calls of the job backends: besides dispatching, only a success passes
result references. -/
def StoreOp.Backend (op : StoreOp) : Prop :=
  op.Dispatching ∧
  match op with
  | .completeAttempt _ _ status _ refs => status ≠ .succeeded → refs = none
  | _ => True

instance (op : StoreOp) : Decidable op.Backend := by
  unfold StoreOp.Backend
  refine @instDecidableAnd _ _ inferInstance ?_
  cases op <;> infer_instance

def Store.resultRefs (s : Store) (jobId : String) : List String :=
  ((s.jobs.find? jobId).map JobRecord.resultArtifactRefIds).getD []

/-- The references passed by a call that completes an attempt of the job as
`succeeded`, if the call takes effect. -/
def Store.succeeds (s : Store) (c : StoreCall) (jobId : String) : Option (List String) :=
  match c.op with
  | .completeAttempt attemptId token status errorCode refs =>
    match (completeAttempt stableHash attemptId token status errorCode refs c.now s).1 with
    | .ok (_, job) =>
      if status = .succeeded ∧ job.jobId = jobId then some (refs.getD []) else none
    | .error _ => none
  | _ => none

/-- What the effective successes of a job passed, in the order of a run. -/
def Store.successes (s : Store) (jobId : String) : List StoreCall → List (List String)
  | [] => []
  | c :: calls =>
    (s.succeeds stableHash c jobId).toList ++ (s.perform stableHash c).successes jobId calls

variable {stableHash} {calls : List StoreCall}

theorem succeeds_of_completion {attemptId token : String} {status : AttemptStatus}
    {errorCode : Option String} {refs : Option (List String)} {now : Timestamp} {a : JobAttempt} (h : Completion stableHash s attemptId token status errorCode refs now a j)
    (jobId : String) :
    s.succeeds stableHash ⟨.completeAttempt attemptId token status errorCode refs, now⟩ jobId =
      if status = .succeeded ∧ j.jobId = jobId then some (refs.getD []) else none := by
  simp only [Store.succeeds, completeAttempt_eq stableHash h]
  rfl

theorem completion_of_succeeds
    {refs : List String} (h : s.succeeds stableHash c jobId = some refs) :
    ∃ attemptId token errorCode passed a j,
      c.op = .completeAttempt attemptId token .succeeded errorCode passed ∧
      Completion stableHash s attemptId token .succeeded errorCode passed c.now a j ∧
      j.jobId = jobId ∧ refs = passed.getD [] := by
  obtain ⟨op, now⟩ := c
  cases op with
  | completeAttempt attemptId token status errorCode passed =>
    rcases completeAttempt_cases stableHash attemptId token status errorCode passed now s with
      ⟨e, heq⟩ | ⟨a, j, done, heq⟩
    · simp [Store.succeeds, heq] at h
    · rw [succeeds_of_completion done] at h
      split_ifs at h with hif
      obtain ⟨rfl, hid⟩ := hif
      exact ⟨_, _, _, _, a, j, rfl, done, hid, (Option.some.inj h).symm⟩
  | _ => simp [Store.succeeds] at h

theorem Ledger.not_finalises (h : Ledger s) (hj : j ∈ s.jobs.rows)
    (hterm : j.status.Terminal) (op : StoreOp) : ¬ op.Finalises stableHash s j := by
  intro hfin
  unfold StoreOp.Finalises at hfin
  split at hfin
  · obtain ⟨_, a, ha, _, hown, _, _, hcomp⟩ := hfin
    exact not_final_of_completable hcomp (h.final_of_atRest hj ha hown (.inl hterm))
  · exact hfin

theorem Ledger.perform_terminal (h : Ledger s) (c : StoreCall) (hj : s.jobs.find? jobId = some j)
    (hterm : j.status.Terminal) :
    (s.perform stableHash c).jobs.find? jobId = some j :=
  ControlPlane.perform_terminal hj hterm (h.not_finalises (Table.find?_mem hj) hterm c.op)

/-- A finished job does not succeed again. -/
theorem Ledger.successes_of_terminal {t : Store} (h : Ledger s) (hj : s.jobs.find? jobId = some j)
    (hterm : j.status.Terminal)
    (hrun : (storeMachine stableHash).Run (fun _ c => c.op.Backend) s calls t) :
    s.successes stableHash jobId calls = [] ∧ t.jobs.find? jobId = some j := by
  induction hrun with
  | nil s => exact ⟨rfl, hj⟩
  | @cons s u t c calls hc hs _ ih =>
    obtain rfl : s.perform stableHash c = u := Option.some.inj hs
    obtain ⟨hnone, ht⟩ := ih (h.perform stableHash hc.1) (h.perform_terminal c hj hterm)
    refine ⟨?_, ht⟩
    rw [Store.successes, hnone, List.append_nil]
    cases hsuc : s.succeeds stableHash c jobId with
    | none => rfl
    | some refs =>
      obtain ⟨_, _, _, _, a, k, hop, done, hid, _⟩ := completion_of_succeeds hsuc
      obtain rfl : j = k := s.jobs.eq_of_key_eq (Table.find?_mem hj) (Table.find?_mem done.job)
        ((Table.find?_key hj).trans hid.symm)
      exact absurd (hop ▸ done.finalises) (h.not_finalises (Table.find?_mem hj) hterm c.op)

/-- A call that is no success keeps the references of a job. -/
theorem resultRefs_perform (hc : c.op.Backend) (h : s.succeeds stableHash c jobId = none) :
    (s.perform stableHash c).resultRefs jobId = s.resultRefs jobId := by
  have hstep := perform_jobStep stableHash s c jobId
  unfold Store.resultRefs
  generalize hrow : s.jobs.find? jobId = row at hstep
  generalize (s.perform stableHash c).jobs.find? jobId = row' at hstep
  cases hstep with
  | kept | inserted => rfl
  | changed hchange =>
    obtain ⟨op, now⟩ := c
    cases hchange with
    | @completed attemptId token status errorCode refs _ a j done =>
      rw [succeeds_of_completion done, Table.find?_key hrow] at h
      have hne : status ≠ .succeeded := by
        intro heq
        simp [heq] at h
      have hnone : refs = none := hc.2 hne
      subst hnone
      rfl
    | _ => rfl

/-- A success hands its references to a job that had none and finishes it. -/
theorem resultRefs_of_succeeds {refs : List String} (h : s.succeeds stableHash c jobId = some refs)
    (hempty : s.resultRefs jobId = []) :
    ∃ j, (s.perform stableHash c).jobs.find? jobId = some j ∧ j.status.Terminal ∧
      j.resultArtifactRefIds = refs := by
  obtain ⟨op, now⟩ := c
  obtain ⟨attemptId, token, errorCode, passed, a, j, rfl, done, hid, rfl⟩ :=
    completion_of_succeeds h
  have hj : s.jobs.find? jobId = some j := by
    rw [← hid, Table.find?_key done.job]
    exact done.job
  have hnone : j.resultArtifactRefIds = [] := by
    simpa [Store.resultRefs, hj] using hempty
  refine ⟨j.complete .succeeded errorCode passed now, ?_, ?_, ?_⟩
  · simp only [Store.perform, completeAttempt_eq stableHash done]
    exact Table.find?_replace_of_key hid (by rw [Store.updateAttempt_jobs, hj]; rfl)
  · show JobStatus.Terminal .completed
    decide
  · simp only [JobRecord.complete, hnone]
    cases passed with
    | none => rfl
    | some passed =>
      by_cases hp : passed = [] <;> simp [hp, Option.filter]

/-- Along a run of backend calls a job succeeds at most once, and its references
are those of its success. -/
theorem Ledger.successes {t : Store} (h : Ledger s)
    (hrun : (storeMachine stableHash).Run (fun _ c => c.op.Backend) s calls t)
    (hempty : s.resultRefs jobId = []) :
    (s.successes stableHash jobId calls).length ≤ 1 ∧
      t.resultRefs jobId = (s.successes stableHash jobId calls).headD [] := by
  induction hrun with
  | nil s => exact ⟨Nat.zero_le 1, hempty⟩
  | @cons s u t c calls hc hs hrun ih =>
    obtain rfl : s.perform stableHash c = u := Option.some.inj hs
    have hledger := h.perform stableHash hc.1
    cases hsuc : s.succeeds stableHash c jobId with
    | none =>
      rw [Store.successes, hsuc]
      exact ih hledger ((resultRefs_perform hc hsuc).trans hempty)
    | some refs =>
      obtain ⟨j, hj, hterm, hrefs⟩ := resultRefs_of_succeeds hsuc hempty
      obtain ⟨hnone, ht⟩ := hledger.successes_of_terminal hj hterm hrun
      rw [Store.successes, hsuc, hnone, Store.resultRefs, ht]
      exact ⟨le_rfl, hrefs⟩

variable (stableHash)

/-- Superseded attempts are fenced off, so a job has one successful result. -/
theorem fencing {calls : List StoreCall} {s : Store}
    (hrun : (storeMachine stableHash).Run (fun _ c => c.op.Backend) .empty calls s) :
    (∀ a ∈ s.attempts.rows, ∀ j, s.jobs.find? a.jobId = some j →
      a.attemptNumber < j.currentAttemptNumber → ∀ c : StoreCall, c.op.Presents a.attemptId →
        SameBut a.attemptId s (s.perform stableHash c)) ∧
    ∀ jobId, (Store.empty.successes stableHash jobId calls).length ≤ 1 ∧
      s.resultRefs jobId = (Store.empty.successes stableHash jobId calls).headD [] := by
  refine ⟨?_, fun jobId => Ledger.empty.successes hrun rfl⟩
  intro a ha j hj hlt c hc
  exact superseded_sameBut stableHash (Table.find?_of_mem ha) hj hlt hc

def lateResult : List StoreCall :=
  retriedJob ++ [⟨.completeAttempt "attempt_3" "3" .succeeded none (some ["artifact"]), 6⟩,
    ⟨.completeAttempt "attempt_1" "1" .succeeded none (some ["late"]), 7⟩]

theorem fencing_lateResult :
    (lateResult.foldl (Store.perform id) .empty).resultRefs "job_1" = ["artifact"] ∧
      (Store.empty.successes id "job_1" lateResult).length ≤ 1 :=
  ⟨by decide, ((fencing id (Machine.run_total (Store.perform id)
    (show ((storeMachine id).exec _ _ lateResult).isSome by decide))).2 "job_1").1⟩

end CodeResearch.ControlPlane
