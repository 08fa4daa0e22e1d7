import CodeResearch.ControlPlane.Dispatch

/-!
# Dead jobs of the backend have used their attempts

The run of a backend is recorded with the attempts that were dispatched. A restart
spends the attempts that still wait in the queue, so a few restarts kill a job whose
handler was never called; so do a shutdown that gives up on waiting tasks and a
store that is busy before the dispatch. Without these a job dies of dispatched
attempts only.
-/
namespace CodeResearch.ControlPlane.Backend

/-- A backend and the attempts that it and the processes before it dispatched. -/
structure RetryRun where
  backend : Backend
  dispatched : List String

variable (cfg : BackendConfig)

def dispatches (b : Backend) (t : Task) (env : CallEnv) : Bool :=
  match ((dispatchExecution cfg.stableHash env t.created).runOn b.store).1 with
  | .ok dispatched => dispatched
  | .error _ => false

def dispatchedBy (b : Backend) : Event → List String
  | .beginTask attemptId env =>
    ((task? b.tasks attemptId false).filter fun t => dispatches cfg b t env).toList.map
      Task.attemptId
  | _ => []

def recordStep (r : RetryRun) (ev : Event) : Option RetryRun :=
  (step cfg r.backend ev).map fun b => ⟨b, r.dispatched ++ dispatchedBy cfg r.backend ev⟩

def recorded : Machine RetryRun Event := ⟨recordStep cfg⟩

/-- An empty store and no process yet. -/
def RetryRun.empty : RetryRun := ⟨boot .empty [], []⟩

def RetryRun.Spares (r : RetryRun) : Event → Prop
  | .start _ _ => ∀ j ∈ r.backend.store.jobs.rows, NoneQueued r.backend.store j
  | .beginTask _ env => env.DispatchesQuietly
  | .shutdownLost attemptId _ => attemptId ∈ r.dispatched
  | _ => True

def HonestRetries (G : RetryRun → Event → Prop) : Prop :=
  ∀ (evs : List Event) (r : RetryRun), (recorded cfg).Run G .empty evs r →
    ∀ j ∈ r.backend.store.jobs.rows, j.status = .dead →
      j.maxAttempts ≤ (r.backend.store.attempts.rows.filter fun a =>
        a.jobId = j.jobId ∧ a.attemptId ∈ r.dispatched).length

structure RetryRun.Inv (r : RetryRun) : Prop where
  accounted : Accounted r.dispatched r.backend.store
  running : ∀ t ∈ r.backend.tasks ++ r.backend.detached, t.running = true →
    t.attemptId ∈ r.dispatched

theorem RetryRun.Inv.empty : RetryRun.Inv .empty :=
  ⟨.empty, by simp [RetryRun.empty, boot]⟩

variable {cfg} {b b' : Backend} {ev : Event} {r r' : RetryRun}

variable {attemptId : String} {t : Task} {created : CreatedJob}

theorem mem_dispatchedBy {env : CallEnv} (ht : task? b.tasks attemptId false = some t)
    (h : ∃ u, (dispatchExecution cfg.stableHash env t.created).runOn b.store = (.ok true, u)) :
    t.attemptId ∈ dispatchedBy cfg b (.beginTask attemptId env) := by
  obtain ⟨u, hu⟩ := h
  have hd : dispatches cfg b t env = true := by rw [dispatches, hu]
  simp [dispatchedBy, ht, hd]

/-- A task in its handler was there before, or its attempt has just been dispatched. -/
theorem running_of_step (h : step cfg b ev = some b')
    (ht : t ∈ b'.tasks ++ b'.detached) (hrun : t.running = true) :
    t ∈ b.tasks ++ b.detached ∨ t.attemptId ∈ dispatchedBy cfg b ev := by
  cases step_tasks cfg h ht with
  | kept ht => exact .inl ht
  | called _ _ hev hu hp =>
    have hmem := mem_dispatchedBy hu (dispatched_of_inHandler cfg.stableHash hp)
    rw [(mem_of_task? hu).2.1, ← hev] at hmem
    exact .inr hmem
  | scheduled hwaits => exact absurd hrun (by rw [hwaits]; exact Bool.false_ne_true)

theorem finalising_honest {op : StoreOp} {dispatched : List String}
    (h : op.Finalising created) (hin : created.attempt.attemptId ∈ dispatched) :
    op.Dispatching ∧ op.Honest dispatched := by
  refine ⟨(StoreOp.OfTask.backend (.inl h)).1, ?_⟩
  cases op <;> simp only [StoreOp.Finalising] at h
  · exact .inl (h.1 ▸ hin)
  · trivial

/-- One event that spares the waiting attempts keeps the account. -/
theorem Accounted.step (hinv : r.Inv) (hspares : r.Spares ev)
    (h : step cfg r.backend ev = some b') :
    Accounted (r.dispatched ++ dispatchedBy cfg r.backend ev) b'.store := by
  have hs := hinv.accounted
  -- the calls of most events are honest whatever was dispatched
  have hcalls : (∀ c, ev.Permits r.backend c → c.op.Honest r.dispatched) →
      Accounted (r.dispatched ++ dispatchedBy cfg r.backend ev) b'.store := by
    intro hhonest
    obtain ⟨calls, hcalls, heq⟩ := step_permitted cfg h
    apply Accounted.mono _ (List.subset_append_left _ _)
    rw [heq]
    exact List.foldlRecOn calls _ hs fun s hacc c hc =>
      hacc.perform (hcalls c hc).backend.1 (hhonest c (hcalls c hc))
  cases ev with
  | start fresh now =>
    simp only [Backend.step] at h
    split_ifs at h
    cases h
    rw [start_store]
    exact (hs.recover hspares fresh now).mono (List.subset_append_left _ _)
  | submit | cancel | retry =>
    apply hcalls
    rintro c rfl
    trivial
  | heartbeat =>
    apply hcalls
    rintro c ⟨_, _, _, rfl⟩
    trivial
  | shutdownBegin | shutdownDeadline | shutdownEnd | crash => exact hcalls fun _ hc => hc.elim
  | shutdownLost attemptId env =>
    apply hcalls
    rintro c ⟨t, _, hid, hc⟩
    exact (finalising_honest hc (by rw [← Task.attemptId, hid]; exact hspares)).2
  | finishTask attemptId outcome env =>
    simp only [Backend.step] at h
    have hsegment : ∀ t flag, t ∈ r.backend.tasks ++ r.backend.detached → t.running = true →
        Accounted r.dispatched ((executeEnd cfg.stableHash env flag t.created outcome).runOn
          r.backend.store).2 := by
      intro t flag hmem hrun
      apply (executeEnd_emits cfg.stableHash env t.created flag outcome).invariant
        (Accounted r.dispatched) _ hs
      intro s c hacc hc
      have hhonest := finalising_honest hc (hinv.running t hmem hrun)
      exact hacc.perform hhonest.1 hhonest.2
    apply Accounted.mono _ (List.subset_append_left _ _)
    split at h
    · rename_i t ht
      cases h
      obtain ⟨hmem, -, hrun⟩ := mem_of_task? ht
      rw [finishTask, settle_store]
      exact hsegment t _ (List.mem_append_left _ hmem) hrun
    · obtain ⟨t, ht, rfl⟩ := Option.map_eq_some_iff.mp h
      obtain ⟨hmem, -, hrun⟩ := mem_of_task? ht
      exact hsegment t _ (List.mem_append_right _ hmem) hrun
  | beginTask attemptId env =>
    simp only [Backend.step] at h
    split_ifs at h
    obtain ⟨t, ht, rfl⟩ := Option.map_eq_some_iff.mp h
    rw [beginTask, settle_store]
    apply executeStart_accounted cfg.stableHash (hs.mono (List.subset_append_left _ _)) hspares
    intro u hu
    exact List.mem_append_right _ (mem_dispatchedBy ht ⟨u, hu⟩)

theorem RetryRun.Inv.step (hinv : r.Inv) (hspares : r.Spares ev)
    (h : recordStep cfg r ev = some r') : r'.Inv := by
  obtain ⟨b', hb', rfl⟩ := Option.map_eq_some_iff.mp h
  constructor
  · exact Accounted.step hinv hspares hb'
  · intro t ht hrun
    rcases running_of_step hb' ht hrun with hold | hnew
    · exact List.mem_append_left _ (hinv.running t hold hrun)
    · exact List.mem_append_right _ hnew

/-- In every run that spares the waiting attempts a dead job has dispatched its attempts. -/
theorem honestRetries_of_spares (cfg : BackendConfig) :
    HonestRetries cfg fun r ev => r.Spares ev := by
  intro evs r hrun j hj hdead
  have hinv : r.Inv := hrun.invariant RetryRun.Inv
    (fun _ _ _ hinv hspares h => hinv.step hspares h) .empty
  exact (hinv.accounted.attempts_of_dead hj hdead).ge

/-- A job is submitted, and the process is restarted three times before its turn comes. -/
def restartedRun : List Event :=
  [.submit sampleSubmission ⟨sampleIds "1", "1", "1", "1"⟩ 1, .crash,
    .start (fun _ => sampleIds "2") 2, .crash, .start (fun _ => sampleIds "3") 3, .crash,
    .start (fun _ => sampleIds "4") 4]

/-- Three restarts kill a job that was never dispatched. -/
theorem not_honestRetries_restarted : ¬ HonestRetries sampleConfig Machine.Free := by
  intro hhonest
  obtain ⟨r, hr, j, hj, hdead, hfew⟩ :
      ∃ r ∈ (recorded sampleConfig).exec Machine.Free .empty restartedRun,
      ∃ j ∈ r.backend.store.jobs.rows, j.status = .dead ∧
        (r.backend.store.attempts.rows.filter fun a =>
          a.jobId = j.jobId ∧ a.attemptId ∈ r.dispatched).length < j.maxAttempts := by
    decide +kernel
  have henough := hhonest restartedRun r (Machine.run_of_exec hr) j hj hdead
  omega

end CodeResearch.ControlPlane.Backend
