import CodeResearch.ControlPlane.Backend
import CodeResearch.ControlPlane.ExecutionSpec

/-!
# The backend refines the store machine

Every event of the backend is a finite sequence of store calls, each of which it
is permitted to make. So the ledger of the store machine carries over to every
state of the backend, and every task keeps its stored attempt.
-/
namespace CodeResearch.ControlPlane

def Stored (s : Store) (created : CreatedJob) : Prop :=
  ∃ a, s.attempts.find? created.attempt.attemptId = some a ∧ a.jobId = created.job.jobId

variable (stableHash : String → String)

variable {s t : Store} {now : Timestamp} {c : CreatedJob}

theorem Stored.perform {created : CreatedJob} (h : Stored s created)
    (c : StoreCall) : Stored (s.perform stableHash c) created := by
  obtain ⟨a, ha, hown⟩ := h
  have hkeeps : (s.perform stableHash c).Keeps created.attempt.attemptId a :=
    keeps_perform ⟨a, ha, .refl a⟩ c
  obtain ⟨b, hb, hab⟩ := hkeeps
  exact ⟨b, hb, hab.jobId.trans hown⟩

/-- Whatever `create_job` answers names a stored attempt. -/
theorem stored_of_createJob {sub : JobSubmission} {ids : JobIds}
    (h : createJob stableHash sub ids now s = (.ok c, t)) :
    Stored t c := by
  unfold createJob at h
  cases hfind : s.findIdempotent sub.workspaceId (stableHash sub.idempotencyKey) with
  | some job =>
    rw [hfind] at h
    have hx := commit_eq_ok h
    simp only [replayJob, except_bind_eq_ok_iff, orError_eq_ok_iff, except_pure_eq_ok_iff,
      Prod.mk.injEq] at hx
    obtain ⟨_, _, a, ha, _, _, _, _, rfl, rfl⟩ := hx
    obtain ⟨hmem, hown, _⟩ := getAttemptIn_some ha
    exact ⟨a, Table.find?_of_mem hmem, hown⟩
  | none =>
    rw [hfind] at h
    obtain ⟨hins, hjob, _, hattempt, _⟩ := insertNewJob_ok stableHash (commit_eq_ok h)
    refine ⟨c.attempt, ?_, by rw [hattempt]; rfl⟩
    rw [hattempt, hjob]
    exact Table.find?_insert_self hins.attempts

theorem stored_of_addAttempt {queued : JobRecord} {ids : AttemptIds}
    (h : addAttempt stableHash queued ids now s = .ok (c, t)) :
    Stored t c := by
  obtain ⟨hadd, hjob, _, hattempt, _⟩ := addAttempt_ok stableHash h
  refine ⟨c.attempt, ?_, by rw [hattempt, hjob]; rfl⟩
  rw [hattempt]
  exact Table.find?_insert_self hadd.attempts

theorem stored_of_createRetryAttempt {jobId : String} {ids : AttemptIds}
    (h : createRetryAttempt stableHash jobId ids now s = (.ok c, t)) : Stored t c := by
  rcases createRetryAttempt_cases stableHash jobId ids now s with
    ⟨e, heq⟩ | ⟨j, _, _, _, _, heq⟩ | ⟨j, d, u, _, _, _, _, hadd, heq⟩ <;> rw [heq] at h <;> cases h
  exact stored_of_addAttempt stableHash hadd

theorem stored_of_recover {fresh : String → AttemptIds} {cs : List CreatedJob}
    (h : recoverIncompleteJobs stableHash fresh now s = (.ok cs, t)) : ∀ c ∈ cs, Stored t c := by
  refine (recoverLoop_created stableHash (P := fun _ => True) (Q := fun c u => Stored u c)
    (fun _ _ _ _ _ _ _ _ => trivial) ?_ ?_ trivial (nodup_incompleteJobs s)
    (incompleteJobs_current s) (commit_eq_ok h)).1
  · intro job u c v _ _ _ hrec
    obtain ⟨a, _, hrec⟩ := recoverJob_ok stableHash hrec
    cases hrec with
    | requeued _ _ hadd =>
      refine ⟨?_, stored_of_addAttempt stableHash hadd⟩
      rw [(addAttempt_ok stableHash hadd).2.1]
      rfl
  · rintro job u d v c _ ⟨a, ha, hown⟩ _ _ hrec
    obtain ⟨b, hb, hab⟩ := keeps_recoverJob ⟨a, ha, JobAttempt.Continues.refl a⟩ hrec
    exact ⟨b, hb, hab.jobId.trans hown⟩

/-- The last call on the store handed the attempt to `_schedule`. -/
inductive Scheduled : Store → CreatedJob → Prop
  | created {sub : JobSubmission} {ids : JobIds} {now : Timestamp} {s t : Store} {c : CreatedJob}
      (h : createJob stableHash sub ids now s = (.ok c, t)) : Scheduled t c
  | retried {jobId : String} {ids : AttemptIds} {now : Timestamp} {s t : Store} {c : CreatedJob}
      (h : createRetryAttempt stableHash jobId ids now s = (.ok c, t)) : Scheduled t c
  | recovered {fresh : String → AttemptIds} {now : Timestamp} {s t : Store}
      {cs : List CreatedJob} {c : CreatedJob}
      (h : recoverIncompleteJobs stableHash fresh now s = (.ok cs, t)) (mem : c ∈ cs) :
      Scheduled t c

theorem Scheduled.stored (h : Scheduled stableHash t c) : Stored t c := by
  cases h with
  | created h => exact stored_of_createJob stableHash h
  | retried h => exact stored_of_createRetryAttempt stableHash h
  | recovered h mem => exact stored_of_recover stableHash h c mem

def Event.Permits (b : Backend) (ev : Event) (c : StoreCall) : Prop :=
  match ev with
  | .start fresh now => c = ⟨.recoverIncompleteJobs fresh, now⟩
  | .submit sub ids now => c = ⟨.createJob sub ids, now⟩
  | .cancel jobId now => c = ⟨.requestCancel jobId, now⟩
  | .retry jobId manualHex ids now => c = ⟨.createManualRetry jobId manualHex ids, now⟩
  | .beginTask attemptId _ =>
    ∃ t ∈ b.tasks, t.attemptId = attemptId ∧ t.running = false ∧ c.op.OfTask t.created
  | .heartbeat attemptId now =>
    ∃ t ∈ b.tasks ++ b.detached, t.attemptId = attemptId ∧
      c = ⟨.heartbeatAttempt attemptId t.created.executionToken, now⟩
  | .finishTask attemptId _ _ =>
    ∃ t ∈ b.tasks ++ b.detached, t.attemptId = attemptId ∧ c.op.Finalising t.created
  | .shutdownLost attemptId _ =>
    ∃ t ∈ b.tasks, t.attemptId = attemptId ∧ c.op.Finalising t.created
  | .shutdownBegin | .shutdownDeadline | .shutdownEnd | .crash => False

theorem Event.Permits.backend {b : Backend} {ev : Event} {c : StoreCall} (h : ev.Permits b c) :
    c.op.Backend := by
  cases ev with
  | start | submit | cancel | retry =>
    cases h
    exact ⟨trivial, trivial⟩
  | beginTask =>
    obtain ⟨_, _, _, _, h⟩ := h
    exact h.backend
  | heartbeat =>
    obtain ⟨_, _, _, rfl⟩ := h
    exact ⟨trivial, trivial⟩
  | finishTask | shutdownLost =>
    obtain ⟨_, _, _, h⟩ := h
    exact StoreOp.OfTask.backend (.inl h)
  | shutdownBegin | shutdownDeadline | shutdownEnd | crash => exact h.elim

namespace Backend

variable {t : Task} {b b' : Backend} {ev : Event}

theorem mem_of_task? {tasks : List Task} {attemptId : String} {running : Bool}
    (h : task? tasks attemptId running = some t) :
    t ∈ tasks ∧ t.attemptId = attemptId ∧ t.running = running := by
  have hp := List.find?_some h
  simp only [decide_eq_true_eq] at hp
  exact ⟨List.mem_of_find?_eq_some h, hp.1, hp.2⟩

@[simp] theorem settle_store (b : Backend) (attemptId : String) (p : Progress) :
    (b.settle attemptId p).store = b.store := by
  unfold settle
  split
  · rfl
  · rfl
  · split_ifs <;> rfl

@[simp] theorem settle_detached (b : Backend) (attemptId : String) (p : Progress) :
    (b.settle attemptId p).detached = b.detached := by
  unfold settle
  split
  · rfl
  · rfl
  · split_ifs <;> rfl

/-- A segment keeps the tasks of the loop, or calls a handler, or schedules its retry. -/
theorem mem_settle_tasks {attemptId : String} {p : Progress}
    (h : t ∈ (b.settle attemptId p).tasks) :
    t ∈ b.tasks ∨
      (p = .inHandler ∧ t.attemptId = attemptId ∧ ∃ t' ∈ b.tasks, t'.created = t.created) ∨
      ∃ retry, p = .ended (some retry) ∧ t = ⟨retry, false⟩ := by
  unfold settle at h
  split at h
  · obtain ⟨t', ht', rfl⟩ := List.mem_map.mp h
    split_ifs with hid
    · exact .inr (.inl ⟨rfl, hid, t', ht', rfl⟩)
    · exact .inl ht'
  · exact .inl (List.mem_filter.mp h).1
  · split_ifs at h
    · exact .inl (List.mem_filter.mp h).1
    · rcases List.mem_append.mp h with h | h
      · exact .inl (List.mem_filter.mp h).1
      · exact .inr (.inr ⟨_, rfl, List.mem_singleton.mp h⟩)

variable (cfg : BackendConfig)

theorem submit_store (b : Backend) (sub : JobSubmission) (ids : JobIds) (now : Timestamp) :
    (submit cfg b sub ids now).store = b.store ∨ (submit cfg b sub ids now).store =
      b.store.perform cfg.stableHash ⟨.createJob sub ids, now⟩ := by
  rw [Store.perform_createJob]
  unfold submit
  by_cases ha : b.accepting = true
  · rw [if_pos ha]
    rcases createJob cfg.stableHash sub ids now b.store with ⟨_ | c, s⟩
    · exact .inr rfl
    · dsimp only
      split_ifs <;> exact .inr rfl
  · exact .inl (by rw [if_neg ha])

theorem retry_store (b : Backend) (jobId manualHex : String) (ids : JobIds) (now : Timestamp) :
    (retry cfg b jobId manualHex ids now).store =
      b.store.perform cfg.stableHash ⟨.createManualRetry jobId manualHex ids, now⟩ := by
  rw [Store.perform_createManualRetry]
  unfold retry
  rcases createManualRetry cfg.stableHash jobId manualHex ids now b.store with ⟨_ | c, s⟩
  · rfl
  · dsimp only
    split_ifs <;> rfl

theorem start_store (b : Backend) (fresh : String → AttemptIds) (now : Timestamp) :
    (start cfg b fresh now).store =
      b.store.perform cfg.stableHash ⟨.recoverIncompleteJobs fresh, now⟩ := by
  rw [Store.perform_recoverIncompleteJobs]
  unfold start
  rcases recoverIncompleteJobs cfg.stableHash fresh now b.store with ⟨_ | c, s⟩ <;> rfl

theorem cancel_store (b : Backend) (jobId : String) (now : Timestamp) :
    (cancel b jobId now).store = b.store ∨ (cancel b jobId now).store =
      b.store.perform cfg.stableHash ⟨.requestCancel jobId, now⟩ := by
  unfold cancel
  split
  · split_ifs
    · exact .inl rfl
    · exact .inr rfl
  · exact .inl rfl

theorem shutdownLost_store (b : Backend) (t : Task) (env : CallEnv) :
    (shutdownLost cfg b t env).store = ((finishSafely cfg.stableHash env t.created .lost
      "application_shutdown").runOn b.store).2 := by
  unfold shutdownLost
  dsimp only
  split
  · split_ifs <;> rfl
  · rfl

/-- An event is a finite sequence of store calls that it may make. -/
theorem step_permitted (h : step cfg b ev = some b') :
    ∃ calls : List StoreCall, (∀ c ∈ calls, ev.Permits b c) ∧
      b'.store = calls.foldl (Store.perform cfg.stableHash) b.store := by
  have hone : ∀ c : StoreCall, ev.Permits b c → b'.store = b.store.perform cfg.stableHash c →
      ∃ calls : List StoreCall, (∀ c ∈ calls, ev.Permits b c) ∧
        b'.store = calls.foldl (Store.perform cfg.stableHash) b.store :=
    fun c hc hs => ⟨[c], by simpa using hc, hs⟩
  have hnone : b'.store = b.store → ∃ calls : List StoreCall, (∀ c ∈ calls, ev.Permits b c) ∧
      b'.store = calls.foldl (Store.perform cfg.stableHash) b.store :=
    fun hs => ⟨[], by simp, hs⟩
  cases ev with
  | start fresh now =>
    simp only [step] at h
    split_ifs at h
    cases h
    exact hone _ rfl (start_store cfg b fresh now)
  | submit sub ids now =>
    cases h
    exact (submit_store cfg b sub ids now).elim hnone fun hs => hone _ rfl hs
  | cancel jobId now =>
    cases h
    exact (cancel_store cfg b jobId now).elim hnone fun hs => hone _ rfl hs
  | retry jobId manualHex ids now =>
    cases h
    exact hone _ rfl (retry_store cfg b jobId manualHex ids now)
  | beginTask attemptId env =>
    simp only [step] at h
    split_ifs at h
    obtain ⟨t, ht, rfl⟩ := Option.map_eq_some_iff.mp h
    obtain ⟨hmem, hid, hwait⟩ := mem_of_task? ht
    obtain ⟨calls, hcalls, hs⟩ := executeStart_emits cfg.stableHash env t.created
      (cfg.hasHandler t.created.job.jobType) b.shutdownRequested b.store
    exact ⟨calls, fun c hc => ⟨t, hmem, hid, hwait, (hcalls c hc).1⟩,
      by simpa [beginTask] using hs⟩
  | heartbeat attemptId now =>
    obtain ⟨t, ht, rfl⟩ := Option.map_eq_some_iff.mp h
    obtain ⟨hmem, rfl, _⟩ := mem_of_task? ht
    exact hone _ ⟨t, hmem, rfl, rfl⟩ rfl
  | finishTask attemptId outcome env =>
    simp only [step] at h
    split at h
    · rename_i t ht
      cases h
      obtain ⟨hmem, hid, _⟩ := mem_of_task? ht
      obtain ⟨calls, hcalls, hs⟩ := executeEnd_emits cfg.stableHash env t.created
        b.shutdownRequested outcome b.store
      exact ⟨calls, fun c hc => ⟨t, List.mem_append_left _ hmem, hid, hcalls c hc⟩,
        by simpa [finishTask] using hs⟩
    · obtain ⟨t, ht, rfl⟩ := Option.map_eq_some_iff.mp h
      obtain ⟨hmem, hid, _⟩ := mem_of_task? ht
      obtain ⟨calls, hcalls, hs⟩ := executeEnd_emits cfg.stableHash env t.created true outcome
        b.store
      exact ⟨calls, fun c hc => ⟨t, List.mem_append_right _ hmem, hid, hcalls c hc⟩, hs⟩
  | shutdownBegin | crash =>
    cases h
    exact hnone rfl
  | shutdownDeadline | shutdownEnd =>
    simp only [step] at h
    split_ifs at h
    cases h
    exact hnone rfl
  | shutdownLost attemptId env =>
    simp only [step] at h
    split_ifs at h
    obtain ⟨t, ht, rfl⟩ := Option.map_eq_some_iff.mp h
    have hid : t.attemptId = attemptId := by simpa using List.find?_some ht
    obtain ⟨calls, hcalls, hs⟩ := finishSafely_emits cfg.stableHash
      (P := fun c => c.op.Finalising t.created) env t.created .lost "application_shutdown"
      (fun _ => ⟨rfl, rfl, fun _ => rfl⟩) b.store
    exact ⟨calls, fun c hc => ⟨t, List.mem_of_find?_eq_some ht, hid, hcalls c hc⟩,
      (shutdownLost_store cfg b t env).trans hs⟩

/-- Where a task after an event comes from. -/
inductive Origin (b : Backend) (ev : Event) (s : Store) (t : Task) : Prop
  | kept (ht : t ∈ b.tasks ++ b.detached)
  | called {t' u : Task} {env : CallEnv} (ht' : t' ∈ b.tasks ++ b.detached)
      (heq : t'.created = t.created) (hev : ev = .beginTask t.attemptId env)
      (hu : task? b.tasks t.attemptId false = some u)
      (hp : Progress.ofResult ((executeStart cfg.stableHash env
        (cfg.hasHandler u.created.job.jobType) b.shutdownRequested u.created).runOn b.store).1 =
          .inHandler)
  | scheduled (hwaits : t.running = false) (hnew : Scheduled cfg.stableHash s t.created)

/-- Every task after an event was there before, or its attempt has just been scheduled. -/
theorem step_tasks (h : step cfg b ev = some b') (ht : t ∈ b'.tasks ++ b'.detached) :
    Origin cfg b ev b'.store t := by
  have hdrop : ∀ tasks id, t ∈ drop tasks id → t ∈ tasks :=
    fun _ _ ht => (List.mem_filter.mp ht).1
  have hnew : ∀ {u s ev}, t ∈ b.tasks ++ [⟨u, false⟩] ++ b.detached →
      Scheduled cfg.stableHash s u → Origin cfg b ev s t := by
    intro u s ev ht hu
    rw [List.append_assoc, List.mem_append, List.singleton_append, List.mem_cons] at ht
    obtain ht | rfl | ht := ht
    · exact .kept (List.mem_append_left _ ht)
    · exact .scheduled rfl hu
    · exact .kept (List.mem_append_right _ ht)
  cases ev with
  | start fresh now =>
    simp only [step] at h
    split_ifs at h with hidle
    cases h
    unfold start at ht ⊢
    rcases hrec : recoverIncompleteJobs cfg.stableHash fresh now b.store with ⟨_ | cs, s⟩
    · rw [hrec] at ht
      exact .kept (List.mem_append_right _ (by simpa [boot] using ht))
    · rw [hrec] at ht
      rcases List.mem_append.mp ht with ht | ht
      · obtain ⟨c, hc, rfl⟩ := List.mem_map.mp ht
        exact .scheduled rfl (.recovered hrec hc)
      · exact .kept (List.mem_append_right _ ht)
  | submit sub ids now =>
    cases h
    unfold submit at ht ⊢
    split_ifs at ht ⊢ with ha
    · rcases hc : createJob cfg.stableHash sub ids now b.store with ⟨_ | c, s⟩
      · rw [hc] at ht
        exact .kept ht
      · rw [hc] at ht
        dsimp only at ht ⊢
        split_ifs at ht ⊢
        · exact hnew ht (.created hc)
        · exact .kept ht
    · exact .kept ht
  | cancel jobId now =>
    cases h
    unfold cancel at ht
    split at ht
    · split_ifs at ht <;> exact .kept ht
    · exact .kept ht
  | retry jobId manualHex ids now =>
    cases h
    unfold retry at ht ⊢
    rcases hc : createManualRetry cfg.stableHash jobId manualHex ids now b.store with ⟨_ | c, s⟩
    · rw [hc] at ht
      exact .kept ht
    · rw [hc] at ht
      dsimp only at ht ⊢
      split_ifs at ht ⊢
      · obtain ⟨sub, hsub⟩ := createManualRetry_ok cfg.stableHash hc
        exact hnew ht (.created hsub)
      · exact .kept ht
  | beginTask attemptId env =>
    simp only [step] at h
    split_ifs at h
    obtain ⟨u, hu, rfl⟩ := Option.map_eq_some_iff.mp h
    rcases List.mem_append.mp ht with ht | ht
    · rcases mem_settle_tasks ht with ht | ⟨hp, hid, t', ht', heq⟩ | ⟨r, hp, rfl⟩
      · exact .kept (List.mem_append_left _ ht)
      · obtain rfl := hid.trans (mem_of_task? hu).2.1
        exact .called (List.mem_append_left _ ht') heq rfl hu hp
      · obtain ⟨s, hs⟩ := Progress.ofResult_some hp
        obtain ⟨jobId, v, hv⟩ := executeStart_some cfg.stableHash hs
        refine .scheduled rfl ?_
        rw [beginTask, settle_store, hs]
        exact .retried hv
    · rw [beginTask, settle_detached] at ht
      exact .kept (List.mem_append_right _ ht)
  | heartbeat attemptId now =>
    obtain ⟨u, -, rfl⟩ := Option.map_eq_some_iff.mp h
    exact .kept ht
  | finishTask attemptId outcome env =>
    simp only [step] at h
    split at h
    · rename_i u _
      cases h
      rcases List.mem_append.mp ht with ht | ht
      · rcases mem_settle_tasks ht with ht | ⟨hp, -⟩ | ⟨r, hp, rfl⟩
        · exact .kept (List.mem_append_left _ ht)
        · obtain ⟨next, hnext⟩ := executeEnd_ended cfg.stableHash env u.created b.shutdownRequested
            outcome b.store
          cases hnext.symm.trans hp
        · obtain ⟨s, hs⟩ := Progress.ofResult_some hp
          obtain ⟨jobId, v, hv⟩ := executeEnd_some cfg.stableHash hs
          refine .scheduled rfl ?_
          rw [finishTask, settle_store, hs]
          exact .retried hv
      · rw [finishTask, settle_detached] at ht
        exact .kept (List.mem_append_right _ ht)
    · obtain ⟨u, -, rfl⟩ := Option.map_eq_some_iff.mp h
      rcases List.mem_append.mp ht with ht | ht
      · exact .kept (List.mem_append_left _ ht)
      · exact .kept (List.mem_append_right _ (hdrop _ _ ht))
  | shutdownBegin =>
    cases h
    exact .kept ht
  | shutdownDeadline =>
    simp only [step] at h
    split_ifs at h
    cases h
    exact .kept ht
  | shutdownLost attemptId env =>
    simp only [step] at h
    split_ifs at h
    obtain ⟨u, -, rfl⟩ := Option.map_eq_some_iff.mp h
    unfold shutdownLost at ht
    dsimp only at ht
    split at ht
    · split_ifs at ht
      · exact .kept ht
      · rcases List.mem_append.mp ht with ht | ht
        · exact .kept (List.mem_append_left _ (hdrop _ _ ht))
        · exact .kept (List.mem_append_right _ ht)
    · exact .kept ht
  | shutdownEnd =>
    simp only [step] at h
    split_ifs at h
    cases h
    refine .kept (List.mem_append.mpr ?_)
    exact (List.mem_append.mp (by simpa [boot] using ht)).symm
  | crash =>
    cases h
    simp [boot] at ht

variable {cfg} {s : Store} in
theorem Origin.old (h : Origin cfg b ev s t) :
    (∃ t' ∈ b.tasks ++ b.detached, t'.created = t.created) ∨ Scheduled cfg.stableHash s t.created := by
  cases h with
  | kept ht => exact .inl ⟨t, ht, rfl⟩
  | called ht' heq => exact .inl ⟨_, ht', heq⟩
  | scheduled _ hnew => exact .inr hnew

/-- The invariant that every event keeps, whatever its faults and identifiers. -/
structure Sound (b : Backend) : Prop where
  ledger : Ledger b.store
  stored : ∀ t ∈ b.tasks ++ b.detached, Stored b.store t.created

theorem sound_boot_empty : Sound (boot .empty []) :=
  ⟨Ledger.empty, by simp [boot]⟩

theorem Sound.step (hb : Sound b) (h : step cfg b ev = some b') : Sound b' := by
  obtain ⟨calls, hcalls, hs⟩ := step_permitted cfg h
  have hfold : ∀ (Inv : Store → Prop), Inv b.store →
      (∀ s c, Inv s → c.op.Backend → Inv (s.perform cfg.stableHash c)) → Inv b'.store := by
    intro Inv h₀ hstep
    rw [hs]
    exact List.foldlRecOn calls _ h₀ fun s hinv c hc => hstep s c hinv (hcalls c hc).backend
  refine ⟨hfold Ledger hb.ledger fun s c hl hc => hl.perform _ hc.1, fun t ht => ?_⟩
  rcases (step_tasks cfg h ht).old with ⟨t', ht', heq⟩ | hnew
  · rw [← heq]
    exact hfold (fun s => Stored s t'.created) (hb.stored t' ht')
      fun s c hst _ => hst.perform _ c
  · exact hnew.stored

theorem Sound.run {G : Backend → Event → Prop} {evs : List Event}
    (hrun : (machine cfg).Run G b evs b') (hb : Sound b) : Sound b' :=
  Machine.Run.invariant Sound (fun _ _ _ hb _ h => hb.step cfg h) hrun hb

/-- Whatever events and faults come, the store goes through a run of calls that a backend may
make, and every task stands for an attempt that is stored for its job. -/
def RefinesStore : Prop :=
  ∀ evs b, (machine cfg).Run Machine.Free (boot .empty []) evs b →
    (∃ calls, (storeMachine cfg.stableHash).Run (fun _ c => c.op.Backend) .empty calls b.store) ∧
      ∀ t ∈ b.tasks ++ b.detached, Stored b.store t.created

theorem refinesStore : RefinesStore cfg := by
  intro evs b hrun
  refine ⟨?_, (Sound.run cfg hrun sound_boot_empty).stored⟩
  apply hrun.invariant fun b => ∃ calls,
    (storeMachine cfg.stableHash).Run (fun _ c => c.op.Backend) .empty calls b.store
  · rintro b ev b' ⟨calls, hcalls⟩ _ hstep
    obtain ⟨more, hmore, hs⟩ := step_permitted cfg hstep
    have hrun' : (storeMachine cfg.stableHash).Run (fun _ c => c.op.Backend) b.store more b'.store :=
      hs ▸ Machine.run_total_of_forall _ (fun c hc _ => (hmore c hc).backend) _
    exact ⟨_, hcalls.append hrun'⟩
  · exact ⟨[], .nil _⟩

end Backend

end CodeResearch.ControlPlane
