import CodeResearch.ControlPlane.Operations
import Mathlib.Data.List.Range

/-!
# The attempt ledger

The attempts of a job are numbered without gaps up to its current one, each has
its own outbox event, and a live attempt is the current attempt of a job that is
neither finished nor waiting for a retry. The elementary writes keep this under
local conditions, and every operation is a sequence of such writes.
-/
namespace CodeResearch.ControlPlane

def JobStatus.AtRest (j : JobStatus) : Prop := j.Terminal ∨ j = .retryWait

instance (j : JobStatus) : Decidable j.AtRest := inferInstanceAs (Decidable (_ ∨ _))

def Store.attemptNumbers (s : Store) (jobId : String) : List ℕ :=
  (s.attempts.rows.filter fun a => a.jobId = jobId).map JobAttempt.attemptNumber

def Store.outboxOf (s : Store) (attemptId : String) : List OutboxEvent :=
  s.outbox.rows.filter fun e => e.attemptId = attemptId

structure Ledger (s : Store) : Prop where
  owned : ∀ a ∈ s.attempts.rows, ∃ j, s.jobs.find? a.jobId = some j
  numbers : ∀ j ∈ s.jobs.rows, s.attemptNumbers j.jobId = List.range' 1 j.currentAttemptNumber
  bounds : ∀ j ∈ s.jobs.rows,
    1 ≤ j.currentAttemptNumber ∧ j.currentAttemptNumber ≤ j.maxAttempts
  live : ∀ j ∈ s.jobs.rows, ∀ a ∈ s.attempts.rows, a.jobId = j.jobId → ¬ a.status.Final →
    a.attemptNumber = j.currentAttemptNumber ∧ ¬ j.status.AtRest
  outboxOwned : ∀ e ∈ s.outbox.rows, ∃ a, s.attempts.find? e.attemptId = some a
  dispatched : ∀ a ∈ s.attempts.rows, (s.outboxOf a.attemptId).length = 1
  keys : (s.outbox.rows.map OutboxEvent.messageDeduplicationKey).Nodup

theorem attemptNumbers_eq (s : Store) (jobId : String) :
    s.attemptNumbers jobId = ((s.attempts.rows.map fun a => (a.jobId, a.attemptNumber)).filter
      fun p => p.1 = jobId).map Prod.snd := by
  rw [List.filter_map, List.map_map]
  rfl

theorem outboxOf_length (s : Store) (attemptId : String) :
    (s.outboxOf attemptId).length =
      (s.outbox.rows.map OutboxEvent.attemptId).count attemptId := by
  rw [List.count, List.countP_map, List.countP_eq_length_filter]
  rfl

namespace Ledger

variable {s : Store}

theorem empty : Ledger Store.empty where
  owned := by simp [Store.empty]
  numbers := by simp [Store.empty]
  bounds := by simp [Store.empty]
  live := by simp [Store.empty]
  outboxOwned := by simp [Store.empty]
  dispatched := by simp [Store.empty]
  keys := by simp [Store.empty]

variable {a : JobAttempt} {now : Timestamp} {t : Store}

theorem eq_of_number (h : Ledger s) {b : JobAttempt} (ha : a ∈ s.attempts.rows)
    (hb : b ∈ s.attempts.rows) (hown : a.jobId = b.jobId)
    (hnum : a.attemptNumber = b.attemptNumber) : a = b := by
  obtain ⟨j, hj⟩ := h.owned b hb
  have hnodup : (s.attemptNumbers b.jobId).Nodup := by
    rw [← Table.find?_key hj, h.numbers j (Table.find?_mem hj)]
    exact List.nodup_range'
  exact List.inj_on_of_nodup_map hnodup (List.mem_filter.mpr ⟨ha, by simpa using hown⟩)
    (List.mem_filter.mpr ⟨hb, by simp⟩) hnum

theorem final_of_atRest (h : Ledger s) {j : JobRecord} (hj : j ∈ s.jobs.rows)
    (ha : a ∈ s.attempts.rows) (hown : a.jobId = j.jobId) (hrest : j.status.AtRest) :
    a.status.Final := by
  by_contra hfinal
  exact (h.live j hj a ha hown hfinal).2 hrest

theorem final_of_ne_current (h : Ledger s) {j : JobRecord}
    (hj : j ∈ s.jobs.rows) (ha : a ∈ s.attempts.rows) (hown : a.jobId = j.jobId)
    (hne : a.attemptNumber ≠ j.currentAttemptNumber) : a.status.Final := by
  by_contra hfinal
  exact hne (h.live j hj a ha hown hfinal).1

/-- Rewriting a job row keeps the ledger if it keeps the attempt counters, and
puts the job to rest only when none of its attempts is live. -/
theorem updateJob (h : Ledger s) (new : JobRecord) {old : JobRecord}
    (hold : s.jobs.find? new.jobId = some old)
    (hcur : new.currentAttemptNumber = old.currentAttemptNumber)
    (hmax : new.maxAttempts = old.maxAttempts)
    (hrest : new.status.AtRest → ∀ a ∈ s.attempts.rows, a.jobId = new.jobId → a.status.Final) :
    Ledger (s.updateJob new) := by
  have hsome : (s.jobs.find? new.jobId).isSome := by rw [hold]; rfl
  have hkey : old.jobId = new.jobId := Table.find?_key hold
  have hmem := Table.find?_mem hold
  refine ⟨?_, ?_, ?_, ?_, h.outboxOwned, h.dispatched, h.keys⟩
  · intro a ha
    by_cases hown : a.jobId = new.jobId
    · exact ⟨new, by rw [hown]; exact Table.find?_replace_self hsome⟩
    · obtain ⟨j, hj⟩ := h.owned a ha
      exact ⟨j, by rw [Store.updateJob_jobs, Table.find?_replace_of_ne _ hown]; exact hj⟩
  · intro j hj
    rcases (Table.mem_replace hsome j).mp hj with rfl | ⟨hj, _⟩
    · have := h.numbers old hmem
      rwa [hkey, ← hcur] at this
    · exact h.numbers j hj
  · intro j hj
    rcases (Table.mem_replace hsome j).mp hj with rfl | ⟨hj, _⟩
    · rw [hcur, hmax]
      exact h.bounds old hmem
    · exact h.bounds j hj
  · intro j hj a ha hown hfinal
    rcases (Table.mem_replace hsome j).mp hj with rfl | ⟨hj, _⟩
    · rw [hcur]
      exact ⟨(h.live old hmem a ha (hown.trans hkey.symm) hfinal).1,
        fun hr => hfinal (hrest hr a ha hown)⟩
    · exact h.live j hj a ha hown hfinal

/-- Rewriting an attempt keeps the ledger if it does not revive the attempt. -/
theorem updateAttempt (h : Ledger s) (new : JobAttempt) {old : JobAttempt}
    (hold : s.attempts.find? new.attemptId = some old) (hjob : new.jobId = old.jobId)
    (hnum : new.attemptNumber = old.attemptNumber)
    (hfinal : old.status.Final → new.status.Final) : Ledger (s.updateAttempt new) := by
  have hsome : (s.attempts.find? new.attemptId).isSome := by rw [hold]; rfl
  have hmem := Table.find?_mem hold
  have hnumbers : ∀ jobId, (s.updateAttempt new).attemptNumbers jobId = s.attemptNumbers jobId := by
    intro jobId
    rw [attemptNumbers_eq, attemptNumbers_eq, Store.updateAttempt_attempts,
      Table.map_replace hold _ (by rw [hjob, hnum])]
  refine ⟨?_, ?_, h.bounds, ?_, ?_, ?_, h.keys⟩
  · intro a ha
    rcases (Table.mem_replace hsome a).mp ha with rfl | ⟨ha, _⟩
    · rw [hjob]
      exact h.owned old hmem
    · exact h.owned a ha
  · intro j hj
    rw [hnumbers]
    exact h.numbers j hj
  · intro j hj a ha hown hlive
    rcases (Table.mem_replace hsome a).mp ha with rfl | ⟨ha, _⟩
    · rw [hnum]
      exact h.live j hj old hmem (hjob ▸ hown) fun hf => hlive (hfinal hf)
    · exact h.live j hj a ha hown hlive
  · intro e he
    obtain ⟨a, ha⟩ := h.outboxOwned e he
    by_cases hid : e.attemptId = new.attemptId
    · exact ⟨new, by rw [hid]; exact Table.find?_replace_self hsome⟩
    · exact ⟨a, by rw [Store.updateAttempt_attempts, Table.find?_replace_of_ne _ hid]; exact ha⟩
  · intro a ha
    rcases (Table.mem_replace hsome a).mp ha with rfl | ⟨ha, _⟩
    · have := h.dispatched old hmem
      rwa [Table.find?_key hold] at this
    · exact h.dispatched a ha

theorem updateOutbox (h : Ledger s) (new : OutboxEvent) {old : OutboxEvent}
    (hold : s.outbox.find? new.outboxEventId = some old)
    (hattempt : new.attemptId = old.attemptId)
    (hkey : new.messageDeduplicationKey = old.messageDeduplicationKey) :
    Ledger (s.updateOutbox new) := by
  have hsome : (s.outbox.find? new.outboxEventId).isSome := by rw [hold]; rfl
  refine ⟨h.owned, h.numbers, h.bounds, h.live, ?_, ?_, ?_⟩
  · intro e he
    rcases (Table.mem_replace hsome e).mp he with rfl | ⟨he, _⟩
    · rw [hattempt]
      exact h.outboxOwned old (Table.find?_mem hold)
    · exact h.outboxOwned e he
  · intro a ha
    rw [outboxOf_length, Store.updateOutbox_outbox, Table.map_replace hold _ hattempt,
      ← outboxOf_length]
    exact h.dispatched a ha
  · rw [Store.updateOutbox_outbox, Table.map_replace hold _ hkey]
    exact h.keys

/-- The outbox part of the ledger after an attempt `a` and its event `e` were added. -/
theorem extendOutbox (h : Ledger s) {u : Table JobAttempt.attemptId}
    {v : Table OutboxEvent.outboxEventId} {e : OutboxEvent}
    (hu : s.attempts.insert a = some u) (hv : s.outbox.insert e = some v)
    (hown : e.attemptId = a.attemptId)
    (hkey : ∀ r ∈ s.outbox.rows, r.messageDeduplicationKey ≠ e.messageDeduplicationKey) :
    (∀ e ∈ v.rows, ∃ a, u.find? e.attemptId = some a) ∧
      (∀ a ∈ u.rows, (v.rows.filter fun e => e.attemptId = a.attemptId).length = 1) ∧
      (v.rows.map OutboxEvent.messageDeduplicationKey).Nodup := by
  have hfresh := Table.insert_fresh hu
  refine ⟨?_, ?_, ?_⟩
  · intro r hr
    rcases (Table.mem_insert hv r).mp hr with hr | rfl
    · obtain ⟨b, hb⟩ := h.outboxOwned r hr
      exact ⟨b, Table.find?_insert_of_some hu hb⟩
    · exact ⟨a, by rw [hown]; exact Table.find?_insert_self hu⟩
  · intro b hb
    rw [Table.rows_insert hv, List.filter_append, List.length_append]
    rcases (Table.mem_insert hu b).mp hb with hb | rfl
    · have hne : a.attemptId ≠ b.attemptId := by
        intro heq
        exact hfresh (heq ▸ List.mem_map_of_mem hb)
      have hone := h.dispatched b hb
      rw [Store.outboxOf] at hone
      rw [hone]
      simp [hown, hne]
    · have hnone : s.outbox.rows.filter (fun e => e.attemptId = b.attemptId) = [] := by
        rw [List.filter_eq_nil_iff]
        intro r hr hid
        obtain ⟨c, hc⟩ := h.outboxOwned r hr
        rw [of_decide_eq_true hid] at hc
        exact hfresh (List.mem_map.mpr ⟨c, Table.find?_mem hc, Table.find?_key hc⟩)
      rw [hnone]
      simp [hown]
  · rw [Table.rows_insert hv, List.map_append, List.nodup_append]
    refine ⟨h.keys, by simp, ?_⟩
    intro k hk k' hk' heq
    obtain ⟨r, hr, rfl⟩ := List.mem_map.mp hk
    simp only [List.map_cons, List.map_nil, List.mem_singleton] at hk'
    exact hkey r hr (heq.trans hk')

variable {stableHash : String → String}

/-- Adding the next attempt keeps the ledger if no attempt of the job is live. -/
theorem add (h : Ledger s) {old queued : JobRecord} {ids : AttemptIds}
    (hadd : Added stableHash queued ids now s t)
    (hold : s.jobs.find? queued.jobId = some old)
    (hcur : queued.currentAttemptNumber = old.currentAttemptNumber + 1)
    (hbound : queued.currentAttemptNumber ≤ queued.maxAttempts)
    (hstatus : queued.status = .queued)
    (hidle : ∀ a ∈ s.attempts.rows, a.jobId = queued.jobId → a.status.Final) : Ledger t := by
  have hsome : (s.jobs.find? queued.jobId).isSome := by rw [hold]; rfl
  have hkey : old.jobId = queued.jobId := Table.find?_key hold
  have hmem := Table.find?_mem hold
  obtain ⟨hout, hdisp, hkeys⟩ := h.extendOutbox hadd.attempts hadd.outbox rfl hadd.key
  refine ⟨?_, ?_, ?_, ?_, hout, hdisp, hkeys⟩
  · intro a ha
    rw [hadd.jobs]
    by_cases hown : a.jobId = queued.jobId
    · exact ⟨queued, by rw [hown]; exact Table.find?_replace_self hsome⟩
    · rw [Table.find?_replace_of_ne _ hown]
      rcases (Table.mem_insert hadd.attempts a).mp ha with ha | rfl
      · exact h.owned a ha
      · exact absurd rfl hown
  · intro j hj
    rw [hadd.jobs] at hj
    rw [Store.attemptNumbers, Table.rows_insert hadd.attempts, List.filter_append, List.map_append]
    rcases (Table.mem_replace hsome j).mp hj with rfl | ⟨hj, hne⟩
    · have hnum := h.numbers old hmem
      rw [hkey, Store.attemptNumbers] at hnum
      rw [hnum, hcur, List.range'_1_concat]
      simp [newAttempt, Nat.add_comm]
    · have hnum := h.numbers j hj
      rw [Store.attemptNumbers] at hnum
      rw [hnum]
      simp [newAttempt, Ne.symm hne]
  · intro j hj
    rw [hadd.jobs] at hj
    rcases (Table.mem_replace hsome j).mp hj with rfl | ⟨hj, _⟩
    · exact ⟨by omega, hbound⟩
    · exact h.bounds j hj
  · intro j hj a ha hown hlive
    rw [hadd.jobs] at hj
    rcases (Table.mem_insert hadd.attempts a).mp ha with ha | rfl
    · rcases (Table.mem_replace hsome j).mp hj with rfl | ⟨hj, _⟩
      · exact absurd (hidle a ha hown) hlive
      · exact h.live j hj a ha hown hlive
    · rcases (Table.mem_replace hsome j).mp hj with rfl | ⟨_, hne⟩
      · exact ⟨rfl, by rw [hstatus]; decide⟩
      · exact absurd hown.symm hne

/-- Inserting a new job with its first attempt keeps the ledger. -/
theorem insert (h : Ledger s) {sub : JobSubmission} {ids : JobIds}
    (hins : Inserted stableHash sub ids now s t) : Ledger t := by
  have hfresh := Table.insert_fresh hins.jobs
  have hnew : ∀ a ∈ s.attempts.rows, a.jobId ≠ (newJob stableHash sub ids now).jobId := by
    intro a ha heq
    obtain ⟨j, hj⟩ := h.owned a ha
    exact hfresh (List.mem_map.mpr ⟨j, Table.find?_mem hj, (Table.find?_key hj).trans heq⟩)
  obtain ⟨hout, hdisp, hkeys⟩ := h.extendOutbox hins.attempts hins.outbox rfl hins.key
  refine ⟨?_, ?_, ?_, ?_, hout, hdisp, hkeys⟩
  · intro a ha
    rcases (Table.mem_insert hins.attempts a).mp ha with ha | rfl
    · obtain ⟨j, hj⟩ := h.owned a ha
      exact ⟨j, Table.find?_insert_of_some hins.jobs hj⟩
    · exact ⟨_, Table.find?_insert_self hins.jobs⟩
  · intro j hj
    rw [Store.attemptNumbers, Table.rows_insert hins.attempts, List.filter_append, List.map_append]
    rcases (Table.mem_insert hins.jobs j).mp hj with hj | rfl
    · have hne : (newJob stableHash sub ids now).jobId ≠ j.jobId := by
        intro heq
        exact hfresh (heq ▸ List.mem_map_of_mem hj)
      have hnum := h.numbers j hj
      rw [Store.attemptNumbers] at hnum
      rw [hnum]
      simp [newAttempt, hne]
    · have hnone : s.attempts.rows.filter
          (fun a => a.jobId = (newJob stableHash sub ids now).jobId) = [] := by
        rw [List.filter_eq_nil_iff]
        exact fun a ha heq => hnew a ha (of_decide_eq_true heq)
      rw [hnone]
      simp [newAttempt, newJob]
  · intro j hj
    rcases (Table.mem_insert hins.jobs j).mp hj with hj | rfl
    · exact h.bounds j hj
    · exact ⟨le_rfl, hins.valid.maxAttempts.1⟩
  · intro j hj a ha hown hlive
    rcases (Table.mem_insert hins.jobs j).mp hj with hj | rfl <;>
      rcases (Table.mem_insert hins.attempts a).mp ha with ha | rfl
    · exact h.live j hj a ha hown hlive
    · have hown' : (newJob stableHash sub ids now).jobId = j.jobId := hown
      exact absurd (hown' ▸ List.mem_map_of_mem hj) hfresh
    · exact absurd hown (hnew a ha)
    · exact ⟨rfl, show ¬ JobStatus.AtRest .queued by decide⟩

variable (stableHash)

theorem createJob (h : Ledger s) (sub : JobSubmission) (ids : JobIds) (now : Timestamp) :
    Ledger (createJob stableHash sub ids now s).2 := by
  rcases createJob_cases stableHash sub ids now s with heq | ⟨c, t, hins, heq⟩
  · rwa [heq]
  · rw [heq]
    exact h.insert (insertNewJob_ok stableHash hins).1

theorem createManualRetry (h : Ledger s) (jobId manualHex : String) (ids : JobIds)
    (now : Timestamp) : Ledger (createManualRetry stableHash jobId manualHex ids now s).2 := by
  rcases createManualRetry_cases stableHash jobId manualHex ids now s with heq | ⟨sub, heq⟩
  · rwa [heq]
  · rw [heq]
    exact h.createJob stableHash sub ids now

theorem transitionAttempt (h : Ledger s) (attemptId token : String) (target : AttemptStatus)
    (worker celery : Option String) (now : Timestamp) :
    Ledger (transitionAttempt stableHash attemptId token target worker celery now s).2 := by
  rcases transitionAttempt_cases stableHash attemptId token target worker celery now s with
    ⟨e, heq⟩ | ⟨a, ha, _, htarget, heq⟩
  · rwa [heq]
  · rw [heq]
    have hfind : s.attempts.find? a.attemptId = some a := by rwa [Table.find?_key ha]
    exact h.updateAttempt (a.moveTo target worker celery now) hfind rfl rfl
      fun hfinal => absurd htarget (attemptTransitions_final hfinal)

theorem heartbeatAttempt (h : Ledger s) (attemptId token : String) (now : Timestamp) :
    Ledger (heartbeatAttempt stableHash attemptId token now s).2 := by
  rcases heartbeatAttempt_cases stableHash attemptId token now s with ⟨e, heq⟩ | ⟨a, ha, heq⟩
  · rwa [heq]
  · rw [heq]
    have hfind : s.attempts.find? a.attemptId = some a := by rwa [Table.find?_key ha]
    exact h.updateAttempt (a.beat now) hfind rfl rfl id

/-- A completion closes the current attempt, so its job may be put to rest. -/
theorem completeAttempt (h : Ledger s) (attemptId token : String) (status : AttemptStatus)
    (errorCode : Option String) (refs : Option (List String)) (now : Timestamp) :
    Ledger (completeAttempt stableHash attemptId token status errorCode refs now s).2 := by
  rcases completeAttempt_cases stableHash attemptId token status errorCode refs now s with
    ⟨e, heq⟩ | ⟨a, j, hc, heq⟩
  · rwa [heq]
  · rw [heq]
    have hfinal : (a.complete status errorCode now).status.Final :=
      completionStatus_final hc.accepted
    have ha : s.attempts.find? a.attemptId = some a := by
      rw [Table.find?_key hc.attempt]
      exact hc.attempt
    have hj : s.jobs.find? j.jobId = some j := by
      rw [Table.find?_key hc.job]
      exact hc.job
    have hsome : (s.attempts.find? (a.complete status errorCode now).attemptId).isSome :=
      Option.isSome_iff_exists.mpr ⟨a, ha⟩
    refine (h.updateAttempt (a.complete status errorCode now) ha rfl rfl
      fun _ => hfinal).updateJob (j.complete status errorCode refs now) hj rfl rfl ?_
    intro _ b hb hown
    rcases (Table.mem_replace hsome b).mp hb with rfl | ⟨hb, hne⟩
    · exact hfinal
    · have hownj : b.jobId = j.jobId := hown
      refine h.final_of_ne_current (Table.find?_mem hj) hb hownj fun hnum => hne ?_
      have hsame : b = a := h.eq_of_number hb (Table.find?_mem ha)
        (hownj.trans (Table.find?_key hc.job)) (hnum.trans hc.current)
      rw [hsame]
      rfl

theorem createRetryAttempt (h : Ledger s) (jobId : String) (ids : AttemptIds)
    (now : Timestamp) : Ledger (createRetryAttempt stableHash jobId ids now s).2 := by
  rcases createRetryAttempt_cases stableHash jobId ids now s with
    ⟨e, heq⟩ | ⟨job, hjob, hstatus, hmax, _, heq⟩ | ⟨job, c, t, hjob, hstatus, hmax, _, hadd, heq⟩
  · rwa [heq]
  · rw [heq]
    have hfind : s.jobs.find? job.jobId = some job := by rwa [Table.find?_key hjob]
    refine h.updateJob (job.exhaust now) hfind rfl rfl fun _ a ha hown => ?_
    exact h.final_of_atRest (Table.find?_mem hjob) ha hown (.inr hstatus)
  · rw [heq]
    have hfind : s.jobs.find? job.jobId = some job := by rwa [Table.find?_key hjob]
    refine h.add (addAttempt_ok stableHash hadd).1 hfind rfl hmax rfl fun a ha hown => ?_
    exact h.final_of_atRest (Table.find?_mem hjob) ha hown (.inr hstatus)

/-- A restart first closes the current attempt of a job. -/
theorem closeAttempt (h : Ledger s) (ha : a ∈ s.attempts.rows)
    (now : Timestamp) : Ledger (s.closeAttempt a now) := by
  have hfind : s.attempts.find? (a.supersede now).attemptId = some a := by
    rw [JobAttempt.supersede_attemptId]
    exact Table.find?_of_mem ha
  have hupd := h.updateAttempt (a.supersede now) hfind (a.supersede_jobId now) (a.supersede_attemptNumber now)
    fun _ => a.supersede_final now
  unfold Store.closeAttempt
  split
  · rename_i event hevent
    refine hupd.updateOutbox (event.supersede now) ?_ (event.supersede_attemptId now)
      (event.supersede_messageDeduplicationKey now)
    rw [OutboxEvent.supersede_outboxEventId]
    exact Table.find?_of_mem (getOutboxForAttempt_some hevent).1
  · exact hupd

/-- After the current attempt was closed no attempt of the job is live. -/
theorem closeAttempt_idle (h : Ledger s) {job : JobRecord} (hjob : job ∈ s.jobs.rows)
    (ha : s.getAttemptIn job.jobId job.currentAttemptNumber = some a) (now : Timestamp) :
    ∀ b ∈ (s.closeAttempt a now).attempts.rows, b.jobId = job.jobId → b.status.Final := by
  obtain ⟨hmem, hown, hnum⟩ := getAttemptIn_some ha
  have hsome : (s.attempts.find? (a.supersede now).attemptId).isSome := by
    rw [JobAttempt.supersede_attemptId, Table.find?_of_mem hmem]
    rfl
  intro b hb hb'
  rw [Store.closeAttempt_attempts] at hb
  rcases (Table.mem_replace hsome b).mp hb with rfl | ⟨hb, hne⟩
  · exact a.supersede_final now
  · refine h.final_of_ne_current hjob hb hb' fun heq => hne ?_
    rw [h.eq_of_number hb hmem (hb'.trans hown.symm) (heq.trans hnum.symm),
      JobAttempt.supersede_attemptId]

theorem recoverJob (h : Ledger s) {ids : AttemptIds} {job : JobRecord} {c : Option CreatedJob}
    (hjob : s.jobs.find? job.jobId = some job)
    (hrec : recoverJob stableHash ids now job s = .ok (c, t)) : Ledger t := by
  obtain ⟨a, ha, hrec⟩ := recoverJob_ok stableHash hrec
  have hclosed := h.closeAttempt (getAttemptIn_some ha).1 now
  have hidle := h.closeAttempt_idle (Table.find?_mem hjob) ha now
  have hfind : (s.closeAttempt a now).jobs.find? job.jobId = some job := by
    rwa [Store.closeAttempt_jobs]
  cases hrec with
  | cancelled _ =>
    exact hclosed.updateJob (job.cancelOnRestart now) hfind rfl rfl fun _ => hidle
  | exhausted _ _ =>
    exact hclosed.updateJob (job.exhaustOnRestart now) hfind rfl rfl fun _ => hidle
  | requeued _ hmax hadd =>
    exact hclosed.add (addAttempt_ok stableHash hadd).1 hfind rfl hmax rfl hidle

theorem recoverIncompleteJobs (h : Ledger s) (fresh : String → AttemptIds) (now : Timestamp) :
    Ledger (recoverIncompleteJobs stableHash fresh now s).2 :=
  recoverIncompleteJobs_rule stableHash
    (fun _ _ _ _ hledger _ hjob _ hrec => hledger.recoverJob stableHash hjob hrec) h

theorem transitionJob (h : Ledger s) {jobId : String} {target : JobStatus}
    (htarget : ¬ target.AtRest) (errorCode : Option String) (expectedRevision : Option ℕ)
    (now : Timestamp) :
    Ledger (transitionJob jobId target errorCode expectedRevision now s).2 := by
  rcases transitionJob_cases jobId target errorCode expectedRevision now s with
    ⟨e, heq⟩ | ⟨job, hjob, _, _, _, heq⟩
  · rwa [heq]
  · rw [heq]
    have hfind : s.jobs.find? job.jobId = some job := by rwa [Table.find?_key hjob]
    exact h.updateJob (job.moveTo target errorCode now) hfind rfl rfl
      fun hrest => absurd hrest htarget

theorem requestCancel (h : Ledger s) (jobId : String) (now : Timestamp) :
    Ledger (requestCancel jobId now s).2 := by
  rcases requestCancel_cases jobId now s with heq | ⟨job, hjob, _, _, _, heq⟩
  · rwa [heq]
  · rw [heq]
    have hfind : s.jobs.find? job.jobId = some job := by rwa [Table.find?_key hjob]
    exact h.updateJob (job.cancel now) hfind rfl rfl
      fun hrest => absurd hrest (show ¬ JobStatus.AtRest .cancelling by decide)

theorem markOutboxConsumedLocal (h : Ledger s) (eventId : String) (now : Timestamp) :
    Ledger (markOutboxConsumedLocal eventId now s).2 := by
  rcases markOutboxConsumedLocal_cases eventId now s with heq | ⟨event, hevent, _, heq⟩
  · rwa [heq]
  · rw [heq]
    have hfind : s.outbox.find? event.outboxEventId = some event := by
      rwa [Table.find?_key hevent]
    exact h.updateOutbox (event.consume now) hfind rfl rfl

end Ledger

/-- The calls that the job backends make: `transition_job` is only used to
dispatch a job and to start it. -/
def StoreOp.Dispatching : StoreOp → Prop
  | .transitionJob _ target _ _ => target ∈ [JobStatus.dispatching, .dispatched, .running]
  | _ => True

instance (op : StoreOp) : Decidable op.Dispatching :=
  match op with
  | .transitionJob _ target _ _ =>
    inferInstanceAs (Decidable (target ∈ [JobStatus.dispatching, .dispatched, .running]))
  | .createJob .. | .transitionAttempt .. | .heartbeatAttempt .. | .completeAttempt ..
  | .createRetryAttempt .. | .createManualRetry .. | .recoverIncompleteJobs ..
  | .requestCancel .. | .markOutboxConsumedLocal .. => inferInstanceAs (Decidable True)

variable (stableHash : String → String)

theorem Ledger.perform {s : Store} (h : Ledger s) {c : StoreCall} (hc : c.op.Dispatching) :
    Ledger (s.perform stableHash c) := by
  obtain ⟨op, now⟩ := c
  cases op with
  | createJob sub ids => exact h.createJob stableHash sub ids now
  | transitionJob jobId target errorCode expectedRevision =>
    refine h.transitionJob ?_ errorCode expectedRevision now
    revert hc
    cases target <;> simp [StoreOp.Dispatching] <;> decide
  | transitionAttempt attemptId token target worker celery =>
    exact h.transitionAttempt stableHash attemptId token target worker celery now
  | heartbeatAttempt attemptId token => exact h.heartbeatAttempt stableHash attemptId token now
  | completeAttempt attemptId token status errorCode refs =>
    exact h.completeAttempt stableHash attemptId token status errorCode refs now
  | createRetryAttempt jobId ids => exact h.createRetryAttempt stableHash jobId ids now
  | createManualRetry jobId manualHex ids =>
    exact h.createManualRetry stableHash jobId manualHex ids now
  | recoverIncompleteJobs fresh => exact h.recoverIncompleteJobs stableHash fresh now
  | requestCancel jobId => exact h.requestCancel jobId now
  | markOutboxConsumedLocal eventId => exact h.markOutboxConsumedLocal eventId now

theorem Ledger.run {s t : Store} {calls : List StoreCall} (h : Ledger s)
    (hrun : (storeMachine stableHash).Run (fun _ c => c.op.Dispatching) s calls t) : Ledger t := by
  refine Machine.Run.invariant Ledger ?_ hrun h
  rintro s c _ hs hc ⟨⟩
  exact hs.perform stableHash hc

/-- The attempt ledger of every reachable state. -/
theorem attemptLedger {calls : List StoreCall} {s : Store}
    (hrun : (storeMachine stableHash).Run (fun _ c => c.op.Dispatching) .empty calls s) :
    (∀ j ∈ s.jobs.rows,
      s.attemptNumbers j.jobId = List.range' 1 j.currentAttemptNumber ∧
      1 ≤ j.currentAttemptNumber ∧ j.currentAttemptNumber ≤ j.maxAttempts ∧
      ∀ a ∈ s.attempts.rows, a.jobId = j.jobId → a.attemptNumber ≠ j.currentAttemptNumber →
        attemptTransitions a.status = []) ∧
    (∀ a ∈ s.attempts.rows, (s.outboxOf a.attemptId).length = 1) ∧
    (s.outbox.rows.map OutboxEvent.messageDeduplicationKey).Nodup := by
  have h : Ledger s := Ledger.empty.run stableHash hrun
  refine ⟨fun j hj => ⟨h.numbers j hj, (h.bounds j hj).1, (h.bounds j hj).2, ?_⟩,
    h.dispatched, h.keys⟩
  intro a ha hown hne
  exact h.final_of_ne_current hj ha hown hne

def retriedJob : List StoreCall :=
  [sampleCreate, ⟨.transitionJob "job_1" .dispatching none none, 2⟩,
    ⟨.completeAttempt "attempt_1" "1" .failedRetryable (some "busy") none, 3⟩,
    ⟨.createRetryAttempt "job_1" (sampleIds "2"), 4⟩,
    ⟨.recoverIncompleteJobs fun _ => sampleIds "3", 5⟩]

theorem attemptLedger_retriedJob :
    (retriedJob.foldl (Store.perform id) .empty).attemptNumbers "job_1" = [1, 2, 3] ∧
    ∀ a ∈ (retriedJob.foldl (Store.perform id) .empty).attempts.rows,
      ((retriedJob.foldl (Store.perform id) .empty).outboxOf a.attemptId).length = 1 :=
  ⟨by decide, (attemptLedger id (Machine.run_total (Store.perform id)
    (show ((storeMachine id).exec _ _ retriedJob).isSome by decide))).2.1⟩

end CodeResearch.ControlPlane
