import CodeResearch.ControlPlane.JobChanges
import CodeResearch.ControlPlane.Outbox

/-!
# What a store call does to the outbox

Outside the dispatchers' operations an event is only inserted, acknowledged
locally while it is pending, or failed by a recovery that closes its attempt.
One rule derives every invariant of the outbox from these writes.
-/
namespace CodeResearch.ControlPlane

def Store.Continues (s t : Store) : Prop :=
  ∀ id a, s.attempts.find? id = some a → t.Keeps id a

variable {s : Store}

variable {t : Store} {a : JobAttempt}

theorem Store.Continues.of_eq (h : t.attempts = s.attempts) : s.Continues t := by
  intro id a ha
  exact ⟨a, h ▸ ha, .refl a⟩

theorem Store.Continues.insert (h : s.attempts.insert a = some t.attempts) : s.Continues t :=
  fun _ b hb => ⟨b, Table.find?_insert_of_some h hb, .refl b⟩

theorem continues_closeAttempt (ha : a ∈ s.attempts.rows)
    (now : Timestamp) : s.Continues (s.closeAttempt a now) := by
  intro id b hb
  have hfind : s.attempts.find? (a.supersede now).attemptId = some a := by
    rw [JobAttempt.supersede_attemptId]
    exact Table.find?_of_mem ha
  obtain ⟨c, hc, hbc⟩ := keeps_updateAttempt ⟨b, hb, .refl b⟩ hfind (a.supersede_continues now)
  exact ⟨c, by rw [Store.closeAttempt_attempts]; exact hc, hbc⟩

/-- An event as it is inserted. -/
structure OutboxEvent.New (event : OutboxEvent) : Prop where
  status : event.status = .pending
  claimTokenHash : event.claimTokenHash = none
  publishAttempt : event.publishAttempt = 0

/-- The elementary writes of a call, as far as the outbox sees them, keep `P`. -/
structure OutboxRule (c : StoreCall) (P : Store → Prop) : Prop where
  frame : ∀ u v, P u → v.outbox = u.outbox → u.Continues v → P v
  inserted : ∀ u v event, P u → u.outbox.insert event = some v.outbox → event.New →
    u.Continues v → P v
  consumed : ∀ u event, P u → u.outbox.find? event.outboxEventId = some event →
    event.status = .pending → c.op = .markOutboxConsumedLocal event.outboxEventId →
    P (u.updateOutbox (event.consume c.now))
  closed : ∀ u a fresh, P u → a ∈ u.attempts.rows → c.op = .recoverIncompleteJobs fresh →
    P (u.closeAttempt a c.now)

section Perform

variable {stableHash : String → String} {c : StoreCall} {P : Store → Prop} {s : Store}

theorem new_newOutbox (job : JobRecord) (attempt : JobAttempt) (ids : AttemptIds)
    (now : Timestamp) : (newOutbox stableHash job attempt ids now).New := ⟨rfl, rfl, rfl⟩

theorem continues_perform (s : Store) (c : StoreCall) : s.Continues (s.perform stableHash c) :=
  fun _ a ha => keeps_perform ⟨a, ha, .refl a⟩ c

variable {t : Store} {e event : OutboxEvent}

variable {ids : AttemptIds} {now : Timestamp} {e' updated x : OutboxEvent} {a : JobAttempt}

theorem OutboxRule.addAttempt (h : OutboxRule c P) (hs : P s) {queued : JobRecord}
    {created : CreatedJob}
    (hadd : addAttempt stableHash queued ids now s = .ok (created, t)) : P t := by
  have hadded := (addAttempt_ok stableHash hadd).1
  exact h.inserted s t _ hs hadded.outbox (new_newOutbox _ _ _ _) (.insert hadded.attempts)

theorem OutboxRule.createJob (h : OutboxRule c P) (hs : P s) (sub : JobSubmission)
    (ids : JobIds) (now : Timestamp) : P (createJob stableHash sub ids now s).2 := by
  rcases createJob_cases stableHash sub ids now s with heq | ⟨created, t, hins, heq⟩
  · rwa [heq]
  · rw [heq]
    have hinserted := (insertNewJob_ok stableHash hins).1
    exact h.inserted s t _ hs hinserted.outbox (new_newOutbox _ _ _ _)
      (.insert hinserted.attempts)

theorem OutboxRule.recoverJob (h : OutboxRule c P) (hs : P s) {fresh : String → AttemptIds}
    (hop : c.op = .recoverIncompleteJobs fresh) {job : JobRecord}
    {created : Option CreatedJob}
    (hrec : recoverJob stableHash ids c.now job s = .ok (created, t)) : P t := by
  obtain ⟨a, ha, hrec⟩ := recoverJob_ok stableHash hrec
  have hclosed := h.closed s a fresh hs (getAttemptIn_some ha).1 hop
  cases hrec with
  | cancelled | exhausted => exact h.frame _ _ hclosed rfl (.of_eq rfl)
  | requeued _ _ hadd => exact h.addAttempt hclosed hadd

/-- The rule for a store call. -/
theorem OutboxRule.perform (h : OutboxRule c P) (hs : P s) : P (s.perform stableHash c) := by
  have hcontinues : s.Continues (s.perform stableHash c) := continues_perform s c
  have hperforms := s.performs stableHash c
  generalize s.perform stableHash c = t at hcontinues hperforms ⊢
  cases hperforms with
  | kept | jobMoved | attemptMoved | beaten | completed | exhausted | cancelling =>
    exact h.frame s _ hs rfl hcontinues
  | created _ sub ids => exact h.createJob hs sub ids c.now
  | requeued _ _ _ added => exact h.addAttempt hs added
  | recovered fresh now =>
    apply recoverIncompleteJobs_rule stableHash _ hs
    intro job u created t hu _ _ _ hrec
    exact h.recoverJob hu rfl hrec
  | @consumed event now found pending => exact h.consumed s event hs found pending rfl

/-- `e'` is a later row of the event `e`. -/
structure OutboxEvent.Continues (e e' : OutboxEvent) : Prop where
  outboxEventId : e'.outboxEventId = e.outboxEventId
  attemptId : e'.attemptId = e.attemptId
  messageDeduplicationKey : e'.messageDeduplicationKey = e.messageDeduplicationKey

theorem OutboxEvent.Continues.refl (e : OutboxEvent) : e.Continues e := ⟨rfl, rfl, rfl⟩

theorem OutboxEvent.Continues.trans {e'' : OutboxEvent} (h : e.Continues e')
    (h' : e'.Continues e'') : e.Continues e'' :=
  ⟨h'.outboxEventId.trans h.outboxEventId, h'.attemptId.trans h.attemptId,
    h'.messageDeduplicationKey.trans h.messageDeduplicationKey⟩

/-- How a store call may change an event. -/
inductive OutboxMove (c : StoreCall) : OutboxEvent → OutboxEvent → Prop
  | kept (e : OutboxEvent) : OutboxMove c e e
  | consumed {e : OutboxEvent} (hop : c.op = .markOutboxConsumedLocal e.outboxEventId)
      (h : e.status = .pending) : OutboxMove c e (e.consume c.now)
  | failed {e : OutboxEvent} {fresh : String → AttemptIds}
      (hop : c.op = .recoverIncompleteJobs fresh) : OutboxMove c e (e.supersede c.now)

theorem OutboxMove.continues (h : OutboxMove c e e') : e.Continues e' := by
  cases h with
  | kept => exact .refl e
  | consumed => exact ⟨rfl, rfl, rfl⟩
  | failed => exact ⟨e.supersede_outboxEventId _, e.supersede_attemptId _,
      e.supersede_messageDeduplicationKey _⟩

theorem OutboxEvent.supersede_of_failed (h : e.status = .failed)
    (now : Timestamp) : e.supersede now = e := by
  simp [OutboxEvent.supersede, h]

theorem OutboxEvent.supersede_status (e : OutboxEvent) (now : Timestamp) :
    (e.supersede now).status = .failed := by
  by_cases h : e.status = .failed
  · rw [OutboxEvent.supersede_of_failed h, h]
  · simp [OutboxEvent.supersede, h]

@[simp] theorem OutboxEvent.supersede_supersede (e : OutboxEvent) (now : Timestamp) :
    (e.supersede now).supersede now = e.supersede now :=
  OutboxEvent.supersede_of_failed (e.supersede_status now) now

variable {id : String}

theorem find?_updateOutbox (h : s.outbox.find? id = some e) (updated : OutboxEvent) :
    (id = updated.outboxEventId ∧ (s.updateOutbox updated).outbox.find? id = some updated) ∨
      (id ≠ updated.outboxEventId ∧ (s.updateOutbox updated).outbox.find? id = some e) := by
  by_cases hid : id = updated.outboxEventId
  · subst hid
    exact .inl ⟨rfl, Table.find?_replace_self (by rw [h]; rfl)⟩
  · exact .inr ⟨hid, by rw [Store.updateOutbox_outbox, Table.find?_replace_of_ne _ hid, h]⟩

/-- Closing an attempt fails the event of that attempt at most. -/
theorem find?_closeAttempt (h : s.outbox.find? id = some e) (a : JobAttempt) (now : Timestamp) :
    (s.closeAttempt a now).outbox.find? id = some e ∨
      (e.attemptId = a.attemptId ∧
        (s.closeAttempt a now).outbox.find? id = some (e.supersede now)) := by
  unfold Store.closeAttempt
  split
  · rename_i event hevent
    obtain ⟨hmem, hown⟩ := getOutboxForAttempt_some hevent
    rcases find?_updateOutbox (s := s.updateAttempt (a.supersede now)) h
      (event.supersede now) with ⟨hid, hnew⟩ | ⟨_, hold⟩
    · rw [OutboxEvent.supersede_outboxEventId] at hid
      obtain rfl : event = e :=
        s.outbox.eq_of_key_eq hmem (Table.find?_mem h) (hid.symm.trans (Table.find?_key h).symm)
      exact .inr ⟨hown, hnew⟩
    · exact .inl hold
  · exact .inl h

variable (stableHash) in
theorem perform_outbox (h : s.outbox.find? id = some e) (c : StoreCall) :
    ∃ e', (s.perform stableHash c).outbox.find? id = some e' ∧ OutboxMove c e e' := by
  apply OutboxRule.perform (P := fun u => ∃ e', u.outbox.find? id = some e' ∧ OutboxMove c e e')
  · constructor
    · rintro u v ⟨e', he', hmove⟩ hsame _
      exact ⟨e', hsame ▸ he', hmove⟩
    · rintro u v event ⟨e', he', hmove⟩ hins _ _
      exact ⟨e', Table.find?_insert_of_some hins he', hmove⟩
    · rintro u event ⟨e', he', hmove⟩ hfind hpending hop
      rcases find?_updateOutbox he' (event.consume c.now) with ⟨hid, hnew⟩ | ⟨_, hold⟩
      · have hid' : id = event.outboxEventId := hid
        rw [hid', hfind] at he'
        cases he'
        refine ⟨_, hnew, ?_⟩
        cases hmove with
        | kept => exact .consumed hop hpending
        | consumed => cases hpending
        | failed hop' =>
          rw [hop] at hop'
          cases hop'
      · exact ⟨e', hold, hmove⟩
    · rintro u a fresh ⟨e', he', hmove⟩ _ hop
      rcases find?_closeAttempt he' a c.now with hsame | ⟨_, hfailed⟩
      · exact ⟨e', hsame, hmove⟩
      · refine ⟨_, hfailed, ?_⟩
        cases hmove with
        | kept => exact .failed hop
        | consumed hop' =>
          rw [hop] at hop'
          cases hop'
        | failed hop' =>
          rw [OutboxEvent.supersede_supersede]
          exact .failed hop'
  · exact ⟨e, h, .kept e⟩

/-- An event that a store call added is not claimed. -/
structure OutboxEvent.Unclaimed (event : OutboxEvent) : Prop where
  status : event.status ≠ .publishing
  publishAttempt : event.publishAttempt = 0

theorem OutboxEvent.New.unclaimed (h : event.New) : event.Unclaimed :=
  ⟨by rw [h.status]; exact OutboxStatus.noConfusion, h.publishAttempt⟩

theorem OutboxEvent.Unclaimed.supersede (h : event.Unclaimed)
    (now : Timestamp) : (event.supersede now).Unclaimed := by
  constructor
  · rw [OutboxEvent.supersede_status]
    exact OutboxStatus.noConfusion
  · unfold OutboxEvent.supersede
    split_ifs <;> exact h.publishAttempt

theorem OutboxEvent.Unclaimed.consume (h : event.Unclaimed)
    (now : Timestamp) : (event.consume now).Unclaimed :=
  ⟨OutboxStatus.noConfusion, h.publishAttempt⟩

theorem mem_updateOutbox (hx : x ∈ (s.updateOutbox updated).outbox.rows) (h : event ∈ s.outbox.rows)
    (hid : updated.outboxEventId = event.outboxEventId) : x = updated ∨ x ∈ s.outbox.rows := by
  have hsome : (s.outbox.find? updated.outboxEventId).isSome := by
    rw [hid, Table.find?_of_mem h]
    rfl
  exact ((Table.mem_replace hsome x).mp hx).imp_right And.left

theorem mem_outbox_closeAttempt (hx : x ∈ (s.closeAttempt a now).outbox.rows) :
    x ∈ s.outbox.rows ∨
      ∃ event ∈ s.outbox.rows, event.attemptId = a.attemptId ∧ x = event.supersede now := by
  unfold Store.closeAttempt at hx
  split at hx
  · rename_i event hevent
    obtain ⟨hmem, hown⟩ := getOutboxForAttempt_some hevent
    rcases mem_updateOutbox (s := s.updateAttempt (a.supersede now)) hx hmem
      (event.supersede_outboxEventId now) with hnew | hold
    · exact .inr ⟨event, hmem, hown, hnew⟩
    · exact .inl hold
  · exact .inl hx

theorem perform_outbox_new (s : Store) (c : StoreCall) :
    ∀ e ∈ (s.perform stableHash c).outbox.rows,
      e.outboxEventId ∈ s.outbox.rows.map OutboxEvent.outboxEventId ∨ e.Unclaimed := by
  apply OutboxRule.perform (P := fun u => ∀ e ∈ u.outbox.rows,
    e.outboxEventId ∈ s.outbox.rows.map OutboxEvent.outboxEventId ∨ e.Unclaimed)
  · constructor
    · intro u v hu hsame _ e he
      exact hu e (hsame ▸ he)
    · intro u v event hu hins hevent _ e he
      rcases (Table.mem_insert hins e).mp he with hold | rfl
      · exact hu e hold
      · exact .inr hevent.unclaimed
    · intro u event hu hfind _ _ e he
      have hmem := Table.find?_mem hfind
      rcases mem_updateOutbox he hmem rfl with rfl | hold
      · exact (hu event hmem).imp_right fun h => h.consume c.now
      · exact hu e hold
    · intro u a fresh hu _ _ e he
      rcases mem_outbox_closeAttempt he with hold | ⟨event, hmem, _, rfl⟩
      · exact hu e hold
      · rw [OutboxEvent.supersede_outboxEventId]
        exact (hu event hmem).imp_right fun h => h.supersede c.now
  · intro e he
    exact .inl (List.mem_map_of_mem he)

def Store.FailuresClosed (s : Store) : Prop :=
  ∀ e ∈ s.outbox.rows, e.status = .failed →
    e.lastPublishErrorCode = some "attempt_superseded_on_restart" ∧
      ∃ a, s.attempts.find? e.attemptId = some a ∧ a.status.Final

theorem Store.FailuresClosed.frame (h : s.FailuresClosed) (hcont : s.Continues t)
    (hrows : ∀ e ∈ t.outbox.rows, e.status = .failed → e ∈ s.outbox.rows) :
    t.FailuresClosed := by
  intro e he hfailed
  obtain ⟨hcode, a, ha, hfinal⟩ := h e (hrows e he hfailed) hfailed
  obtain ⟨b, hb, hab⟩ := hcont _ _ ha
  exact ⟨hcode, b, hb, hab.final hfinal⟩

theorem Store.FailuresClosed.updateOutbox (h : s.FailuresClosed)
    (hmem : event ∈ s.outbox.rows) (hid : updated.outboxEventId = event.outboxEventId)
    (hstatus : updated.status ≠ .failed) : (s.updateOutbox updated).FailuresClosed := by
  apply h.frame (t := s.updateOutbox updated) (.of_eq rfl)
  intro e he hfailed
  rcases mem_updateOutbox he hmem hid with rfl | hold
  · exact absurd hfailed hstatus
  · exact hold

theorem Store.FailuresClosed.closeAttempt (h : s.FailuresClosed)
    (ha : a ∈ s.attempts.rows) (now : Timestamp) : (s.closeAttempt a now).FailuresClosed := by
  intro e he hfailed
  rcases mem_outbox_closeAttempt he with hold | ⟨event, hmem, hown, rfl⟩
  · obtain ⟨hcode, b, hb, hfinal⟩ := h e hold hfailed
    obtain ⟨b', hb', hcont⟩ := continues_closeAttempt ha now _ _ hb
    exact ⟨hcode, b', hb', hcont.final hfinal⟩
  · have hclosed : (s.closeAttempt a now).attempts.find? event.attemptId =
        some (a.supersede now) := by
      rw [hown, Store.closeAttempt_attempts]
      apply Table.find?_replace_of_key (a.supersede_attemptId now)
      rw [Table.find?_of_mem ha]
      rfl
    rw [OutboxEvent.supersede_attemptId]
    refine ⟨?_, _, hclosed, a.supersede_final now⟩
    by_cases hold : event.status = .failed
    · rw [OutboxEvent.supersede_of_failed hold]
      exact (h event hmem hold).1
    · simp [OutboxEvent.supersede, hold]

theorem Store.FailuresClosed.perform (h : s.FailuresClosed) (c : StoreCall) :
    (s.perform stableHash c).FailuresClosed := by
  apply OutboxRule.perform (P := Store.FailuresClosed) _ h
  constructor
  · intro u v hu hsame hcont
    exact hu.frame hcont fun e he _ => hsame ▸ he
  · intro u v event hu hins hevent hcont
    apply hu.frame hcont
    intro e he hfailed
    rcases (Table.mem_insert hins e).mp he with hold | rfl
    · exact hold
    · rw [hevent.status] at hfailed
      cases hfailed
  · intro u event hu hfind _ _
    exact hu.updateOutbox (Table.find?_mem hfind) rfl OutboxStatus.noConfusion
  · intro u a fresh hu ha _
    exact hu.closeAttempt ha c.now

/-- Only a recovery fails an event. -/
theorem failed_perform (s : Store) (c : StoreCall) :
    ∀ e ∈ (s.perform stableHash c).outbox.rows, e.status = .failed →
      e ∈ s.outbox.rows ∨ ∃ fresh, c.op = .recoverIncompleteJobs fresh := by
  apply OutboxRule.perform (P := fun u => ∀ e ∈ u.outbox.rows, e.status = .failed →
    e ∈ s.outbox.rows ∨ ∃ fresh, c.op = .recoverIncompleteJobs fresh)
  · constructor
    · intro u v hu hsame _ e he
      exact hu e (hsame ▸ he)
    · intro u v event hu hins hevent _ e he hfailed
      rcases (Table.mem_insert hins e).mp he with hold | rfl
      · exact hu e hold hfailed
      · rw [hevent.status] at hfailed
        cases hfailed
    · intro u event hu hfind _ _ e he hfailed
      rcases mem_updateOutbox he (Table.find?_mem hfind) rfl with
        rfl | hold
      · cases hfailed
      · exact hu e hold hfailed
    · intro _ _ fresh _ _ hop _ _ _
      exact .inr ⟨fresh, hop⟩
  · exact fun e he _ => .inl he

end Perform

end CodeResearch.ControlPlane
