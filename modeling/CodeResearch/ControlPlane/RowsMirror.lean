import CodeResearch.ControlPlane.OutboxProtocol
import CodeResearch.ControlPlane.RowOperations
import CodeResearch.Library.Image

/-!
# Columns mirror the records

A row mirrors its record when it is the row that inserting the record writes. Every
operation on rows acts as the operation on records does, as long as the stored
records are accepted by their models, and it keeps both.
-/
namespace CodeResearch.ControlPlane

open Artifacts (ArtifactRecord artifactTransitions)

/-- The stored records are accepted by their models. -/
structure Store.Accepted (s : Store) : Prop where
  jobs : ∀ j ∈ s.jobs.rows, j.Accepted
  attempts : ∀ a ∈ s.attempts.rows, a.Accepted
  outbox : ∀ e ∈ s.outbox.rows, e.Accepted

/-- The rows are those of a store of accepted records, next to the artifacts `u`. -/
structure Mirrors (u : Table ArtifactRow.artifactId) (r : RowStore) (s : Store) : Prop where
  jobs : r.jobs.ImageOf JobRow.new s.jobs
  attempts : r.attempts.ImageOf AttemptRow.new s.attempts
  outbox : r.outbox.ImageOf OutboxRow.new s.outbox
  requests : r.requests = s.requests
  domainRuns : r.domainRuns = s.domainRuns
  auditEvents : r.auditEvents = s.auditEvents
  artifacts : r.artifacts = u
  accepted : s.Accepted

/-- A row transaction and a record transaction return the same and leave mirrored stores. -/
def Mirrored {α : Type} (u : Table ArtifactRow.artifactId) (p : Except StoreError α × RowStore)
    (q : Except StoreError α × Store) : Prop :=
  p.1 = q.1 ∧ Mirrors u p.2 q.2

abbrev MirroredBody {α : Type} (u : Table ArtifactRow.artifactId) :
    Except StoreError (α × RowStore) → Except StoreError (α × Store) → Prop :=
  Agree fun p q => p.1 = q.1 ∧ Mirrors u p.2 q.2

section Elementary

variable {u : Table ArtifactRow.artifactId} {r : RowStore} {s : Store}

theorem Mirrors.empty : Mirrors .empty .empty .empty := by
  refine ⟨.empty _, .empty _, .empty _, rfl, rfl, rfl, rfl, ?_⟩
  constructor <;> simp [Store.empty]

theorem load_of_accepted {ρ : Type} {Accepted : ρ → Prop} [DecidablePred Accepted] {json : ρ}
    (h : Accepted json) : load Accepted json = .ok json :=
  if_pos h

theorem Mirrors.transact {α : Type} (h : Mirrors u r s) {x : Except StoreError (α × RowStore)}
    {y : Except StoreError (α × Store)} (hxy : MirroredBody u x y) :
    Mirrored u (CodeResearch.transact r x) (commit s y) := by
  cases hxy with
  | error e => exact ⟨rfl, h⟩
  | ok hab =>
    obtain ⟨hsame, hmirrors⟩ := hab
    exact ⟨congrArg Except.ok hsame, hmirrors⟩

theorem load_image {ρ τ : Type} {Accepted : ρ → Prop} [DecidablePred Accepted] {f : ρ → τ}
    {json : τ → ρ} (hjson : ∀ x, json (f x) = x) {o : Option ρ} (h : ∀ x ∈ o, Accepted x)
    (e : StoreError) :
    (orError e (o.map f) >>= fun row => load Accepted (json row)) = orError e o := by
  cases o with
  | none => rfl
  | some x =>
    rw [Option.map_some, orError_some, orError_some, except_bind_ok, hjson]
    exact load_of_accepted (h x rfl)

theorem Mirrors.readJob (h : Mirrors u r s) (jobId : String) (e : StoreError) :
    r.readJob jobId e = orError e (s.jobs.find? jobId) := by
  rw [RowStore.readJob, h.jobs.find? (fun _ => rfl)]
  exact load_image (fun _ => rfl) (fun j hj => h.accepted.jobs j (Table.find?_mem hj)) e

theorem Mirrors.readAttempt (h : Mirrors u r s) (attemptId : String) :
    r.readAttempt attemptId =
      orError (.controlPlane "attempt_not_found") (s.attempts.find? attemptId) := by
  rw [RowStore.readAttempt, h.attempts.find? (fun _ => rfl)]
  exact load_image (fun _ => rfl) (fun a ha => h.accepted.attempts a (Table.find?_mem ha)) _

theorem Mirrors.readOutbox (h : Mirrors u r s) (eventId : String) :
    r.readOutbox eventId =
      orError (.controlPlane "outbox_not_found") (s.outbox.find? eventId) := by
  rw [RowStore.readOutbox, h.outbox.find? (fun _ => rfl)]
  exact load_image (fun _ => rfl) (fun e he => h.accepted.outbox e (Table.find?_mem he)) _

theorem Mirrors.getAttemptIn (h : Mirrors u r s) (jobId : String) (attemptNumber : ℕ) :
    r.getAttemptIn jobId attemptNumber =
      orError .missingRow (s.getAttemptIn jobId attemptNumber) := by
  rw [RowStore.getAttemptIn, h.attempts.find?_rows]
  exact load_image (fun _ => rfl)
    (fun a ha => h.accepted.attempts a (List.mem_of_find?_eq_some ha)) _

theorem Mirrors.outboxForAttempt (h : Mirrors u r s) (attemptId : String) :
    r.outboxForAttempt attemptId = .ok (s.getOutboxForAttempt attemptId) := by
  have hrow : (r.outbox.rows.find? fun e => e.attemptId = attemptId) =
      (s.getOutboxForAttempt attemptId).map OutboxRow.new := h.outbox.find?_rows _
  rw [RowStore.outboxForAttempt, hrow]
  cases hevent : s.getOutboxForAttempt attemptId with
  | none => rfl
  | some e =>
    have haccepted := h.accepted.outbox e (getOutboxForAttempt_some hevent).1
    exact congrArg (Except.map some) (load_of_accepted haccepted)

theorem Mirrors.getJobRequestIn (h : Mirrors u r s) (jobId : String) :
    r.getJobRequestIn jobId = s.getJobRequestIn jobId := by
  rw [RowStore.getJobRequestIn, h.requests]
  rfl

theorem Mirrors.updateJob (h : Mirrors u r s) {old : JobRecord} (hold : old ∈ s.jobs.rows)
    (new : JobRecord) (hid : new.jobId = old.jobId)
    (hrow : JobRow.update new (JobRow.new old) = JobRow.new new) (hnew : new.Accepted) :
    Mirrors u (r.updateJob new) (s.updateJob new) := by
  have hfind : s.jobs.find? new.jobId = some old := hid ▸ Table.find?_of_mem hold
  refine ⟨h.jobs.update (fun _ => rfl) hfind rfl (JobRow.update new) (fun _ => rfl) hrow,
    h.attempts, h.outbox, h.requests, h.domainRuns, h.auditEvents, h.artifacts, ?_,
    h.accepted.attempts, h.accepted.outbox⟩
  intro j hj
  rcases (Table.mem_replace (by rw [hfind]; rfl) j).mp hj with rfl | ⟨hmem, _⟩
  · exact hnew
  · exact h.accepted.jobs j hmem

/-- A statement on the row of one attempt. -/
theorem Mirrors.writeAttempt (h : Mirrors u r s) {old : JobAttempt} (hold : old ∈ s.attempts.rows)
    (new : JobAttempt) (hid : new.attemptId = old.attemptId) (w : AttemptRow → AttemptRow)
    (hw : ∀ row, (w row).attemptId = row.attemptId)
    (hrow : w (AttemptRow.new old) = AttemptRow.new new) (hnew : new.Accepted) :
    Mirrors u { r with
      attempts := r.attempts.updateWhere (fun row => row.attemptId = new.attemptId) w hw }
      (s.updateAttempt new) := by
  have hfind : s.attempts.find? new.attemptId = some old := hid ▸ Table.find?_of_mem hold
  refine ⟨h.jobs, h.attempts.update (fun _ => rfl) hfind rfl w hw hrow, h.outbox, h.requests,
    h.domainRuns, h.auditEvents, h.artifacts, h.accepted.jobs, ?_, h.accepted.outbox⟩
  intro a ha
  rcases (Table.mem_replace (by rw [hfind]; rfl) a).mp ha with rfl | ⟨hmem, _⟩
  · exact hnew
  · exact h.accepted.attempts a hmem

theorem Mirrors.updateOutbox (h : Mirrors u r s) {old : OutboxEvent} {eventId : String}
    (hold : s.outbox.find? eventId = some old) (new : OutboxEvent)
    (hid : new.outboxEventId = old.outboxEventId) (w : OutboxRow → OutboxRow)
    (hw : ∀ row, (w row).outboxEventId = row.outboxEventId)
    (hrow : w (OutboxRow.new old) = OutboxRow.new new) (hnew : new.Accepted) :
    Mirrors u (r.updateOutbox eventId w hw) (s.updateOutbox new) := by
  have hkey : new.outboxEventId = eventId := hid.trans (Table.find?_key hold)
  refine ⟨h.jobs, h.attempts, h.outbox.update (fun _ => rfl) hold hkey w hw hrow, h.requests,
    h.domainRuns, h.auditEvents, h.artifacts, h.accepted.jobs, h.accepted.attempts, ?_⟩
  intro e he
  rcases (Table.mem_replace (by rw [hkey, hold]; rfl) e).mp he with rfl | ⟨hmem, _⟩
  · exact hnew
  · exact h.accepted.outbox e hmem

theorem agree_insert {ρ τ : Type} {key : ρ → String} {key' : τ → String} {f : ρ → τ}
    {v : Table key'} {t : Table key} (h : v.ImageOf f t) (hf : ∀ x, key' (f x) = key x) (x : ρ)
    {F : Table key' → RowStore} {G : Table key → Store}
    (hstore : ∀ t' v', t.insert x = some t' → v'.ImageOf f t' → Mirrors u (F v') (G t')) :
    Agree (Mirrors u) ((orError .integrity (v.insert (f x))).map F)
      ((orError .integrity (t.insert x)).map G : Except StoreError Store) := by
  rcases h.insert hf x with ⟨hnone, hnone'⟩ | ⟨t', v', ht, hv, himage⟩
  · rw [hnone, hnone']
    exact .error _
  · rw [ht, hv]
    exact .ok (hstore t' v' ht himage)

theorem Mirrors.insertJob (h : Mirrors u r s) {j : JobRecord} (hj : j.Accepted) :
    Agree (Mirrors u) (r.insertJob j) (s.insertJob j) := by
  have hany : (r.jobs.rows.any fun row => row.workspaceId = j.workspaceId ∧
      row.idempotencyKeyHash = j.idempotencyKeyHash) = s.jobs.rows.any fun row =>
        row.workspaceId = j.workspaceId ∧ row.idempotencyKeyHash = j.idempotencyKeyHash :=
    h.jobs.any _
  rw [RowStore.insertJob, Store.insertJob, hany]
  split_ifs
  · exact .error _
  · apply agree_insert h.jobs (fun _ => rfl)
    intro t v ht himage
    refine ⟨himage, h.attempts, h.outbox, h.requests, h.domainRuns, h.auditEvents, h.artifacts,
      ?_, h.accepted.attempts, h.accepted.outbox⟩
    intro k hk
    rcases (Table.mem_insert ht k).mp hk with hmem | rfl
    · exact h.accepted.jobs k hmem
    · exact hj

theorem Mirrors.insertAttempt (h : Mirrors u r s) {a : JobAttempt} (ha : a.Accepted) :
    Agree (Mirrors u) (r.insertAttempt a) (s.insertAttempt a) := by
  have hany : (r.attempts.rows.any fun row => row.jobId = a.jobId ∧
      row.attemptNumber = a.attemptNumber) = s.attempts.rows.any fun row =>
        row.jobId = a.jobId ∧ row.attemptNumber = a.attemptNumber :=
    h.attempts.any _
  rw [RowStore.insertAttempt, Store.insertAttempt, hany]
  split_ifs
  · exact .error _
  · apply agree_insert h.attempts (fun _ => rfl)
    intro t v ht himage
    refine ⟨h.jobs, himage, h.outbox, h.requests, h.domainRuns, h.auditEvents, h.artifacts,
      h.accepted.jobs, ?_, h.accepted.outbox⟩
    intro b hb
    rcases (Table.mem_insert ht b).mp hb with hmem | rfl
    · exact h.accepted.attempts b hmem
    · exact ha

theorem Mirrors.insertOutbox (h : Mirrors u r s) {e : OutboxEvent} (he : e.Accepted) :
    Agree (Mirrors u) (r.insertOutbox e) (s.insertOutbox e) := by
  have hany : (r.outbox.rows.any fun row =>
      row.messageDeduplicationKey = e.messageDeduplicationKey) = s.outbox.rows.any fun row =>
        row.messageDeduplicationKey = e.messageDeduplicationKey :=
    h.outbox.any _
  rw [RowStore.insertOutbox, Store.insertOutbox, hany]
  split_ifs
  · exact .error _
  · apply agree_insert h.outbox (fun _ => rfl)
    intro t v ht himage
    refine ⟨h.jobs, h.attempts, himage, h.requests, h.domainRuns, h.auditEvents, h.artifacts,
      h.accepted.jobs, h.accepted.attempts, ?_⟩
    intro b hb
    rcases (Table.mem_insert ht b).mp hb with hmem | rfl
    · exact h.accepted.outbox b hmem
    · exact he

theorem Mirrors.insertRequest (h : Mirrors u r s) (row : JobRequestRow) :
    Agree (Mirrors u) (r.insertRequest row) (s.insertRequest row) := by
  rw [RowStore.insertRequest, Store.insertRequest, h.requests]
  cases s.requests.insert row with
  | none => exact .error _
  | some t =>
    exact .ok ⟨h.jobs, h.attempts, h.outbox, rfl, h.domainRuns, h.auditEvents, h.artifacts,
      h.accepted.jobs, h.accepted.attempts, h.accepted.outbox⟩

theorem Mirrors.insertDomainRun (h : Mirrors u r s) (row : DomainRunRow) :
    Agree (Mirrors u) (r.insertDomainRun row) (s.insertDomainRun row) := by
  rw [RowStore.insertDomainRun, Store.insertDomainRun, h.domainRuns]
  cases s.domainRuns.insert row with
  | none => exact .error _
  | some t =>
    exact .ok ⟨h.jobs, h.attempts, h.outbox, h.requests, rfl, h.auditEvents, h.artifacts,
      h.accepted.jobs, h.accepted.attempts, h.accepted.outbox⟩

theorem Mirrors.insertAuditEvent (h : Mirrors u r s) (row : AuditEvent) :
    Agree (Mirrors u) (r.insertAuditEvent row) (s.insertAuditEvent row) := by
  rw [RowStore.insertAuditEvent, Store.insertAuditEvent, h.auditEvents]
  cases s.auditEvents.insert row with
  | none => exact .error _
  | some t =>
    exact .ok ⟨h.jobs, h.attempts, h.outbox, h.requests, h.domainRuns, rfl, h.artifacts,
      h.accepted.jobs, h.accepted.attempts, h.accepted.outbox⟩

end Elementary

theorem JobRecord.Accepted.rewrite {j k : JobRecord} (h : j.Accepted) (hvalid : k.Valid)
    (hkey : k.idempotencyKeyHash = j.idempotencyKeyHash)
    (hrequest : k.requestHash = j.requestHash) : k.Accepted :=
  ⟨hvalid, hkey ▸ h.idempotencyKeyHash, hrequest ▸ h.requestHash⟩

theorem JobAttempt.Accepted.supersede {a : JobAttempt} (h : a.Accepted) (now : Timestamp) :
    (a.supersede now).Accepted := by
  by_cases hlive : a.status ∈ [AttemptStatus.created, .dispatched, .claimed, .running]
  · rw [JobAttempt.supersede, if_pos hlive]
    exact ⟨h.attemptNumber, h.executionTokenHash⟩
  · rwa [JobAttempt.supersede, if_neg hlive]

theorem OutboxEvent.Accepted.supersede {e : OutboxEvent} (h : e.Accepted) (now : Timestamp) :
    (e.supersede now).Accepted := by
  unfold OutboxEvent.supersede
  split_ifs
  · exact ⟨h.attemptNumber, h.taskSchemaVersion, h.requestHash, h.messageDeduplicationKey⟩
  · exact h

variable {stableHash : String → String}

section Operations

variable (hdigest : ∀ text, IsDigest (stableHash text))
variable {u : Table ArtifactRow.artifactId} {r : RowStore} {s : Store} {job : JobRecord}

theorem Mirrors.transitionJob (h : Mirrors u r s) (jobId : String) (target : JobStatus)
    (errorCode : Option String) (expectedRevision : Option ℕ) (now : Timestamp) :
    Mirrored u (RowStore.transitionJob jobId target errorCode expectedRevision now r)
      (transitionJob jobId target errorCode expectedRevision now s) := by
  apply h.transact
  rw [h.readJob]
  apply Agree.bind_same
  intro job hjob
  apply Agree.bind_same
  intro updated hupdated
  have hmem := Table.find?_mem (orError_eq_ok_iff.mp hjob)
  obtain ⟨_, _, rfl, hvalid⟩ := JobRecord.transition_ok hupdated
  apply Agree.ok
  refine ⟨rfl, h.updateJob hmem _ rfl rfl ?_⟩
  exact (h.accepted.jobs job hmem).rewrite hvalid rfl rfl

theorem Mirrors.authorizedAttempt (h : Mirrors u r s) (attemptId executionToken : String) :
    RowStore.authorizedAttempt stableHash attemptId executionToken r =
      authorizedAttempt stableHash attemptId executionToken s := by
  rw [RowStore.authorizedAttempt, h.readAttempt]
  rfl

/-- The attempt that a token opens is rewritten in both stores. -/
theorem Mirrors.rewriteAttempt (h : Mirrors u r s) {attemptId executionToken : String}
    {old : JobAttempt}
    (hold : ControlPlane.authorizedAttempt stableHash attemptId executionToken s = .ok old)
    (new : JobAttempt) (hid : new.attemptId = old.attemptId) (w : AttemptRow → AttemptRow)
    (hw : ∀ row, (w row).attemptId = row.attemptId)
    (hrow : w (AttemptRow.new old) = AttemptRow.new new)
    (hnumber : new.attemptNumber = old.attemptNumber)
    (htoken : new.executionTokenHash = old.executionTokenHash) :
    Mirrors u { r with
      attempts := r.attempts.updateWhere (fun row => row.attemptId = new.attemptId) w hw }
      (s.updateAttempt new) := by
  have hmem := Table.find?_mem (authorizedAttempt_ok stableHash hold).1
  have haccepted := h.accepted.attempts old hmem
  exact h.writeAttempt hmem new hid w hw hrow
    ⟨hnumber ▸ haccepted.attemptNumber, htoken ▸ haccepted.executionTokenHash⟩

theorem Mirrors.transitionAttempt (h : Mirrors u r s) (attemptId executionToken : String)
    (target : AttemptStatus) (workerIdHash celeryTaskId : Option String) (now : Timestamp) :
    Mirrored u
      (RowStore.transitionAttempt stableHash attemptId executionToken target workerIdHash
        celeryTaskId now r)
      (transitionAttempt stableHash attemptId executionToken target workerIdHash celeryTaskId
        now s) := by
  apply h.transact
  rw [h.authorizedAttempt]
  apply Agree.bind_same
  intro attempt hattempt
  apply Agree.bind_same
  intro _ _
  exact .ok ⟨rfl, h.rewriteAttempt hattempt (attempt.moveTo target workerIdHash celeryTaskId now)
    rfl (AttemptRow.update target _ now) (fun _ => rfl) rfl rfl rfl⟩

theorem Mirrors.heartbeatAttempt (h : Mirrors u r s) (attemptId executionToken : String)
    (now : Timestamp) :
    Mirrored u (RowStore.heartbeatAttempt stableHash attemptId executionToken now r)
      (heartbeatAttempt stableHash attemptId executionToken now s) := by
  apply h.transact
  rw [h.authorizedAttempt]
  apply Agree.bind_same
  intro attempt hattempt
  apply Agree.bind_same
  intro _ _
  exact .ok ⟨rfl, h.rewriteAttempt hattempt (attempt.beat now) rfl (AttemptRow.beat _ now)
    (fun _ => rfl) rfl rfl rfl⟩

theorem Mirrors.completeAttempt (h : Mirrors u r s) (attemptId executionToken : String)
    (status : AttemptStatus) (errorCode : Option String)
    (resultArtifactRefIds : Option (List String)) (now : Timestamp) :
    Mirrored u
      (RowStore.completeAttempt stableHash attemptId executionToken status errorCode
        resultArtifactRefIds now r)
      (completeAttempt stableHash attemptId executionToken status errorCode
        resultArtifactRefIds now s) := by
  apply h.transact
  apply Agree.bind_same
  intro _ _
  rw [h.authorizedAttempt]
  apply Agree.bind_same
  intro attempt hattempt
  rw [h.readJob]
  apply Agree.bind_same
  intro job hjob
  apply Agree.bind_same
  intro _ _
  apply Agree.bind_same
  intro _ _
  apply Agree.bind_same
  intro updatedJob hupdated
  obtain ⟨hvalid, rfl⟩ := JobRecord.validate_eq_ok_iff.mp hupdated
  have hjobmem := Table.find?_mem (orError_eq_ok_iff.mp hjob)
  have hattempts := h.rewriteAttempt hattempt (attempt.complete status errorCode now) rfl
    (AttemptRow.update status (attempt.complete status errorCode now) now) (fun _ => rfl) rfl
    rfl rfl
  apply Agree.ok
  refine ⟨rfl, hattempts.updateJob (s := s.updateAttempt _) hjobmem _ rfl rfl ?_⟩
  exact (h.accepted.jobs job hjobmem).rewrite hvalid rfl rfl

theorem Mirrors.requestCancel (h : Mirrors u r s) (jobId : String) (now : Timestamp) :
    Mirrored u (RowStore.requestCancel jobId now r) (requestCancel jobId now s) := by
  apply h.transact
  rw [h.readJob]
  apply Agree.bind_same
  intro job hjob
  split_ifs
  · exact .ok ⟨rfl, h⟩
  · apply Agree.bind_same
    intro _ _
    apply Agree.bind_same
    intro updated hupdated
    obtain ⟨hvalid, rfl⟩ := JobRecord.validate_eq_ok_iff.mp hupdated
    have hmem := Table.find?_mem (orError_eq_ok_iff.mp hjob)
    apply Agree.ok
    refine ⟨rfl, h.updateJob hmem _ rfl rfl ?_⟩
    exact (h.accepted.jobs job hmem).rewrite hvalid rfl rfl

theorem Mirrors.markOutboxConsumedLocal (h : Mirrors u r s) (eventId : String)
    (now : Timestamp) :
    Mirrored u (RowStore.markOutboxConsumedLocal eventId now r)
      (markOutboxConsumedLocal eventId now s) := by
  apply h.transact
  rw [h.readOutbox]
  apply Agree.bind_same
  intro event hevent
  split_ifs
  · exact .ok ⟨rfl, h⟩
  · apply Agree.bind_same
    intro _ _
    have hfind := orError_eq_ok_iff.mp hevent
    have haccepted := h.accepted.outbox event (Table.find?_mem hfind)
    apply Agree.ok
    refine ⟨rfl, h.updateOutbox hfind (event.consume now) rfl (OutboxRow.consume _ now)
      (fun _ => rfl) rfl ?_⟩
    exact ⟨haccepted.attemptNumber, haccepted.taskSchemaVersion, haccepted.requestHash,
      haccepted.messageDeduplicationKey⟩

include hdigest

theorem accepted_newAttempt (jobId : String) {attemptNumber : ℕ} (hnumber : 1 ≤ attemptNumber)
    (ids : AttemptIds) (now : Timestamp) :
    (newAttempt stableHash jobId attemptNumber ids now).Accepted :=
  ⟨hnumber, hdigest ids.token⟩

theorem accepted_newOutbox (hjob : job.Accepted) {attempt : JobAttempt}
    (hattempt : 1 ≤ attempt.attemptNumber) (ids : AttemptIds) (now : Timestamp) :
    (newOutbox stableHash job attempt ids now).Accepted :=
  ⟨hattempt, hjob.valid.taskSchemaVersion, hjob.requestHash, hdigest _⟩

theorem Mirrors.addAttempt (h : Mirrors u r s) {old : JobRecord} (hold : old ∈ s.jobs.rows)
    (queued : JobRecord) (hid : queued.jobId = old.jobId)
    (hrow : JobRow.update queued (JobRow.new old) = JobRow.new queued) (hqueued : queued.Accepted)
    (ids : AttemptIds) (now : Timestamp) :
    MirroredBody u (RowStore.addAttempt stableHash queued ids now r)
      (addAttempt stableHash queued ids now s) := by
  have hnumber := hqueued.valid.currentAttemptNumber
  rw [RowStore.addAttempt, ControlPlane.addAttempt, h.getJobRequestIn]
  apply Agree.bind_same
  intro request _
  apply (h.insertAttempt (accepted_newAttempt hdigest queued.jobId hnumber ids now)).bind
  intro r₁ s₁ hs₁ h₁
  apply (h₁.insertOutbox (accepted_newOutbox hdigest hqueued hnumber ids now)).bind
  intro r₂ s₂ hs₂ h₂
  obtain ⟨_, _, rfl⟩ := insertAttempt_ok hs₁
  obtain ⟨_, _, _, rfl⟩ := insertOutbox_ok hs₂
  exact .ok ⟨rfl, h₂.updateJob hold queued hid hrow hqueued⟩

theorem Mirrors.createRetryAttempt (h : Mirrors u r s) (jobId : String) (ids : AttemptIds)
    (now : Timestamp) :
    Mirrored u (RowStore.createRetryAttempt stableHash jobId ids now r)
      (createRetryAttempt stableHash jobId ids now s) := by
  rw [RowStore.createRetryAttempt, ControlPlane.createRetryAttempt, h.readJob]
  cases hjob : s.jobs.find? jobId with
  | none => exact ⟨rfl, h⟩
  | some job =>
    have hmem := Table.find?_mem hjob
    have haccepted := h.accepted.jobs job hmem
    simp only [orError_some]
    split_ifs
    · exact ⟨rfl, h⟩
    · cases hdead : (job.exhaust now).validate with
      | error e => exact ⟨rfl, h⟩
      | ok dead =>
        obtain ⟨hvalid, rfl⟩ := JobRecord.validate_eq_ok_iff.mp hdead
        exact ⟨rfl, h.updateJob hmem _ rfl rfl (haccepted.rewrite hvalid rfl rfl)⟩
    · apply h.transact
      apply Agree.bind_same
      intro queued hqueued
      obtain ⟨hvalid, rfl⟩ := JobRecord.validate_eq_ok_iff.mp hqueued
      exact h.addAttempt hdigest hmem (job.requeue now) rfl rfl
        (haccepted.rewrite hvalid rfl rfl) ids now

omit hdigest in
theorem Mirrors.replayJob (h : Mirrors u r s) (job : JobRecord) (requestHash : String) :
    MirroredBody u (RowStore.replayJob job requestHash r) (replayJob job requestHash s) := by
  rw [RowStore.replayJob, ControlPlane.replayJob, h.getAttemptIn]
  apply Agree.bind_same
  intro _ _
  apply Agree.bind_same
  intro attempt _
  rw [h.outboxForAttempt, except_bind_ok]
  apply Agree.bind_same
  intro outbox _
  rw [h.getJobRequestIn]
  apply Agree.bind_same
  intro request _
  exact .ok ⟨rfl, h⟩

theorem Mirrors.insertNewJob (h : Mirrors u r s) (sub : JobSubmission) (ids : JobIds)
    (now : Timestamp) :
    MirroredBody u (RowStore.insertNewJob stableHash sub ids now r)
      (insertNewJob stableHash sub ids now s) := by
  apply Agree.bind_same
  intro job hjob
  obtain ⟨hvalid, rfl⟩ := JobRecord.validate_eq_ok_iff.mp hjob
  have haccepted : (newJob stableHash sub ids now).Accepted :=
    ⟨hvalid, hdigest sub.idempotencyKey, hdigest sub.requestJson⟩
  apply (h.insertDomainRun _).bind
  intro r₁ s₁ _ h₁
  apply (h₁.insertJob haccepted).bind
  intro r₂ s₂ _ h₂
  apply (h₂.insertRequest _).bind
  intro r₃ s₃ _ h₃
  apply (h₃.insertAttempt (accepted_newAttempt hdigest _ le_rfl ids.toAttemptIds now)).bind
  intro r₄ s₄ _ h₄
  apply (h₄.insertOutbox (accepted_newOutbox hdigest haccepted le_rfl ids.toAttemptIds now)).bind
  intro r₅ s₅ _ h₅
  apply (h₅.insertAuditEvent _).bind
  intro r₆ s₆ _ h₆
  exact .ok ⟨rfl, h₆⟩

theorem Mirrors.createJob (h : Mirrors u r s) (sub : JobSubmission) (ids : JobIds)
    (now : Timestamp) :
    Mirrored u (RowStore.createJob stableHash sub ids now r)
      (createJob stableHash sub ids now s) := by
  have hrow : (r.jobs.rows.find? fun row => row.workspaceId = sub.workspaceId ∧
      row.idempotencyKeyHash = stableHash sub.idempotencyKey) =
        (s.findIdempotent sub.workspaceId (stableHash sub.idempotencyKey)).map JobRow.new :=
    h.jobs.find?_rows _
  apply h.transact
  rw [hrow]
  cases hfind : s.findIdempotent sub.workspaceId (stableHash sub.idempotencyKey) with
  | none => exact h.insertNewJob hdigest sub ids now
  | some job =>
    have hload : load JobRecord.Accepted (JobRow.new job).jobJson = .ok job :=
      load_of_accepted (h.accepted.jobs job (List.mem_of_find?_eq_some hfind))
    simp only [Option.map_some, hload, except_bind_ok]
    exact h.replayJob job _

theorem Mirrors.createManualRetry (h : Mirrors u r s) (jobId manualHex : String) (ids : JobIds)
    (now : Timestamp) :
    Mirrored u (RowStore.createManualRetry stableHash jobId manualHex ids now r)
      (createManualRetry stableHash jobId manualHex ids now s) := by
  rw [RowStore.createManualRetry, ControlPlane.createManualRetry, h.readJob]
  cases s.jobs.find? jobId with
  | none => exact ⟨rfl, h⟩
  | some job =>
    simp only [orError_some, h.getJobRequestIn]
    split_ifs
    · cases s.getJobRequestIn jobId with
      | error e => exact ⟨rfl, h⟩
      | ok request => exact h.createJob hdigest _ ids now
    · exact ⟨rfl, h⟩

omit hdigest in
/-- A closed attempt was written, unless it was closed before. -/
theorem Mirrors.closeCurrent (h : Mirrors u r s) {a : JobAttempt} (ha : a ∈ s.attempts.rows)
    (now : Timestamp) :
    Mirrors u
      (if a.status ∈ [AttemptStatus.created, .dispatched, .claimed, .running] then
        r.updateAttempt (if a.status = .created then .superseded else .lost) (a.supersede now) now
      else r) (s.updateAttempt (a.supersede now)) := by
  have haccepted := h.accepted.attempts a ha
  split_ifs with hlive hcreated
  · apply h.writeAttempt ha _ (a.supersede_attemptId now) (AttemptRow.update .superseded _ now)
      (fun _ => rfl) _ (haccepted.supersede now)
    simp [JobAttempt.supersede, AttemptRow.update, AttemptRow.new, hcreated]
  · apply h.writeAttempt ha _ (a.supersede_attemptId now) (AttemptRow.update .lost _ now)
      (fun _ => rfl) _ (haccepted.supersede now)
    rw [JobAttempt.supersede, if_pos hlive, if_neg hcreated]
    rfl
  · have hsame : a.supersede now = a := if_neg hlive
    rw [hsame, Store.updateAttempt, Table.replace_of_mem ha]
    exact h

omit hdigest in
theorem Mirrors.supersedeCurrent (h : Mirrors u r s) (job : JobRecord) (now : Timestamp) :
    Agree (Mirrors u) (RowStore.supersedeCurrent job now r) (supersedeCurrent job now s) := by
  rw [RowStore.supersedeCurrent, ControlPlane.supersedeCurrent, h.getAttemptIn]
  apply Agree.bind_same
  intro a ha
  have hmem := (getAttemptIn_some (orError_eq_ok_iff.mp ha)).1
  have hclosed := h.closeCurrent hmem now
  dsimp only
  rw [hclosed.outboxForAttempt, except_bind_ok]
  cases hevent : (s.updateAttempt (a.supersede now)).getOutboxForAttempt a.attemptId with
  | none => exact .ok hclosed
  | some event =>
    have hstored : event ∈ (s.updateAttempt (a.supersede now)).outbox.rows :=
      (getOutboxForAttempt_some hevent).1
    have haccepted := h.accepted.outbox event hstored
    dsimp only
    by_cases hfailed : event.status ≠ .failed
    · rw [if_pos hfailed]
      apply Agree.ok
      apply hclosed.updateOutbox (Table.find?_of_mem hstored) _ (event.supersede_outboxEventId now)
        (OutboxRow.supersede _ now) (fun _ => rfl) _ (haccepted.supersede now)
      rw [OutboxEvent.supersede, if_pos hfailed]
      rfl
    · rw [if_neg hfailed, OutboxEvent.supersede, if_neg hfailed, Store.updateOutbox,
        Table.replace_of_mem hstored]
      exact .ok hclosed

omit hdigest in
theorem JobRecord.Accepted.restart (h : job.Accepted) (now : Timestamp) :
    (job.cancelOnRestart now).Accepted ∧ (job.exhaustOnRestart now).Accepted ∧
      (job.requeueOnRestart now).Accepted := by
  obtain ⟨hid, hqueue, hcur, hmax, hschema, hrefs, hrev, _⟩ := h.valid
  have hcancelled : JobStatus.Terminal .cancelled := by decide
  have hdead : JobStatus.Terminal .dead := by decide
  have hqueued : ¬ JobStatus.Terminal .queued := by decide
  refine ⟨h.rewrite ⟨hid, hqueue, hcur, hmax, hschema, hrefs, Nat.le_add_left 1 _, ?_⟩ rfl rfl,
    h.rewrite ⟨hid, hqueue, hcur, hmax, hschema, hrefs, Nat.le_add_left 1 _, ?_⟩ rfl rfl,
    h.rewrite ⟨hid, hqueue, Nat.le_add_left 1 _, hmax, hschema, hrefs, Nat.le_add_left 1 _, ?_⟩
      rfl rfl⟩
  · exact iff_of_true hcancelled rfl
  · exact iff_of_true hdead rfl
  · exact iff_of_false hqueued (by simp [JobRecord.requeueOnRestart])

theorem Mirrors.recoverJob (h : Mirrors u r s) (hjob : job ∈ s.jobs.rows) (ids : AttemptIds)
    (now : Timestamp) :
    MirroredBody u (RowStore.recoverJob stableHash ids now job r)
      (recoverJob stableHash ids now job s) := by
  obtain ⟨hcancelled, hexhausted, hrequeued⟩ := (h.accepted.jobs job hjob).restart now
  apply (h.supersedeCurrent job now).bind
  intro r₁ s₁ hs₁ h₁
  have hjob₁ : job ∈ s₁.jobs.rows := by
    obtain ⟨a, _, rfl⟩ := supersedeCurrent_ok hs₁
    rwa [Store.closeAttempt_jobs]
  split_ifs
  · exact .ok ⟨rfl, h₁.updateJob hjob₁ _ rfl rfl hcancelled⟩
  · exact .ok ⟨rfl, h₁.updateJob hjob₁ _ rfl rfl hexhausted⟩
  · apply (h₁.addAttempt hdigest hjob₁ (job.requeueOnRestart now) rfl rfl hrequeued ids now).bind
    rintro ⟨created, r₂⟩ ⟨created', s₂⟩ _ ⟨hsame, h₂⟩
    obtain rfl : created = created' := hsame
    exact .ok ⟨rfl, h₂⟩

/-- The loop of a restart over rows that are still stored. -/
theorem Mirrors.recoverLoop (h : Mirrors u r s) (fresh : String → AttemptIds) (now : Timestamp)
    {jobs : List JobRecord} (hnodup : (jobs.map JobRecord.jobId).Nodup)
    (hstored : ∀ job ∈ jobs, s.jobs.find? job.jobId = some job ∧ ¬ job.status.Terminal) :
    MirroredBody u (RowStore.recoverLoop stableHash fresh now (jobs.map JobRow.new) r)
      (recoverLoop stableHash fresh now jobs s) := by
  induction jobs generalizing r s with
  | nil => exact .ok ⟨rfl, h⟩
  | cons job rest ih =>
    rw [List.map_cons, List.nodup_cons] at hnodup
    have hjob := Table.find?_mem (hstored job List.mem_cons_self).1
    have hload : load JobRecord.Accepted (JobRow.new job).jobJson = .ok job :=
      load_of_accepted (h.accepted.jobs job hjob)
    rw [List.map_cons, RowStore.recoverLoop, ControlPlane.recoverLoop, hload, except_bind_ok]
    apply (h.recoverJob hdigest hjob (fresh job.jobId) now).bind
    rintro ⟨created, r₁⟩ ⟨created', s₁⟩ hs₁ ⟨hsame, h₁⟩
    obtain rfl : created = created' := hsame
    have hrest := rest_of_recoverJob stableHash hs₁ hnodup.1
      fun other hother => hstored other (List.mem_cons_of_mem _ hother)
    apply (ih h₁ hnodup.2 hrest).bind
    rintro ⟨recovered, r₂⟩ ⟨recovered', s₂⟩ _ ⟨hsame, h₂⟩
    obtain rfl : recovered = recovered' := hsame
    exact .ok ⟨rfl, h₂⟩

omit hdigest in
theorem Mirrors.incompleteJobs (h : Mirrors u r s) :
    r.incompleteJobs = s.incompleteJobs.map JobRow.new := by
  have hsort := List.map_insertionSort (fun a b : JobRecord => a.createdAt ≤ b.createdAt)
    (fun a b : JobRow => a.createdAt ≤ b.createdAt) JobRow.new
    (s.jobs.rows.filter fun j => ¬ j.status.Terminal) fun _ _ _ _ => Iff.rfl
  rw [RowStore.incompleteJobs, Store.incompleteJobs, h.jobs.filter]
  exact hsort.symm

theorem Mirrors.recoverIncompleteJobs (h : Mirrors u r s) (fresh : String → AttemptIds)
    (now : Timestamp) :
    Mirrored u (RowStore.recoverIncompleteJobs stableHash fresh now r)
      (recoverIncompleteJobs stableHash fresh now s) := by
  apply h.transact
  rw [h.incompleteJobs]
  exact h.recoverLoop hdigest fresh now (nodup_incompleteJobs s) (incompleteJobs_current s)

/-- The rows of a call of an operation on jobs and attempts mirror its records. -/
theorem Mirrors.perform (h : Mirrors u r s) (c : StoreCall) :
    Mirrors u (r.perform stableHash c) (s.perform stableHash c) := by
  obtain ⟨op, now⟩ := c
  cases op with
  | createJob sub ids => exact (h.createJob hdigest sub ids now).2
  | transitionJob jobId target errorCode rev => exact (h.transitionJob _ _ _ _ _).2
  | transitionAttempt attemptId token target worker celery =>
    exact (h.transitionAttempt _ _ _ _ _ _).2
  | heartbeatAttempt attemptId token => exact (h.heartbeatAttempt _ _ _).2
  | completeAttempt attemptId token status errorCode refs =>
    exact (h.completeAttempt _ _ _ _ _ _).2
  | createRetryAttempt jobId ids => exact (h.createRetryAttempt hdigest _ _ _).2
  | createManualRetry jobId manualHex ids => exact (h.createManualRetry hdigest _ _ _ _).2
  | recoverIncompleteJobs fresh => exact (h.recoverIncompleteJobs hdigest _ _).2
  | requestCancel jobId => exact (h.requestCancel _ _).2
  | markOutboxConsumedLocal eventId => exact (h.markOutboxConsumedLocal _ _).2

omit hdigest in
theorem Mirrors.claimableOutbox (h : Mirrors u r s) (batchSize : ℤ) (now : Timestamp) :
    r.claimableOutbox batchSize now = (s.claimableOutbox batchSize now).map OutboxRow.new := by
  have hsort := List.map_insertionSort (fun a b : OutboxEvent => a.createdAt ≤ b.createdAt)
    (fun a b : OutboxRow => a.createdAt ≤ b.createdAt) OutboxRow.new
    (s.outbox.rows.filter fun e => e.Claimable now) fun _ _ _ _ => Iff.rfl
  have hlimited : ∀ events : List OutboxEvent,
      limited batchSize (events.map OutboxRow.new) =
        (limited batchSize events).map OutboxRow.new := by
    intro events
    unfold limited
    split_ifs
    · rfl
    · rw [List.map_take]
  rw [RowStore.claimableOutbox, Store.claimableOutbox, h.outbox.filter, ← hlimited]
  exact congrArg (limited batchSize) hsort.symm

omit hdigest in
variable (stableHash) in
/-- The loop of a claim over events that are still stored. -/
theorem Mirrors.claimLoop (h : Mirrors u r s) (dispatcherId : String) (tokens : String → String)
    (leaseUntil now : Timestamp) {events : List OutboxEvent}
    (hnodup : (events.map OutboxEvent.outboxEventId).Nodup)
    (hstored : ∀ event ∈ events, event ∈ s.outbox.rows) :
    MirroredBody u
      (RowStore.claimLoop stableHash dispatcherId tokens leaseUntil now
        (events.map OutboxRow.new) r)
      (.ok (claimLoop stableHash dispatcherId tokens leaseUntil now events s)) := by
  induction events generalizing r s with
  | nil => exact .ok ⟨rfl, h⟩
  | cons event rest ih =>
    rw [List.map_cons, List.nodup_cons] at hnodup
    have hmem := hstored event List.mem_cons_self
    have haccepted := h.accepted.outbox event hmem
    let updated := event.claim stableHash dispatcherId (tokens event.outboxEventId) leaseUntil now
    have hupdated : updated.Accepted := ⟨haccepted.attemptNumber, haccepted.taskSchemaVersion,
      haccepted.requestHash, haccepted.messageDeduplicationKey⟩
    have hload : load OutboxEvent.Accepted (OutboxRow.new event).outboxJson = .ok event :=
      load_of_accepted haccepted
    have hnext := h.updateOutbox (Table.find?_of_mem hmem) updated rfl
      (OutboxRow.claim updated leaseUntil now) (fun _ => rfl) rfl hupdated
    have hrest := rest_of_updateOutbox updated hnodup.1
      fun other hother => hstored other (List.mem_cons_of_mem _ hother)
    have htail := ih hnext hnodup.2 hrest
    have hloaded : load OutboxEvent.Accepted (event.claim stableHash dispatcherId
        (tokens event.outboxEventId) leaseUntil now) = .ok updated := load_of_accepted hupdated
    simp only [List.map_cons, RowStore.claimLoop, hload, hloaded, except_bind_ok]
    generalize RowStore.claimLoop stableHash dispatcherId tokens leaseUntil now
      (rest.map OutboxRow.new) (r.updateOutbox event.outboxEventId
        (OutboxRow.claim updated leaseUntil now) fun _ => rfl) = body at htail ⊢
    cases htail with
    | ok hab =>
      obtain ⟨hsame, h₁⟩ := hab
      exact .ok ⟨congrArg (List.cons _) hsame, h₁⟩

omit hdigest in
theorem Mirrors.claimOutbox (h : Mirrors u r s) (dispatcherId : String)
    (batchSize leaseSeconds : ℤ) (tokens : String → String) (now : Timestamp) :
    Mirrors u (RowStore.claimOutbox stableHash dispatcherId batchSize leaseSeconds tokens now r).2
      (claimOutbox stableHash dispatcherId batchSize leaseSeconds tokens now s).2 := by
  have hbody := h.claimLoop stableHash dispatcherId tokens (now.after leaseSeconds)
    now (nodup_claimableOutbox s batchSize now) fun e he => (mem_claimableOutbox he).1
  rw [← h.claimableOutbox] at hbody
  exact (h.transact hbody).2

omit hdigest in
theorem Mirrors.markOutboxPublished (h : Mirrors u r s) (eventId claimToken messageId : String)
    (now : Timestamp) :
    Mirrored u (RowStore.markOutboxPublished stableHash eventId claimToken messageId now r)
      (markOutboxPublished stableHash eventId claimToken messageId now s) := by
  apply h.transact
  rw [h.readOutbox]
  apply Agree.bind_same
  intro event hevent
  have hfind := orError_eq_ok_iff.mp hevent
  have haccepted := h.accepted.outbox event (Table.find?_mem hfind)
  have hupdated : (event.publish messageId now).Accepted := ⟨haccepted.attemptNumber,
    haccepted.taskSchemaVersion, haccepted.requestHash, haccepted.messageDeduplicationKey⟩
  apply Agree.bind_same
  intro _ _
  apply Agree.bind_same
  intro _ _
  rw [load_of_accepted hupdated, except_bind_ok]
  exact .ok ⟨rfl, h.updateOutbox hfind (event.publish messageId now) rfl (OutboxRow.publish _ now)
    (fun _ => rfl) rfl hupdated⟩

omit hdigest in
theorem Mirrors.markOutboxPublishFailed (h : Mirrors u r s)
    (eventId claimToken errorCode : String) (retrySeconds : ℤ) (now : Timestamp) :
    Mirrored u
      (RowStore.markOutboxPublishFailed stableHash eventId claimToken errorCode retrySeconds now r)
      (markOutboxPublishFailed stableHash eventId claimToken errorCode retrySeconds now s) := by
  apply h.transact
  rw [h.readOutbox]
  apply Agree.bind_same
  intro event hevent
  have hfind := orError_eq_ok_iff.mp hevent
  have haccepted := h.accepted.outbox event (Table.find?_mem hfind)
  apply Agree.bind_same
  intro _ _
  apply Agree.ok
  refine ⟨rfl, h.updateOutbox hfind (event.retryLater errorCode retrySeconds now) rfl
    (OutboxRow.retryLater _ errorCode now) (fun _ => rfl) rfl ?_⟩
  exact ⟨haccepted.attemptNumber, haccepted.taskSchemaVersion, haccepted.requestHash,
    haccepted.messageDeduplicationKey⟩

end Operations

def ArtifactsMirror (r : RowStore) : Prop :=
  ∀ row ∈ r.artifacts.rows, row = .new row.artifactJson ∧ ArtifactAccepted row.artifactJson

/-- The checks of `save_artifact` let the artifact through. -/
def RowStore.Admits (r : RowStore) (artifact : ArtifactRecord) : Prop :=
  ¬ RowStore.storageKeyTaken artifact r ∧
    match r.artifacts.find? artifact.artifactId with
    | some row => artifact.status ∈ artifactTransitions row.artifactJson.status
    | none => artifact.status = .staging

def RowStore.KeepsScope (r : RowStore) (artifact : ArtifactRecord) : Prop :=
  ArtifactAccepted artifact ∧ ∀ row ∈ r.artifacts.find? artifact.artifactId,
    artifact.workspaceId = row.artifactJson.workspaceId ∧
      artifact.projectId = row.artifactJson.projectId

section Artifacts

variable {r : RowStore} {artifact : ArtifactRecord}

theorem artifactsMirror_insert (h : ArtifactsMirror r)
    {artifacts : Table ArtifactRow.artifactId}
    (hins : r.artifacts.insert (.new artifact) = some artifacts) :
    ArtifactsMirror { r with artifacts } ↔ ArtifactAccepted artifact := by
  constructor
  · intro hmirror
    exact (hmirror (.new artifact) ((Table.mem_insert hins _).mpr (.inr rfl))).2
  · intro haccepted row hrow
    rcases (Table.mem_insert hins row).mp hrow with hold | rfl
    · exact h row hold
    · exact ⟨rfl, haccepted⟩

/-- An update keeps the row in step with its record only within its workspace and project. -/
theorem artifactsMirror_update (h : ArtifactsMirror r) {row : ArtifactRow}
    (hrow : r.artifacts.find? artifact.artifactId = some row) :
    ArtifactsMirror { r with
      artifacts := r.artifacts.updateWhere (fun row => row.artifactId = artifact.artifactId)
        (ArtifactRow.update artifact) (fun _ => rfl) } ↔
      ArtifactAccepted artifact ∧ artifact.workspaceId = row.artifactJson.workspaceId ∧
        artifact.projectId = row.artifactJson.projectId := by
  have hid := Table.find?_key hrow
  have hmem := Table.find?_mem hrow
  have hsame := (h row hmem).1
  have hworkspace : row.workspaceId = row.artifactJson.workspaceId :=
    congrArg ArtifactRow.workspaceId hsame
  have hproject : row.projectId = row.artifactJson.projectId :=
    congrArg ArtifactRow.projectId hsame
  constructor
  · intro hmirror
    have hnew := hmirror (row.update artifact)
      ((Table.mem_updateWhere _ _ (ArtifactRow.update artifact) (fun _ => rfl) _).mpr
        ⟨row, hmem, if_pos (by simpa using hid)⟩)
    obtain ⟨hcolumns, haccepted⟩ := hnew
    refine ⟨haccepted, ?_, ?_⟩
    · exact (congrArg ArtifactRow.workspaceId hcolumns).symm.trans hworkspace
    · exact (congrArg ArtifactRow.projectId hcolumns).symm.trans hproject
  · rintro ⟨haccepted, hworkspace', hproject'⟩ x hx
    obtain ⟨old, hold, rfl⟩ :=
      (Table.mem_updateWhere _ _ (ArtifactRow.update artifact) (fun _ => rfl) _).mp hx
    by_cases hk : old.artifactId = artifact.artifactId
    · have hrowold : old = row := r.artifacts.eq_of_key_eq hold hmem (hk.trans hid.symm)
      simp only [hk, decide_true, if_true]
      refine ⟨?_, haccepted⟩
      rw [hrowold, ArtifactRow.update, ArtifactRow.new, ArtifactRow.mk.injEq]
      exact ⟨hid, hworkspace.trans hworkspace'.symm, hproject.trans hproject'.symm, rfl, rfl, rfl,
        rfl⟩
    · simp only [hk, decide_false, Bool.false_eq_true, if_false]
      exact h old hold

/-- `save_artifact` keeps the artifact rows in step exactly when the artifact it lets
through keeps its scope. -/
theorem artifactsMirror_saveArtifact (h : ArtifactsMirror r) (artifact : ArtifactRecord) :
    ArtifactsMirror (RowStore.saveArtifact artifact r).2 ↔
      (r.Admits artifact → r.KeepsScope artifact) := by
  unfold RowStore.saveArtifact RowStore.Admits RowStore.KeepsScope
  cases hrow : r.artifacts.find? artifact.artifactId with
  | none =>
    have hfresh := (r.artifacts.find?_eq_none_iff).mp hrow
    obtain ⟨artifacts, hins⟩ := Table.exists_insert (r := ArtifactRow.new artifact) hfresh
    by_cases hstaging : artifact.status = .staging
    · by_cases htaken : RowStore.storageKeyTaken artifact r
      · simp [ensure, hstaging, htaken, transact, h]
      · have hkept := artifactsMirror_insert h hins
        simpa [ensure, hstaging, htaken, hins, transact] using hkept
    · simp [ensure, hstaging, transact, h]
  | some row =>
    have hload : load ArtifactAccepted row.artifactJson = .ok row.artifactJson :=
      load_of_accepted (h row (Table.find?_mem hrow)).2
    by_cases hstatus : artifact.status ∈ artifactTransitions row.artifactJson.status
    · by_cases htaken : RowStore.storageKeyTaken artifact r
      · simp [ensure, hload, hstatus, htaken, transact, h]
      · have hkept := artifactsMirror_update h hrow
        simpa [ensure, hload, hstatus, htaken, transact] using hkept
    · simp [ensure, hload, hstatus, transact, h]

/-- `save_artifact` writes the artifact rows only. -/
theorem saveArtifact_frame (artifact : ArtifactRecord) (r : RowStore) :
    ∃ artifacts, (RowStore.saveArtifact artifact r).2 = { r with artifacts } := by
  unfold RowStore.saveArtifact
  split
  · rename_i row _
    by_cases hload : ArtifactAccepted row.artifactJson
    · by_cases hstatus : artifact.status ∈ artifactTransitions row.artifactJson.status
      · by_cases htaken : RowStore.storageKeyTaken artifact r
        · exact ⟨r.artifacts, by simp [load, hload, ensure, hstatus, htaken, transact]⟩
        · exact ⟨_, by simp [load, hload, ensure, hstatus, htaken, transact]; rfl⟩
      · exact ⟨r.artifacts, by simp [load, hload, ensure, hstatus, transact]⟩
    · exact ⟨r.artifacts, by simp [load, hload, transact]⟩
  · by_cases hstaging : artifact.status = .staging
    · by_cases htaken : RowStore.storageKeyTaken artifact r
      · exact ⟨r.artifacts, by simp [ensure, hstaging, htaken, transact]⟩
      · cases hins : r.artifacts.insert (.new artifact) with
        | none => exact ⟨r.artifacts, by simp [ensure, hstaging, htaken, transact]⟩
        | some artifacts => exact ⟨artifacts, by simp [ensure, hstaging, htaken, transact]⟩
    · exact ⟨r.artifacts, by simp [ensure, hstaging, transact]⟩

end Artifacts

/-- What a call does to a store of records; artifacts are not part of it. -/
def Store.step (stableHash : String → String) (s : Store) : RowCall → Store
  | .call c => s.perform stableHash c
  | .claimOutbox dispatcherId batchSize leaseSeconds tokens now =>
    (claimOutbox stableHash dispatcherId batchSize leaseSeconds tokens now s).2
  | .markOutboxPublished eventId claimToken messageId now =>
    (markOutboxPublished stableHash eventId claimToken messageId now s).2
  | .markOutboxPublishFailed eventId claimToken errorCode retrySeconds now =>
    (markOutboxPublishFailed stableHash eventId claimToken errorCode retrySeconds now s).2
  | .saveArtifact _ => s

/-- A call acts on rows as it does on records; only `save_artifact` changes the artifacts. -/
theorem Mirrors.step (hdigest : ∀ text, IsDigest (stableHash text)) {r : RowStore} {s : Store}
    (h : Mirrors r.artifacts r s) (c : RowCall) :
    Mirrors (r.step stableHash c).artifacts (r.step stableHash c) (s.step stableHash c) ∧
      ((∀ artifact, c ≠ .saveArtifact artifact) →
        (r.step stableHash c).artifacts = r.artifacts) := by
  have hkept : ∀ {r' s'}, Mirrors r.artifacts r' s' → Mirrors r'.artifacts r' s' ∧
      ((∀ artifact, c ≠ .saveArtifact artifact) → r'.artifacts = r.artifacts) := by
    intro r' s' h'
    exact ⟨h'.artifacts ▸ h', fun _ => h'.artifacts⟩
  cases c with
  | call c => exact hkept (h.perform hdigest c)
  | claimOutbox dispatcherId batchSize leaseSeconds tokens now =>
    exact hkept (h.claimOutbox dispatcherId batchSize leaseSeconds tokens now)
  | markOutboxPublished eventId claimToken messageId now =>
    exact hkept (h.markOutboxPublished eventId claimToken messageId now).2
  | markOutboxPublishFailed eventId claimToken errorCode retrySeconds now =>
    exact hkept (h.markOutboxPublishFailed eventId claimToken errorCode retrySeconds now).2
  | saveArtifact artifact =>
    obtain ⟨artifacts, hframe⟩ := saveArtifact_frame artifact r
    rw [RowStore.step, hframe]
    exact ⟨⟨h.jobs, h.attempts, h.outbox, h.requests, h.domainRuns, h.auditEvents, rfl,
      h.accepted⟩, fun hother => absurd rfl (hother artifact)⟩

namespace RowStore

/-- Every row carries in its columns what its record says, and every stored record is
accepted by its model. -/
structure ColumnsMirror (r : RowStore) : Prop where
  jobs : ∀ row ∈ r.jobs.rows, row = .new row.jobJson ∧ row.jobJson.Accepted
  attempts : ∀ row ∈ r.attempts.rows, row = .new row.attemptJson ∧ row.attemptJson.Accepted
  outbox : ∀ row ∈ r.outbox.rows, row = .new row.outboxJson ∧ row.outboxJson.Accepted
  artifacts : ArtifactsMirror r

/-- The jobs, attempts and outbox events are those of some store of accepted records. -/
def MirrorsSome (r : RowStore) : Prop := ∃ s, Mirrors r.artifacts r s

theorem MirrorsSome.mirror_iff_artifacts {r : RowStore} (h : r.MirrorsSome) :
    r.ColumnsMirror ↔ ArtifactsMirror r := by
  constructor
  · exact ColumnsMirror.artifacts
  · intro hartifacts
    obtain ⟨s, h⟩ := h
    constructor
    · intro row hrow
      obtain ⟨j, hj, rfl⟩ := h.jobs.mem_iff.mp hrow
      exact ⟨rfl, h.accepted.jobs j hj⟩
    · intro row hrow
      obtain ⟨a, ha, rfl⟩ := h.attempts.mem_iff.mp hrow
      exact ⟨rfl, h.accepted.attempts a ha⟩
    · intro row hrow
      obtain ⟨e, he, rfl⟩ := h.outbox.mem_iff.mp hrow
      exact ⟨rfl, h.accepted.outbox e he⟩
    · exact hartifacts

/-- A record that `save_artifact` lets through is accepted by its model and keeps the
workspace and the project of its row; the other operations have no such duty. -/
def KeepsScopeOn (r : RowStore) : RowCall → Prop
  | .saveArtifact artifact => r.Admits artifact → r.KeepsScope artifact
  | _ => True

section Runs

variable (hdigest : ∀ text, IsDigest (stableHash text))
variable {r : RowStore}

include hdigest

theorem MirrorsSome.step (h : r.MirrorsSome) (c : RowCall) :
    (r.step stableHash c).MirrorsSome :=
  let ⟨_, h⟩ := h
  ⟨_, (h.step hdigest c).1⟩

/-- The operations other than `save_artifact` leave the artifact rows alone. -/
theorem artifactsMirror_step (h : r.MirrorsSome) (hartifacts : ArtifactsMirror r) (c : RowCall) :
    ArtifactsMirror (r.step stableHash c) ↔ r.KeepsScopeOn c := by
  obtain ⟨s, h⟩ := h
  have hframe := (h.step hdigest c).2
  cases c with
  | saveArtifact artifact => exact artifactsMirror_saveArtifact hartifacts artifact
  | _ =>
    apply iff_true_intro
    rw [ArtifactsMirror, hframe nofun]
    exact hartifacts

omit hdigest in
theorem MirrorsSome.empty : RowStore.empty.MirrorsSome := ⟨.empty, Mirrors.empty⟩

end Runs

/-- The tables after the calls, where the digests are those of `hash`. -/
def after (hash : String → {text // IsDigest text}) (calls : List RowCall) : RowStore :=
  calls.foldl (step fun text => (hash text).val) .empty

/-- Along a run of any operations in any order, the columns mirror the records exactly
when every artifact that `save_artifact` lets through is accepted by its model and stays
in its workspace and project. -/
theorem columnsMirror_iff (hash : String → {text // IsDigest text}) (calls : List RowCall) :
    (∀ before rest, calls = before ++ rest → (after hash before).ColumnsMirror) ↔
      ∀ before c rest, calls = before ++ c :: rest → (after hash before).KeepsScopeOn c := by
  have hdigest : ∀ text, IsDigest (hash text).val := fun text => (hash text).property
  apply Machine.forall_prefix_iff _ MirrorsSome ColumnsMirror
  · intro r c h
    exact h.step hdigest c
  · intro r c h hmirror
    rw [(h.step hdigest c).mirror_iff_artifacts]
    exact artifactsMirror_step hdigest h hmirror.artifacts c
  · exact .empty
  · rw [MirrorsSome.empty.mirror_iff_artifacts]
    simp [ArtifactsMirror, RowStore.empty]

/-- The tables of rows refine the store of records: after any calls in any order, each job,
attempt and outbox row is the one that its record writes. -/
theorem rows_refine_records (hash : String → {text // IsDigest text}) (calls : List RowCall) :
    Mirrors (after hash calls).artifacts (after hash calls)
      (calls.foldl (Store.step fun text => (hash text).val) .empty) := by
  have hrun : ∀ r s, Mirrors r.artifacts r s →
      let r' := calls.foldl (step fun text => (hash text).val) r
      Mirrors r'.artifacts r' (calls.foldl (Store.step fun text => (hash text).val) s) := by
    induction calls with
    | nil => exact fun _ _ h => h
    | cons c calls ih =>
      exact fun r s h => ih _ _ (h.step (fun text => (hash text).property) c).1
  exact hrun _ _ Mirrors.empty

/-! An upload to a project whose id holds a blank. -/

def zeros : {text // IsDigest text} :=
  ⟨String.ofList (List.replicate 64 '0'), rfl, by simp⟩

def uploaded : ArtifactRecord where
  artifactId := "artifact_1"
  workspaceId := "ws"
  projectId := "my project"
  kind := .repositoryZip
  status := .staging
  storageKey := "staging/artifact_1-1"
  contentHash := zeros.val
  sizeBytes := 1
  mediaType := "application/zip"
  errorCode := none
  createdAt := 0
  updatedAt := 0

/-- The upload's four saves; the last record is a copy under its final storage key. -/
def upload : List RowCall :=
  [.saveArtifact uploaded, .saveArtifact (uploaded.moveTo .quarantined 0),
    .saveArtifact (uploaded.moveTo .validating 0),
    .saveArtifact { uploaded.moveTo .available 0 with
      storageKey := "ws/my project/artifact_1.zip" }]

theorem upload_unmirrored : ¬ ∀ hash calls, (after hash calls).ColumnsMirror := by
  intro h
  have hrow := (h (fun _ => zeros) upload).artifacts
  revert hrow
  unfold ArtifactsMirror
  decide +kernel

end RowStore

end CodeResearch.ControlPlane
