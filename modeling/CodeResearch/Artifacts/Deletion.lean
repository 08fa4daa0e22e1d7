import CodeResearch.Artifacts.Store

/-!
# Deleting an artifact

The handler marks the record, removes the blob and marks the record again. An
interruption between its calls is a call that raises: there is no clean-up, so the
world is the one that the calls before left. A second run refuses a record that is
marked but not deleted.
-/
namespace CodeResearch.Artifacts

/-- The calls of the handler, in the order of its text. -/
inductive DeleteSite
  | checkpointEntry | getRecord | verifyRecord | readBlob | checkpointRead | checkpointVerified
  | saveRequested | removeBlob | saveDeleted
  deriving DecidableEq

/-- What the handler reads of its job. -/
structure JobScope where
  workspaceId : String
  projectId : Option String
  deriving DecidableEq

def JobScope.Holds (job : JobScope) (record : ArtifactRecord) : Prop :=
  record.workspaceId = job.workspaceId ∧ record.projectId = job.projectId.getD ""

instance (job : JobScope) (record : ArtifactRecord) : Decidable (job.Holds record) :=
  inferInstanceAs (Decidable (_ ∧ _))

section Handler

variable (cfg : StoreConfig) (env : Env DeleteSite) (job : JobScope)

def raiseUnless (c : Prop) [Decidable c] (code : String) : Exec Exc World Unit :=
  if c then pure () else throw (.controlPlane code)

/-- `_scoped_artifact`, and the first two checks of `_verify`. -/
def scopedArtifact (site : DeleteSite) (artifactId : String) : Exec Exc World ArtifactRecord := do
  let record ← env.step site (getArtifact artifactId)
  raiseUnless (job.Holds record) "artifact_not_found"
  return record

def readBlob (storageKey : String) : Exec Exc World Bytes :=
  Exec.handle
    (do
      let path ← resolvePath cfg storageKey
      let content ← env.step .readBlob <| Exec.prim fun w =>
        match w.files path with
        | some b => (.ok b, w)
        | none => (.error .os, w)
      env.check .checkpointRead
      return content)
    fun e => match e with
      | .artifactSecurity _ => throw (.controlPlane "artifact_not_available")
      | .os => throw (.controlPlane "artifact_not_available")
      | e => throw e

/-- What a job expects of an artifact. -/
structure ArtifactExecutionRef where
  artifactId : String
  expectedContentHash : String
  expectedKind : ArtifactKind

/-- `LocalArtifactResolver.verify`. -/
def verify (reference : ArtifactExecutionRef) : Exec Exc World ArtifactRecord := do
  let record ← scopedArtifact env job .verifyRecord reference.artifactId
  raiseUnless (record.status = .available) "artifact_not_available"
  raiseUnless (record.kind = reference.expectedKind) "artifact_kind_mismatch"
  raiseUnless (record.contentHash = reference.expectedContentHash) "artifact_hash_mismatch"
  let content ← readBlob cfg env record.storageKey
  raiseUnless (cfg.sha256 content = record.contentHash ∧ content.length = record.sizeBytes)
    "artifact_hash_mismatch"
  return record

def removeArtifact (record : ArtifactRecord) : Exec Exc World Unit := do
  let requested := record.moveTo .deletionRequested (env.clock .saveRequested)
  env.step .saveRequested (saveArtifact requested)
  env.step .removeBlob (deleteBlob cfg record.storageKey)
  env.step .saveDeleted (saveArtifact (requested.moveTo .deleted (env.clock .saveDeleted)))

/-- `build_delete_handler`. -/
def deleteArtifact (artifactId : String) : Exec Exc World (List String) := do
  env.check .checkpointEntry
  let record ← scopedArtifact env job .getRecord artifactId
  if record.status = .deleted then return []
  else
    raiseUnless (record.status = .available) "artifact_not_deletable"
    let _ ← verify cfg env job ⟨record.artifactId, record.contentHash, record.kind⟩
    env.check .checkpointVerified
    removeArtifact cfg env record
    return []

end Handler

/-- An artifact that can be read and deleted. -/
structure Intact (cfg : StoreConfig) (job : JobScope) (w : World) (record : ArtifactRecord) :
    Prop where
  found : w.records.find? record.artifactId = some record
  scope : job.Holds record
  available : record.status = .available
  blob : ∃ p b, cfg.resolve record.storageKey = .ok p ∧ w.files p = some b ∧
    cfg.sha256 b = record.contentHash ∧ b.length = record.sizeBytes
  unique : ¬ w.KeyTaken record

def Torn (job : JobScope) (record : ArtifactRecord) (w : World) : Prop :=
  ∃ r, w.records.find? record.artifactId = some r ∧ job.Holds r ∧ r.status = .deletionRequested

def Deleted (cfg : StoreConfig) (job : JobScope) (record : ArtifactRecord) (w : World) : Prop :=
  ∃ r, w.records.find? record.artifactId = some r ∧ job.Holds r ∧ r.status = .deleted ∧
    w.blobAt cfg r.storageKey = none

/-- The artifact is read. -/
structure Env.Verifies (env : Env DeleteSite) : Prop where
  verifyRecord : env.fault .verifyRecord = none
  readBlob : env.fault .readBlob = none
  checkpointRead : env.fault .checkpointRead = none

/-- The handler gets as far as the first mark of the record. -/
structure Env.Marks (env : Env DeleteSite) : Prop where
  checkpointEntry : env.fault .checkpointEntry = none
  getRecord : env.fault .getRecord = none
  verifies : env.Verifies
  checkpointVerified : env.fault .checkpointVerified = none
  saveRequested : env.fault .saveRequested = none

def Env.Tears (env : Env DeleteSite) : Prop :=
  env.Marks ∧ (env.fault .removeBlob ≠ none ∨ env.fault .saveDeleted ≠ none)

def Env.Completes (env : Env DeleteSite) : Prop :=
  env.Marks ∧ env.fault .removeBlob = none ∧ env.fault .saveDeleted = none

section Outcome

variable {cfg : StoreConfig} {env : Env DeleteSite} {job : JobScope} {w : World}
  {record r : ArtifactRecord}

theorem raiseUnless_ends {c : Prop} [Decidable c] (hc : c) {code : String}
    {Q : Unit → World → Prop} {R : Exc → World → Prop} (h : Q () w) :
    (raiseUnless c code).Ends w Q R := by
  rw [raiseUnless, if_pos hc]
  exact Exec.ends_pure h

theorem scopedArtifact_ends {id : String} (hfound : w.records.find? id = some r)
    (hscope : job.Holds r) (site : DeleteSite) :
    (scopedArtifact env job site id).Ends w
      (fun x t => x = r ∧ t = w ∧ env.fault site = none)
      fun _ t => t = w ∧ env.fault site ≠ none := by
  apply Exec.Ends.bind (Q := fun x t => x = r ∧ t = w ∧ env.fault site = none)
  · apply Exec.ends_faulting
    · intro e hfault
      exact ⟨rfl, by simp [hfault]⟩
    · intro hfault
      exact Exec.ends_of_ok (a := r) (t := w) (by rw [getArtifact, Exec.runOn_prim, hfound])
        ⟨rfl, rfl, hfault⟩
  · rintro x t ⟨hx, ht, hfault⟩
    rw [hx, ht]
    apply (raiseUnless_ends hscope (Q := fun _ t => t = w) rfl).bind
    rintro _ t ht
    exact Exec.ends_pure ⟨rfl, ht, hfault⟩

theorem readBlob_ends {key : String} {p : Path} {b : Bytes} (hp : cfg.resolve key = .ok p)
    (hb : w.files p = some b) :
    (readBlob cfg env key).Ends w
      (fun x t => x = b ∧ t = w ∧ env.fault .readBlob = none ∧ env.fault .checkpointRead = none)
      fun _ t => t = w ∧ ¬ env.Verifies := by
  apply Exec.Ends.handle (R := fun _ t => t = w ∧ ¬ env.Verifies)
  · apply Exec.Ends.bind (Q := fun q t => q = p ∧ t = w)
    · exact Exec.ends_of_ok (runOn_resolvePath cfg hp w) ⟨rfl, rfl⟩
    rintro q t ⟨hq, ht⟩
    rw [hq, ht]
    apply Exec.Ends.bind (Q := fun x t => x = b ∧ t = w ∧ env.fault .readBlob = none)
    · apply Exec.ends_faulting
      · intro e hfault
        exact ⟨rfl, fun hall => by simp [hall.readBlob] at hfault⟩
      · intro hread
        exact Exec.ends_of_ok (a := b) (t := w) (by rw [Exec.runOn_prim, hb]) ⟨rfl, rfl, hread⟩
    rintro x t ⟨hx, ht, hread⟩
    rw [hx, ht]
    apply Exec.Ends.bind (Q := fun _ t => t = w ∧ env.fault .checkpointRead = none)
    · apply check_ends
      · intro e hfault
        exact ⟨rfl, fun hall => by simp [hall.checkpointRead] at hfault⟩
      · intro hcheck
        exact ⟨rfl, hcheck⟩
    rintro _ t ⟨ht, hcheck⟩
    exact Exec.ends_pure ⟨rfl, ht, hread, hcheck⟩
  · intro e t he
    split <;> exact Exec.ends_throw he

/-- An intact artifact is verified unless a call raises, and nothing changes. -/
theorem verify_ends (h : Intact cfg job w record) :
    (verify cfg env job ⟨record.artifactId, record.contentHash, record.kind⟩).Ends w
      (fun x t => x = record ∧ t = w ∧ env.Verifies) fun _ t => t = w ∧ ¬ env.Verifies := by
  obtain ⟨p, b, hp, hb, hhash, hsize⟩ := h.blob
  apply ((scopedArtifact_ends h.found h.scope .verifyRecord).mono (fun _ _ hq => hq) ?_).bind
  · rintro x t ⟨hx, ht, hrecord⟩
    rw [hx, ht]
    apply (raiseUnless_ends h.available (Q := fun _ t => t = w) rfl).bind
    rintro _ t ht
    rw [ht]
    apply (raiseUnless_ends rfl (Q := fun _ t => t = w) rfl).bind
    rintro _ t ht
    rw [ht]
    apply (raiseUnless_ends rfl (Q := fun _ t => t = w) rfl).bind
    rintro _ t ht
    rw [ht]
    apply (readBlob_ends hp hb).bind
    rintro x t ⟨hx, ht, hread, hcheck⟩
    rw [hx, ht]
    apply (raiseUnless_ends ⟨hhash, hsize⟩ (Q := fun _ t => t = w) rfl).bind
    rintro _ t ht
    exact Exec.ends_pure ⟨rfl, ht, hrecord, hread, hcheck⟩
  · rintro e t ⟨ht, hfault⟩
    exact ⟨ht, fun hall => hfault hall.verifyRecord⟩

theorem torn_put (hscope : job.Holds record) (now : Timestamp) :
    Torn job record (w.put (record.moveTo .deletionRequested now)) :=
  ⟨record.moveTo .deletionRequested now, put_find? _ _, hscope, rfl⟩

/-- Between its two marks of the record the handler leaves it torn. -/
theorem removeArtifact_ends (h : Intact cfg job w record) :
    (removeArtifact cfg env record).Ends w
      (fun _ t => Deleted cfg job record t ∧ env.fault .saveRequested = none ∧
        env.fault .removeBlob = none ∧ env.fault .saveDeleted = none)
      fun _ t => (t = w ∧ env.fault .saveRequested ≠ none) ∨
        Torn job record t ∧ env.fault .saveRequested = none ∧
          (env.fault .removeBlob ≠ none ∨ env.fault .saveDeleted ≠ none) := by
  obtain ⟨p, b, hp, hb, _⟩ := h.blob
  apply Exec.Ends.bind (Q := fun _ t =>
    t = w.put (record.moveTo .deletionRequested (env.clock .saveRequested)) ∧
      env.fault .saveRequested = none)
  · apply Exec.ends_faulting
    · intro e hfault
      exact .inl ⟨rfl, by simp [hfault]⟩
    · intro hsave
      refine Exec.ends_of_ok (saveArtifact_next h.found ?_ h.unique) ⟨rfl, hsave⟩
      rw [h.available]
      exact List.mem_cons_self
  rintro _ t ⟨ht, hrequested⟩
  rw [ht]
  apply Exec.Ends.bind (Q := fun _ t =>
    t = (w.put (record.moveTo .deletionRequested (env.clock .saveRequested))).remove p ∧
      env.fault .removeBlob = none)
  · apply Exec.ends_faulting
    · intro e hfault
      exact .inr ⟨torn_put h.scope _, hrequested, .inl (by simp [hfault])⟩
    · intro hremove
      exact Exec.ends_of_ok (runOn_deleteBlob cfg hp _) ⟨rfl, hremove⟩
  rintro _ t ⟨ht, hremove⟩
  rw [ht]
  apply Exec.ends_faulting
  · intro e hfault
    exact .inr ⟨torn_put (w := w.remove p) h.scope _, hrequested, .inr (by simp [hfault])⟩
  · intro hdeleted
    have hfound : ((w.put (record.moveTo .deletionRequested (env.clock .saveRequested))).remove
        p).records.find? record.artifactId =
          some (record.moveTo .deletionRequested (env.clock .saveRequested)) :=
      put_find? w (record.moveTo .deletionRequested (env.clock .saveRequested))
    have hfree : ¬ ((w.put (record.moveTo .deletionRequested (env.clock .saveRequested))).remove
        p).KeyTaken ((record.moveTo .deletionRequested (env.clock .saveRequested)).moveTo .deleted
          (env.clock .saveDeleted)) :=
      fun htaken => h.unique (keyTaken_put (w := w) (r := record.moveTo .deletionRequested
        (env.clock .saveRequested)) rfl htaken)
    refine Exec.ends_of_ok (saveArtifact_next hfound (by exact List.mem_cons_self) hfree) ?_
    refine ⟨⟨_, put_find? _ _, h.scope, rfl, ?_⟩, hrequested, hremove, hdeleted⟩
    rw [blobAt_ok cfg (by exact hp)]
    exact Files.remove_self _

/-- A run over an intact artifact deletes it, leaves it as it was, or tears it. -/
theorem deleteArtifact_intact (h : Intact cfg job w record) (env : Env DeleteSite) :
    (deleteArtifact cfg env job record.artifactId).Ends w
      (fun _ t => Deleted cfg job record t ∧ env.Completes)
      fun _ t => (t = w ∧ ¬ env.Marks) ∨ Torn job record t ∧ env.Tears := by
  apply Exec.Ends.bind (Q := fun _ t => t = w ∧ env.fault .checkpointEntry = none)
  · apply check_ends
    · intro e hfault
      exact .inl ⟨rfl, fun hall => by simp [hall.checkpointEntry] at hfault⟩
    · intro hentry
      exact ⟨rfl, hentry⟩
  rintro _ t ⟨ht, hentry⟩
  rw [ht]
  apply ((scopedArtifact_ends h.found h.scope .getRecord).mono (fun _ _ hq => hq) ?_).bind
  · rintro x t ⟨hx, ht, hget⟩
    rw [hx, ht, if_neg (by rw [h.available]; decide)]
    apply (raiseUnless_ends h.available (Q := fun _ t => t = w) rfl).bind
    rintro _ t ht
    rw [ht]
    apply ((verify_ends h).mono (fun _ _ hq => hq) ?_).bind
    · rintro x t ⟨_, ht, hverifies⟩
      rw [ht]
      apply Exec.Ends.bind (Q := fun _ t => t = w ∧ env.fault .checkpointVerified = none)
      · apply check_ends
        · intro e hfault
          exact .inl ⟨rfl, fun hall => by simp [hall.checkpointVerified] at hfault⟩
        · intro hcheck
          exact ⟨rfl, hcheck⟩
      rintro _ t ⟨ht, hcheck⟩
      rw [ht]
      apply ((removeArtifact_ends h).mono (fun _ _ hq => hq) ?_).bind
      · rintro _ t ⟨hdeleted, hrequested, hremove, hsave⟩
        exact Exec.ends_pure
          ⟨hdeleted, ⟨hentry, hget, hverifies, hcheck, hrequested⟩, hremove, hsave⟩
      · rintro e t (⟨ht, hfault⟩ | ⟨htorn, hrequested, hfault⟩)
        · exact .inl ⟨ht, fun hall => hfault hall.saveRequested⟩
        · exact .inr ⟨htorn, ⟨hentry, hget, hverifies, hcheck, hrequested⟩, hfault⟩
    · rintro e t ⟨ht, hnot⟩
      exact .inl ⟨ht, fun hall => hnot hall.verifies⟩
  · rintro e t ⟨ht, hfault⟩
    exact .inl ⟨ht, fun hall => hfault hall.getRecord⟩

/-- A run over a torn artifact is refused. -/
theorem deleteArtifact_torn (h : Torn job record w) (cfg : StoreConfig) (env : Env DeleteSite) :
    (deleteArtifact cfg env job record.artifactId).Ends w (fun _ _ => False)
      fun _ t => t = w := by
  obtain ⟨r, hfound, hscope, hstatus⟩ := h
  apply Exec.Ends.bind (Q := fun _ t => t = w)
  · exact check_ends (fun _ _ => rfl) fun _ => rfl
  rintro _ t ht
  rw [ht]
  apply ((scopedArtifact_ends hfound hscope .getRecord).mono (fun _ _ hq => hq) ?_).bind
  · rintro x t ⟨hx, ht, _⟩
    rw [hx, ht, if_neg (by rw [hstatus]; decide), raiseUnless,
      if_neg (by rw [hstatus]; decide)]
    exact Exec.ends_throw rfl
  · rintro e t ⟨ht, _⟩
    exact ht

/-- A run over a deleted artifact changes nothing, and returns if no call raises. -/
theorem deleteArtifact_deleted (h : Deleted cfg job record w) (env : Env DeleteSite) :
    (deleteArtifact cfg env job record.artifactId).Ends w (fun _ t => t = w)
      fun _ t => t = w ∧ ¬ env.Marks := by
  obtain ⟨r, hfound, hscope, hstatus, _⟩ := h
  apply Exec.Ends.bind (Q := fun _ t => t = w)
  · apply check_ends
    · intro e hfault
      exact ⟨rfl, fun hall => by simp [hall.checkpointEntry] at hfault⟩
    · exact fun _ => rfl
  rintro _ t ht
  rw [ht]
  apply ((scopedArtifact_ends hfound hscope .getRecord).mono (fun _ _ hq => hq) ?_).bind
  · rintro x t ⟨hx, ht, _⟩
    rw [hx, ht, if_pos hstatus]
    exact Exec.ends_pure rfl
  · rintro e t ⟨ht, hfault⟩
    exact ⟨ht, fun hall => hfault hall.getRecord⟩

end Outcome

/-- An intact artifact and the runs of the handler that are made over it. -/
structure Deletion (cfg : StoreConfig) where
  world : World
  job : JobScope
  record : ArtifactRecord
  intact : Intact cfg job world record
  attempts : List (Env DeleteSite)

/-- No call raises. -/
def quiet (clock : DeleteSite → Timestamp) : Env DeleteSite := ⟨fun _ => none, clock⟩

/-- A run is interrupted between the two marks, and none before it was complete. -/
def TornBy : List (Env DeleteSite) → Prop
  | [] => False
  | env :: rest => env.Tears ∨ ¬ env.Completes ∧ TornBy rest

section Runs

variable {cfg : StoreConfig} {job : JobScope} {record : ArtifactRecord} {w : World}

def afterAttempts (cfg : StoreConfig) (job : JobScope) (artifactId : String) (w : World)
    (attempts : List (Env DeleteSite)) : World :=
  attempts.foldl (fun w env => ((deleteArtifact cfg env job artifactId).runOn w).2) w

theorem afterAttempts_eq_self (attempts : List (Env DeleteSite))
    (h : ∀ env, ((deleteArtifact cfg env job record.artifactId).runOn w).2 = w) :
    afterAttempts cfg job record.artifactId w attempts = w := by
  induction attempts with
  | nil => rfl
  | cons env rest ih =>
    rw [afterAttempts, List.foldl_cons, h env]
    exact ih

theorem afterAttempts_torn (h : Torn job record w) (attempts : List (Env DeleteSite)) :
    afterAttempts cfg job record.artifactId w attempts = w := by
  apply afterAttempts_eq_self
  intro env
  rcases (deleteArtifact_torn h cfg env).final with ⟨_, hfalse⟩ | ⟨_, ht⟩
  · exact hfalse.elim
  · exact ht

theorem afterAttempts_deleted (h : Deleted cfg job record w) (attempts : List (Env DeleteSite)) :
    afterAttempts cfg job record.artifactId w attempts = w := by
  apply afterAttempts_eq_self
  intro env
  rcases (deleteArtifact_deleted h env).final with ⟨_, ht⟩ | ⟨_, ht, _⟩ <;> exact ht

/-- Runs over an intact artifact leave it intact or deleted, or torn. -/
theorem afterAttempts_cases (h : Intact cfg job w record) (attempts : List (Env DeleteSite)) :
    ((Intact cfg job (afterAttempts cfg job record.artifactId w attempts) record ∨
      Deleted cfg job record (afterAttempts cfg job record.artifactId w attempts)) ∧
        ¬ TornBy attempts) ∨
    Torn job record (afterAttempts cfg job record.artifactId w attempts) ∧ TornBy attempts := by
  induction attempts with
  | nil => exact .inl ⟨.inl h, id⟩
  | cons env rest ih =>
    rw [afterAttempts, List.foldl_cons, ← afterAttempts]
    rcases (deleteArtifact_intact h env).final with
      ⟨_, hdeleted, hcomplete⟩ | ⟨_, ⟨ht, hnot⟩ | ⟨htorn, htears⟩⟩
    · left
      rw [afterAttempts_deleted hdeleted]
      refine ⟨.inr hdeleted, ?_⟩
      rintro (⟨_, hfault | hfault⟩ | ⟨hincomplete, _⟩)
      · exact hfault hcomplete.2.1
      · exact hfault hcomplete.2.2
      · exact hincomplete hcomplete
    · -- an attempt that is interrupted before the first mark changes nothing
      rw [ht]
      have htorn : TornBy (env :: rest) ↔ TornBy rest := by
        constructor
        · rintro (htears | ⟨_, hrest⟩)
          · exact absurd htears.1 hnot
          · exact hrest
        · exact fun hrest => .inr ⟨fun hcomplete => hnot hcomplete.1, hrest⟩
      rw [htorn]
      exact ih
    · right
      rw [afterAttempts_torn htorn]
      exact ⟨htorn, .inl htears⟩

end Runs

namespace Deletion

variable {cfg : StoreConfig} (d : Deletion cfg)

def after : World := afterAttempts cfg d.job d.record.artifactId d.world d.attempts

/-- What a run of the handler without an interruption then does. -/
def rerun (clock : DeleteSite → Timestamp) : Except Exc (List String) × World :=
  (deleteArtifact cfg (quiet clock) d.job d.record.artifactId).runOn d.after

def Readable : Prop :=
  ∃ clock r, ((verify cfg (quiet clock) d.job
    ⟨d.record.artifactId, d.record.contentHash, d.record.kind⟩).runOn d.after).1 = .ok r

/-- The deletion survives its interruptions. -/
structure Survives : Prop where
  deletes : ∀ clock, ∃ refs t, d.rerun clock = (.ok refs, t) ∧ Deleted cfg d.job d.record t
  usable : d.Readable ∨ ∃ clock refs, (d.rerun clock).1 = .ok refs

theorem quiet_completes (clock : DeleteSite → Timestamp) : (quiet clock).Completes :=
  ⟨⟨rfl, rfl, ⟨rfl, rfl, rfl⟩, rfl, rfl⟩, rfl, rfl⟩

variable {d}

/-- A run without an interruption over an intact or a deleted artifact. -/
theorem rerun_deletes (h : Intact cfg d.job d.after d.record ∨ Deleted cfg d.job d.record d.after)
    (clock : DeleteSite → Timestamp) :
    ∃ refs t, d.rerun clock = (.ok refs, t) ∧ Deleted cfg d.job d.record t := by
  have hcomplete := quiet_completes clock
  have hends : (deleteArtifact cfg (quiet clock) d.job d.record.artifactId).Ends d.after
      (fun _ t => Deleted cfg d.job d.record t) fun _ _ => False := by
    rcases h with h | h
    · apply (deleteArtifact_intact h _).mono
      · rintro _ t ⟨hdeleted, _⟩
        exact hdeleted
      · rintro e t (⟨_, hnot⟩ | ⟨_, _, hfault | hfault⟩)
        · exact hnot hcomplete.1
        · exact hfault rfl
        · exact hfault rfl
    · apply (deleteArtifact_deleted h _).mono
      · rintro _ t rfl
        exact h
      · rintro e t ⟨_, hnot⟩
        exact hnot hcomplete.1
  unfold Exec.Ends at hends
  split at hends <;> rename_i hrun
  · exact ⟨_, _, hrun, hends⟩
  · exact hends.elim

theorem not_survives_of_torn (h : Torn d.job d.record d.after) : ¬ d.Survives := by
  intro hsurvives
  obtain ⟨refs, t, hrun, _⟩ := hsurvives.deletes fun _ => 0
  have hends := deleteArtifact_torn h cfg (quiet fun _ => 0)
  rw [rerun] at hrun
  rw [Exec.Ends, hrun] at hends
  exact hends

/-- A deletion survives its interruptions exactly when none falls between its two marks. -/
theorem survives_iff (d : Deletion cfg) : d.Survives ↔ ¬ TornBy d.attempts := by
  rcases afterAttempts_cases d.intact d.attempts with ⟨h, hnot⟩ | ⟨htorn, htears⟩
  · refine iff_of_true ⟨fun clock => rerun_deletes h clock, .inr ?_⟩ hnot
    obtain ⟨refs, t, hrun, _⟩ := rerun_deletes h fun _ => 0
    exact ⟨fun _ => 0, refs, by rw [hrun]⟩
  · exact iff_of_false (not_survives_of_torn htorn) (not_not_intro htears)

def sampleRecord : ArtifactRecord where
  artifactId := "artifact_1"
  workspaceId := "ws_1"
  projectId := "project_1"
  kind := .report
  status := .available
  storageKey := "ws_1/project_1/generated/artifact_1.zip"
  contentHash := sampleStore.sha256 [80, 75]
  sizeBytes := 2
  mediaType := "application/zip"
  errorCode := none
  createdAt := 1
  updatedAt := 1

def samplePath : Path :=
  ["data".toList, "ws_1".toList, "project_1".toList, "generated".toList, "artifact_1.zip".toList]

def interruptedDeletion : Deletion sampleStore where
  world := ⟨⟨[sampleRecord], by simp⟩, Files.write (fun _ => none) samplePath [80, 75]⟩
  job := ⟨"ws_1", some "project_1"⟩
  record := sampleRecord
  intact :=
    { found := by decide +kernel
      scope := by decide
      available := rfl
      blob := ⟨samplePath, [80, 75], by decide +kernel, by decide +kernel, rfl, rfl⟩
      unique := by decide +kernel }
  attempts := [⟨fun site => if site = .saveDeleted then some .other else none, fun _ => 2⟩]

/-- The record stays marked, and every later run is refused. -/
theorem not_survives_interruptedDeletion : ¬ ∀ cfg (d : Deletion cfg), d.Survives := by
  intro hall
  obtain ⟨refs, t, hrun, _⟩ := (hall _ interruptedDeletion).deletes fun _ => 3
  have hrefused : (interruptedDeletion.rerun fun _ => 3).1 =
      .error (.controlPlane "artifact_not_deletable") := by decide +kernel
  rw [hrun] at hrefused
  cases hrefused

end Deletion

end CodeResearch.Artifacts
