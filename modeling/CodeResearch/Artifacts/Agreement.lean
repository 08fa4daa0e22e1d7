import CodeResearch.Artifacts.UploadSpec

/-!
# Blob and record agree unless a record is not saved

The clean-up of a publication knows the staging key only, and the record that it
closes still has this key. So a failure between the move of the blob and the write of
its available record leaves the blob where neither the record nor the maintenance job
finds it. An upload leaves its staged blob behind if one of its first records is not
saved. All other exits are clean.
-/
namespace CodeResearch.Artifacts

/-- The statuses of `list_artifacts_for_maintenance`. -/
def maintenanceStatuses : List ArtifactStatus := [.staging, .rejected, .orphaned]

/-- The maintenance job looks for a blob under the storage key of an old record. -/
def World.Maintained (w : World) (cfg : StoreConfig) (p : Path) : Prop :=
  ∃ r ∈ w.records.rows, r.status ∈ maintenanceStatuses ∧ cfg.resolve r.storageKey = .ok p

inductive Request
  | publishFile (req : PublishRequest)
  | uploadArtifact (req : UploadRequest)

namespace Request

def id : Request → String
  | .publishFile req => artifactId req.artifact
  | .uploadArtifact req => artifactId req.artifact

def staged : Request → String
  | .publishFile req => stagingKey (artifactId req.artifact) req.staging
  | .uploadArtifact req => stagingKey (artifactId req.artifact) req.staging

def final : Request → String
  | .publishFile req => req.storageKey
  | .uploadArtifact req => (req.type?.map req.storageKey).getD ""

/-- The world after the function returned or raised. -/
def run (cfg : StoreConfig) (env : Env Site) (w : World) : Request → World
  | .publishFile req => ((Artifacts.publishFile cfg env req).runOn w).2
  | .uploadArtifact req => ((Artifacts.uploadArtifact cfg env req).runOn w).2

/-- A call of `save_artifact` raises that the clean-up does not make good: the last one
or, in an upload, one of the first three. -/
def Unsaved (cfg : StoreConfig) (env : Env Site) : Request → Prop
  | .publishFile req => env.Publishes cfg req ∧ env.fault .saveAvailable ≠ none
  | .uploadArtifact req => env.Strands cfg req

end Request

/-- A publication with new identifiers whose clean-up calls are performed. -/
structure Publication (cfg : StoreConfig) where
  world : World
  env : Env Site
  request : Request
  fresh : Fresh cfg world request.id request.staged request.final
  cleansUp : env.CleansUp

namespace Publication

variable {cfg : StoreConfig} (p : Publication cfg)

def result : World := p.request.run cfg p.env p.world

def Agrees : Prop :=
  (∃ r, p.result.records.find? p.request.id = some r ∧ r.status = .available ∧
    ∃ b, p.result.blobAt cfg r.storageKey = some b ∧ cfg.sha256 b = r.contentHash ∧
      b.length = r.sizeBytes) ∨
  p.result.blobAt cfg p.request.staged = none ∧ p.result.blobAt cfg p.request.final = none

/-- A blob that was not there before is the blob of an available record, or the
maintenance job finds it. -/
def Reached : Prop :=
  ∀ q b, p.result.files q = some b → p.world.files q = some b ∨
    (∃ r ∈ p.result.records.rows, r.status = .available ∧ cfg.resolve r.storageKey = .ok q) ∨
    p.result.Maintained cfg q

structure Exits : Prop where
  agrees : p.Agrees
  reached : p.Reached

variable {p} {content : Bytes}

theorem exits_of_clean (h : Clean p.world p.request.id p.result) : p.Exits := by
  have hfiles : p.result.files = p.world.files := by
    rcases h with h | ⟨r, _, h⟩ <;> rw [h]
    rfl
  have hblob : ∀ key, p.result.blobAt cfg key = p.world.blobAt cfg key := by
    intro key
    rw [World.blobAt, World.blobAt, hfiles]
  constructor
  · right
    rw [hblob, hblob]
    exact ⟨p.fresh.staged, p.fresh.stored⟩
  · intro q b hb
    left
    rwa [hfiles] at hb

theorem exits_of_published (h : Published cfg p.world p.request.id p.request.final content p.result)
    : p.Exits := by
  obtain ⟨q, r, hq, hr, hresult⟩ := h
  have hfiles : p.result.files = p.world.files.write q content := by
    rw [hresult]
    rfl
  have hfind : p.result.records.find? p.request.id = some r := by
    rw [hresult, ← hr.artifactId]
    exact put_find? _ r
  constructor
  · left
    refine ⟨r, hfind, hr.available, content, ?_, hr.contentHash.symm, hr.sizeBytes.symm⟩
    rw [World.blobAt, hr.storageKey, hq, hfiles]
    exact Files.write_self _ _
  · intro q' b hb
    rw [hfiles] at hb
    by_cases hsame : q' = q
    · right
      left
      refine ⟨r, Table.find?_mem hfind, hr.available, ?_⟩
      rw [hr.storageKey, hsame, hq]
    · left
      rwa [Files.write_of_ne _ _ hsame] at hb

/-- A blob under one of the keys, without an available record. -/
theorem not_exits {key : String} {q : Path} {b : Bytes}
    (hkey : key = p.request.staged ∨ key = p.request.final) (hq : cfg.resolve key = .ok q)
    (hb : p.result.files q = some b)
    (hrecord : ∀ r, p.result.records.find? p.request.id = some r → r.status ≠ .available) :
    ¬ p.Exits := by
  intro hexits
  rcases hexits.agrees with ⟨r, hr, havailable, _⟩ | ⟨hstaged, hfinal⟩
  · exact hrecord r hr havailable
  · have hblob : p.result.blobAt cfg key = some b := by rw [blobAt_ok cfg hq, hb]
    rcases hkey with rfl | rfl
    · rw [hblob] at hstaged
      cases hstaged
    · rw [hblob] at hfinal
      cases hfinal

theorem not_exits_of_leaked (h : Leaked cfg p.world p.request.id p.request.final content p.result) :
    ¬ p.Exits := by
  obtain ⟨q, r, hq, hid, hstatus, hresult⟩ := h
  apply not_exits (.inr rfl) hq (b := content)
  · rw [hresult]
    exact Files.write_self _ _
  · intro r' hr'
    rw [hresult, ← hid, put_find?, Option.some.injEq] at hr'
    rwa [← hr']

theorem not_exits_of_stuck {source : Path} (hsource : cfg.resolve p.request.staged = .ok source)
    (h : Stuck p.world p.request.id source content p.result) : ¬ p.Exits := by
  apply not_exits (.inl rfl) hsource (b := content)
  · rcases h with h | ⟨r, _, _, h⟩ <;> rw [h] <;> exact Files.write_self _ _
  · intro r' hr'
    rcases h with h | ⟨r, hid, hstatus, h⟩
    · rw [h] at hr'
      have hnone := p.fresh.record
      rw [World.write] at hr'
      rw [hnone] at hr'
      cases hr'
    · rw [h, ← hid, put_find?, Option.some.injEq] at hr'
      rwa [← hr']

/-- Blob and record agree at the exit of a publication exactly when every record that
its clean-up does not make good was saved. -/
theorem exits_iff (p : Publication cfg) : p.Exits ↔ ¬ p.request.Unsaved cfg p.env := by
  obtain ⟨w, env, request, hfresh, hclean⟩ := p
  cases request with
  | publishFile req =>
    rcases (publishFile_ends req hfresh hclean).final with
      ⟨_, hpublished, hsave⟩ | ⟨_, ⟨hleft, hnot⟩ | ⟨hleaked, hall, hsave⟩⟩
    · exact iff_of_true (exits_of_published hpublished) fun hbad => hbad.2 hsave
    · exact iff_of_true (exits_of_clean hleft) fun hbad => hnot hbad.1
    · exact iff_of_false (not_exits_of_leaked hleaked) (not_not_intro ⟨hall, hsave⟩)
  | uploadArtifact req =>
    have hfinal : ∀ type, req.type? = some type →
        (Request.uploadArtifact req).final = req.storageKey type := by
      intro type htype
      rw [Request.final, htype]
      rfl
    have hfresh' : ∀ type, req.type? = some type → Fresh cfg w (artifactId req.artifact)
        (stagingKey (artifactId req.artifact) req.staging) (req.storageKey type) := by
      intro type htype
      rw [← hfinal type htype]
      exact hfresh
    rcases (uploadArtifact_ends req hfresh' hclean).final with
      ⟨_, ⟨type, htype, hpublished⟩, hnot⟩ | ⟨_, ⟨hleft, hnot⟩ | ⟨hbad, hstrands⟩⟩
    · rw [← hfinal type htype] at hpublished
      exact iff_of_true (exits_of_published hpublished) hnot
    · exact iff_of_true (exits_of_clean hleft) hnot
    · refine iff_of_false ?_ (not_not_intro hstrands)
      rcases hbad with hstuck | ⟨type, htype, hleaked⟩
      · exact not_exits_of_stuck (resolve_stagingKey _ _) hstuck
      · rw [← hfinal type htype] at hleaked
        exact not_exits_of_leaked hleaked

/-- No key is taken in an empty store. -/
theorem fresh_empty (artifactId stagingKey storageKey : String) :
    Fresh cfg ⟨Table.empty, fun _ => none⟩ artifactId stagingKey storageKey := by
  have hblob : ∀ key, World.blobAt cfg ⟨Table.empty, fun _ => none⟩ key = none := by
    intro key
    unfold World.blobAt
    split <;> rfl
  exact ⟨rfl, by simp, hblob _, hblob _⟩

theorem dot_pdf : ".pdf".toList.head? = some '.' := by decide

theorem noSlash_pdf : '/' ∉ ".pdf".toList := by decide

theorem noSlash_one : '/' ∉ "1".toList := by decide

theorem noSlash_two : '/' ∉ "2".toList := by decide

def lockedPublication : Publication sampleStore where
  world := ⟨Table.empty, fun _ => none⟩
  env := ⟨fun site => if site = .saveAvailable then some .other else none, fun _ => 1⟩
  request := .publishFile
    { workspaceId := "ws_1"
      projectId := some "project_1"
      kind := .report
      suffix := ⟨".pdf", dot_pdf, noSlash_pdf⟩
      source := [⟨[80, 75], List.cons_ne_nil _ _⟩]
      artifact := ⟨"1", noSlash_one⟩
      staging := ⟨"2", noSlash_two⟩ }
  fresh := fresh_empty _ _ _
  cleansUp := ⟨rfl, rfl, rfl⟩

/-- Its blob stays at the final key, and its record is orphaned under the staging key. -/
theorem not_exits_lockedPublication : ¬ ∀ cfg (p : Publication cfg), p.Exits := by
  intro hall
  have hstate : lockedPublication.result.blobAt sampleStore lockedPublication.request.final = some [80, 75] ∧
      (lockedPublication.result.records.find? lockedPublication.request.id).map
        ArtifactRecord.status = some .orphaned := by decide +kernel
  rcases (hall _ lockedPublication).agrees with ⟨r, hr, havailable, _⟩ | ⟨_, hfinal⟩
  · have horphaned := hstate.2
    rw [hr, Option.map_some, Option.some.injEq, havailable] at horphaned
    cases horphaned
  · rw [hstate.1] at hfinal
    cases hfinal

end Publication

end CodeResearch.Artifacts
