import CodeResearch.Library.Exec
import CodeResearch.Library.Files
import CodeResearch.Library.Result
import CodeResearch.Library.Table

/-!
# Artifact records and the local artifact store

A record is a row of the control-plane database, its blob a file below the root
of the artifact store. Both are reached through calls that may raise instead of
being performed. Identifiers and hashes come from outside: a `uuid4` is a text
without separators, and the hash of a content is an argument.
-/
namespace CodeResearch.Artifacts

abbrev Timestamp := ℕ

abbrev Bytes := List UInt8

inductive ArtifactKind
  | repositoryZip | gitRepository | paperPdf | report | fixture | «export» | backup | restore
  | replayManifest
  deriving DecidableEq

inductive ArtifactStatus
  | staging | quarantined | validating | available | rejected | orphaned | deletionRequested
  | deleted
  deriving DecidableEq

structure ArtifactRecord where
  artifactId : String
  workspaceId : String
  projectId : String
  kind : ArtifactKind
  status : ArtifactStatus
  storageKey : String
  contentHash : String
  sizeBytes : ℕ
  mediaType : String
  errorCode : Option String
  createdAt : Timestamp
  updatedAt : Timestamp
  deriving DecidableEq

/-- `model_copy` with a new status. -/
def ArtifactRecord.moveTo (r : ArtifactRecord) (status : ArtifactStatus) (now : Timestamp) :
    ArtifactRecord :=
  { r with status := status, updatedAt := now }

/-- `model_copy` with a new status and an error code. -/
def ArtifactRecord.failTo (r : ArtifactRecord) (status : ArtifactStatus) (errorCode : String)
    (now : Timestamp) : ArtifactRecord :=
  { r with status := status, errorCode := some errorCode, updatedAt := now }

/-- The transitions that `save_artifact` accepts. -/
def artifactTransitions : ArtifactStatus → List ArtifactStatus
  | .staging => [.quarantined, .rejected, .orphaned]
  | .quarantined => [.validating, .rejected, .orphaned]
  | .validating => [.available, .rejected, .orphaned]
  | .available => [.deletionRequested]
  | .deletionRequested => [.deleted]
  | _ => []

/-- What the calls and functions raise. -/
inductive Exc
  /-- `ArtifactSecurityError` -/
  | artifactSecurity (code : String)
  /-- `ControlPlaneError` -/
  | controlPlane (code : String)
  /-- `HTTPException`, with its status and `error_code` -/
  | http (statusCode : ℕ) (errorCode : String)
  /-- `OSError` -/
  | os
  /-- `sqlite3.Error`, `asyncio.CancelledError` and every other exception -/
  | other
  deriving DecidableEq

/-- The text of a `uuid4().hex`. -/
structure Uuid where
  hex : String
  separator : '/' ∉ hex.toList

/-- The database and the files. -/
structure World where
  records : Table ArtifactRecord.artifactId
  files : Files Bytes

/-- What the artifact store is built on. -/
structure StoreConfig where
  root : Path
  sha256 : Bytes → String

/-- What each call raises instead of being performed, and the time at which it is made. -/
structure Env (site : Type) where
  fault : site → Option Exc
  clock : site → Timestamp

def Env.step {site α : Type} (env : Env site) (i : site) (x : Exec Exc World α) :
    Exec Exc World α :=
  Exec.faulting (env.fault i) x

def Env.check {site : Type} (env : Env site) (i : site) : Exec Exc World Unit :=
  env.step i (pure ())

theorem check_ends {site : Type} {env : Env site} {i : site} {w : World}
    {Q : Unit → World → Prop} {R : Exc → World → Prop}
    (hfault : ∀ e, env.fault i = some e → R e w) (hok : env.fault i = none → Q () w) :
    (env.check i).Ends w Q R :=
  Exec.ends_faulting hfault fun h => Exec.ends_pure (hok h)

def World.write (w : World) (p : Path) (b : Bytes) : World := { w with files := w.files.write p b }

def World.remove (w : World) (p : Path) : World := { w with files := w.files.remove p }

def World.rename (w : World) (p q : Path) : World := { w with files := w.files.rename p q }

def World.put (w : World) (r : ArtifactRecord) : World :=
  { w with records := match w.records.insert r with
      | some t => t
      | none => w.records.replace r }

/-- `storage_key` is unique. -/
def World.KeyTaken (w : World) (r : ArtifactRecord) : Prop :=
  ∃ x ∈ w.records.rows, x.artifactId ≠ r.artifactId ∧ x.storageKey = r.storageKey

instance (w : World) (r : ArtifactRecord) : Decidable (w.KeyTaken r) :=
  inferInstanceAs (Decidable (∃ x ∈ w.records.rows, _))

def saveArtifact (artifact : ArtifactRecord) : Exec Exc World Unit :=
  Exec.prim fun w =>
    match w.records.find? artifact.artifactId with
    | some current =>
      if artifact.status ∉ artifactTransitions current.status then
        (.error (.controlPlane "invalid_artifact_transition"), w)
      else if w.KeyTaken artifact then (.error .other, w)
      else (.ok (), w.put artifact)
    | none =>
      if artifact.status ≠ .staging then (.error (.controlPlane "artifact_must_start_staging"), w)
      else if w.KeyTaken artifact then (.error .other, w)
      else (.ok (), w.put artifact)

def getArtifact (artifactId : String) : Exec Exc World ArtifactRecord :=
  Exec.prim fun w =>
    match w.records.find? artifactId with
    | some record => (.ok record, w)
    | none => (.error (.controlPlane "artifact_not_found"), w)

section Files

variable (cfg : StoreConfig)

/-- `_resolve`. -/
def StoreConfig.resolve (storageKey : String) : Except Exc Path :=
  if storageKey = "" ∨ storageKey.toList.head? ∈ [some '/', some '~'] then
    .error (.artifactSecurity "invalid_storage_key")
  else if cfg.root <+: cfg.root.join storageKey.toList then .ok (cfg.root.join storageKey.toList)
  else .error (.artifactSecurity "artifact_path_escape")

/-- `_resolve` inside of a method. -/
def resolvePath (storageKey : String) : Exec Exc World Path :=
  Exec.prim fun w => (cfg.resolve storageKey, w)

def World.blobAt (w : World) (storageKey : String) : Option Bytes :=
  match cfg.resolve storageKey with
  | .ok p => w.files p
  | .error _ => none

/-- `delete`: a missing file is no error. -/
def deleteBlob (storageKey : String) : Exec Exc World Unit := do
  let path ← resolvePath cfg storageKey
  Exec.prim fun w => (.ok (), w.remove path)

/-- `path_for_read`. -/
def pathForRead (storageKey : String) : Exec Exc World Path := do
  let path ← resolvePath cfg storageKey
  Exec.prim fun w =>
    if (w.files path).isNone then (.error (.artifactSecurity "artifact_not_available"), w)
    else (.ok path, w)

variable {storageKey : String}

theorem blobAt_ok {p : Path} (h : cfg.resolve storageKey = .ok p) (w : World) :
    w.blobAt cfg storageKey = w.files p := by
  rw [World.blobAt, h]

theorem runOn_resolvePath {r : Except Exc Path} (h : cfg.resolve storageKey = r) (w : World) :
    (resolvePath cfg storageKey).runOn w = (r, w) := by
  rw [resolvePath, Exec.runOn_prim, h]

theorem runOn_deleteBlob {p : Path} (h : cfg.resolve storageKey = .ok p) (w : World) :
    (deleteBlob cfg storageKey).runOn w = (.ok (), w.remove p) := by
  rw [deleteBlob, Exec.runOn_bind_ok (runOn_resolvePath cfg h w), Exec.runOn_prim]

end Files

section Rows

variable {w : World} {r r' : ArtifactRecord}

@[simp] theorem put_files (w : World) (r : ArtifactRecord) : (w.put r).files = w.files := rfl

theorem put_find? (w : World) (r : ArtifactRecord) :
    (w.put r).records.find? r.artifactId = some r := by
  unfold World.put
  cases hins : w.records.insert r with
  | some t => exact Table.find?_insert_self hins
  | none =>
    apply Table.find?_replace_self
    by_contra hnone
    have hfresh := (Table.find?_eq_none_iff _).mp (by simpa using hnone)
    obtain ⟨t, ht⟩ := Table.exists_insert hfresh
    rw [hins] at ht
    cases ht

/-- The rows of the other artifacts are not touched. -/
theorem mem_put {x : ArtifactRecord} (h : x ∈ (w.put r).records.rows)
    (hne : x.artifactId ≠ r.artifactId) : x ∈ w.records.rows := by
  unfold World.put at h
  cases hins : w.records.insert r with
  | some t =>
    rw [hins] at h
    rcases (Table.mem_insert hins x).mp h with h | rfl
    · exact h
    · exact absurd rfl hne
  | none =>
    rw [hins] at h
    simp only [Table.rows_replace, List.mem_map] at h
    obtain ⟨y, hy, rfl⟩ := h
    by_cases hid : y.artifactId = r.artifactId
    · rw [if_pos hid] at hne
      exact absurd rfl hne
    · rwa [if_neg hid]

/-- A row that was just inserted is rewritten as if it was inserted only now. -/
theorem put_put (hfresh : w.records.find? r.artifactId = none)
    (hid : r'.artifactId = r.artifactId) : (w.put r).put r' = w.put r' := by
  have hkeys := (Table.find?_eq_none_iff _).mp hfresh
  obtain ⟨t, ht⟩ := Table.exists_insert hkeys
  obtain ⟨t', ht'⟩ := Table.exists_insert (t := w.records) (r := r') (by rwa [hid])
  have hput : w.put r = { w with records := t } := by rw [World.put, ht]
  have hput' : w.put r' = { w with records := t' } := by rw [World.put, ht']
  have htaken : t.insert r' = none := by
    cases hins : t.insert r' with
    | none => rfl
    | some u =>
      have hin : r'.artifactId ∈ t.rows.map ArtifactRecord.artifactId := by
        rw [Table.rows_insert ht, hid]
        simp
      exact absurd hin (Table.insert_fresh hins)
  rw [hput, hput', World.put, htaken, ← Table.replace_insert ht ht' hid]

theorem keyTaken_put (hid : r'.artifactId = r.artifactId) :
    (w.put r).KeyTaken r' → w.KeyTaken r' := by
  rintro ⟨x, hx, hne, hkey⟩
  exact ⟨x, mem_put hx (hid ▸ hne), hne, hkey⟩

theorem saveArtifact_new (hfresh : w.records.find? r.artifactId = none)
    (hstatus : r.status = .staging) (hkey : ¬ w.KeyTaken r) :
    (saveArtifact r).runOn w = (.ok (), w.put r) := by
  rw [saveArtifact, Exec.runOn_prim, hfresh]
  simp [hstatus, hkey]

theorem saveArtifact_next {current : ArtifactRecord}
    (hcurrent : w.records.find? r.artifactId = some current)
    (hallowed : r.status ∈ artifactTransitions current.status) (hkey : ¬ w.KeyTaken r) :
    (saveArtifact r).runOn w = (.ok (), w.put r) := by
  rw [saveArtifact, Exec.runOn_prim, hcurrent]
  simp [hallowed, hkey]

end Rows

/-- A store below `/data`, with the hash of the content `PK`. -/
def sampleStore : StoreConfig :=
  ⟨["data".toList], fun _ => "fcab7fcc2b4cffd9bb45003bfc2e468a04ef6f77ca8200a7341f027631584d25"⟩

end CodeResearch.Artifacts
