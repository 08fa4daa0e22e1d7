import CodeResearch.Artifacts.Store

/-!
# Publishing an artifact

`upload_artifact` and `_publish_file` stage a file, take its record through four
transitions and move the file to its final key. Every call of the database and of
the file system has a site, at which it may raise; so do the checkpoints and the
checks of an uploaded file.
-/
namespace CodeResearch.Artifacts

/-- The calls of the two functions, in the order of their texts. -/
inductive Site
  | access | checkpointEntry | openSource | openStaging | readChunk (i : ℕ) | writeChunk (i : ℕ)
  | unlinkStaging | checkpointStaged | saveStaging | saveQuarantined | saveValidating
  | checkpointValidating | readStaging | validateFile | hashStaging | makeParent | replaceFile
  | saveAvailable | deleteStaging | saveAborted
  deriving DecidableEq

abbrev Chunk := { b : Bytes // b ≠ [] }

section Functions

variable (cfg : StoreConfig) (env : Env Site)

/-- Opening a file in mode `xb`. -/
def openStaging (destination : Path) : Exec Exc World Unit :=
  env.step .openStaging <| Exec.prim fun w =>
    if (w.files destination).isSome then (.error .os, w) else (.ok (), w.write destination [])

/-- The loop of `stage`, from its round `i` on. -/
def writeChunks (destination : Path) (maxBytes : Option ℕ) :
    ℕ → Bytes → List Chunk → Exec Exc World Bytes
  | i, written, [] => do
    env.check (.readChunk i)
    return written
  | i, written, chunk :: rest => do
    env.check (.readChunk i)
    let content := written ++ chunk.1
    if ∃ m ∈ maxBytes, m < content.length then
      throw (.artifactSecurity "artifact_size_exceeded")
    else
      env.step (.writeChunk i) <| Exec.prim fun w => (.ok (), w.write destination content)
      writeChunks destination maxBytes (i + 1) content rest

def stagingKey (artifactId : String) (staging : Uuid) : String :=
  ".staging/" ++ artifactId ++ "-" ++ staging.hex

/-- `stage`: the key, the hash and the size of the staged file. -/
def stage (artifactId : String) (staging : Uuid) (maxBytes : Option ℕ) (source : List Chunk) :
    Exec Exc World (String × String × ℕ) := do
  let destination ← resolvePath cfg (stagingKey artifactId staging)
  let content ← Exec.handle
    (do
      openStaging env destination
      writeChunks env destination maxBytes 0 [] source)
    fun e => do
      env.step .unlinkStaging <| Exec.prim fun w => (.ok (), w.remove destination)
      throw e
  return (stagingKey artifactId staging, cfg.sha256 content, content.length)

/-- `finalize`. -/
def finalize (stagingKey storageKey expectedHash : String) : Exec Exc World Unit := do
  let source ← resolvePath cfg stagingKey
  let destination ← resolvePath cfg storageKey
  env.step .hashStaging <| Exec.prim fun w =>
    if (w.files source).map cfg.sha256 = some expectedHash then (.ok (), w)
    else (.error (.artifactSecurity "artifact_hash_mismatch"), w)
  env.check .makeParent
  env.step .replaceFile <| Exec.prim fun w => (.ok (), w.rename source destination)

/-- `save_artifact` at a site. -/
def save (site : Site) (artifact : ArtifactRecord) : Exec Exc World Unit :=
  env.step site (saveArtifact artifact)

/-- `artifacts.delete(staging_key)` in a clean-up. -/
def deleteStaging (stagingKey : String) : Exec Exc World Unit :=
  env.step .deleteStaging (deleteBlob cfg stagingKey)

/-- The suffix of the published file, with its dot. -/
structure Suffix where
  text : String
  dotted : text.toList.head? = some '.'
  separator : '/' ∉ text.toList

/-- The arguments of `_publish_file` and the identifiers it draws. -/
structure PublishRequest where
  workspaceId : String
  projectId : Option String
  kind : ArtifactKind
  suffix : Suffix
  source : List Chunk
  artifact : Uuid
  staging : Uuid

def artifactId (artifact : Uuid) : String := "artifact_" ++ artifact.hex

def PublishRequest.storageKey (req : PublishRequest) : String :=
  req.workspaceId ++ "/" ++ (req.projectId.filter (· ≠ "")).getD "shared" ++ "/generated/" ++
    artifactId req.artifact ++ req.suffix.text

def PublishRequest.record (req : PublishRequest) (stagingKey digest : String) (size : ℕ)
    (now : Timestamp) : ArtifactRecord where
  artifactId := artifactId req.artifact
  workspaceId := req.workspaceId
  projectId := req.projectId.getD ""
  kind := req.kind
  status := .staging
  storageKey := stagingKey
  contentHash := digest
  sizeBytes := size
  mediaType := if req.suffix.text = ".zip" then "application/zip" else "application/octet-stream"
  errorCode := none
  createdAt := now
  updatedAt := now

/-- What is raised while the local variable `persisted` has a value is raised with it. -/
def whilePersisted {α : Type} (persisted : Option ArtifactRecord) (x : Exec Exc World α) :
    Exec (Exc × Option ArtifactRecord) World α :=
  x.handle fun e => throw (e, persisted)

/-- The `try` block of `_publish_file`. -/
def publishRecord (record : ArtifactRecord) (storageKey : String) :
    Exec (Exc × Option ArtifactRecord) World Unit := do
  whilePersisted none do
    env.check .checkpointStaged
    save env .saveStaging record
  let quarantined := record.moveTo .quarantined (env.clock .saveQuarantined)
  whilePersisted (some record) (save env .saveQuarantined quarantined)
  let validating := quarantined.moveTo .validating (env.clock .saveValidating)
  whilePersisted (some quarantined) (save env .saveValidating validating)
  whilePersisted (some validating) do
    env.check .checkpointValidating
    finalize cfg env record.storageKey storageKey record.contentHash
    let available :=
      { validating.moveTo .available (env.clock .saveAvailable) with storageKey := storageKey }
    save env .saveAvailable available

/-- The `except` clause of `_publish_file`, before it raises again. -/
def abandonPublication (stagingKey : String) (persisted : Option ArtifactRecord) :
    Exec Exc World Unit := do
  deleteStaging cfg env stagingKey
  match persisted with
  | some r =>
    if r.status ∈ [ArtifactStatus.staging, .quarantined, .validating] then
      Exec.handle
        (save env .saveAborted
          (r.failTo .orphaned "artifact_publish_incomplete" (env.clock .saveAborted)))
        fun _ => pure ()
    else pure ()
  | none => pure ()

/-- `_publish_file`. -/
def publishFile (req : PublishRequest) : Exec Exc World String := do
  env.check .checkpointEntry
  env.check .openSource
  let (stagingKey, digest, size) ← stage cfg env (artifactId req.artifact) req.staging none
    req.source
  let record := req.record stagingKey digest size (env.clock .saveStaging)
  Exec.handle (publishRecord cfg env record req.storageKey) fun (e, persisted) => do
    abandonPublication cfg env stagingKey persisted
    throw e
  return artifactId req.artifact

/-- The arguments of `upload_artifact` and the identifiers it draws. -/
structure UploadRequest where
  workspaceId : String
  projectId : String
  filename : Option String
  /-- whether the runtime has a local artifact store -/
  localStore : Bool
  source : List Chunk
  artifact : Uuid
  staging : Uuid

/-- The kinds that may be uploaded, with their media types, suffixes and size limits. -/
structure UploadType where
  kind : ArtifactKind
  mediaType : String
  suffix : String
  maxBytes : ℕ

def repositoryZipUpload : UploadType :=
  ⟨.repositoryZip, "application/zip", ".zip", 100 * 1024 * 1024⟩

def paperPdfUpload : UploadType := ⟨.paperPdf, "application/pdf", ".pdf", 50 * 1024 * 1024⟩

def UploadRequest.type? (req : UploadRequest) : Option UploadType :=
  let suffix := (req.filename.getD "").toLower
  if suffix.endsWith ".zip" then some repositoryZipUpload
  else if suffix.endsWith ".pdf" then some paperPdfUpload
  else none

def UploadRequest.storageKey (req : UploadRequest) (type : UploadType) : String :=
  req.workspaceId ++ "/" ++ req.projectId ++ "/" ++ artifactId req.artifact ++ type.suffix

/-- The first record of an uploaded file. -/
def UploadRequest.record (req : UploadRequest) (type : UploadType) (stagingKey digest : String)
    (size : ℕ) (now : Timestamp) : ArtifactRecord where
  artifactId := artifactId req.artifact
  workspaceId := req.workspaceId
  projectId := req.projectId
  kind := type.kind
  status := .staging
  storageKey := stagingKey
  contentHash := digest
  sizeBytes := size
  mediaType := type.mediaType
  errorCode := none
  createdAt := now
  updatedAt := now

/-- The `try` block of `upload_artifact`. -/
def uploadRecord (validating : ArtifactRecord) (storageKey : String) :
    Exec Exc World ArtifactRecord := do
  env.step .readStaging do
    let _ ← pathForRead cfg validating.storageKey
  env.check .validateFile
  finalize cfg env validating.storageKey storageKey validating.contentHash
  let available :=
    { validating.moveTo .available (env.clock .saveAvailable) with storageKey := storageKey }
  save env .saveAvailable available
  return available

/-- `upload_artifact`. -/
def uploadArtifact (req : UploadRequest) : Exec Exc World ArtifactRecord := do
  env.check .access
  match req.type? with
  | none => throw (.http 400 "artifact_type_rejected")
  | some type =>
    if ¬ req.localStore then throw (.http 503 "artifact_store_unavailable")
    else
      let (stagingKey, digest, size) ← Exec.handle
        (stage cfg env (artifactId req.artifact) req.staging (some type.maxBytes) req.source)
        fun e => match e with
          | .artifactSecurity code => throw (.http 400 code)
          | e => throw e
      let record := req.record type stagingKey digest size (env.clock .saveStaging)
      save env .saveStaging record
      let quarantined := record.moveTo .quarantined (env.clock .saveQuarantined)
      save env .saveQuarantined quarantined
      let validating := quarantined.moveTo .validating (env.clock .saveValidating)
      save env .saveValidating validating
      Exec.handle (uploadRecord cfg env validating (req.storageKey type)) fun e => match e with
        | .artifactSecurity code => do
          deleteStaging cfg env stagingKey
          save env .saveAborted (validating.failTo .rejected code (env.clock .saveAborted))
          throw (.http 400 code)
        | _ => do
          deleteStaging cfg env stagingKey
          save env .saveAborted
            (validating.failTo .orphaned "artifact_finalize_failed" (env.clock .saveAborted))
          throw (.http 503 "artifact_finalize_failed")

end Functions

end CodeResearch.Artifacts
