import CodeResearch.Library.Dict
import CodeResearch.Retrieval.Generations
import Mathlib.Data.Rat.Defs

/-!
# Vector generations

A synchronization embeds its documents, upserts a point for each of them, and compares the
number of points in its scope with the number of its documents. Its outcome is kept in a
manifest, which is a file of its own for each set of documents.
-/
namespace CodeResearch.Retrieval

structure SparseVectorData where
  indices : List ℕ
  values : List ℚ
  deriving DecidableEq

/-- `_payload`. -/
structure VectorPayload where
  vectorProfileHash : String
  repoId : String
  indexVersionId : String
  chunkId : String
  entityId : String
  entityKind : EntityKind
  entityType : String
  chunkType : String
  path : String
  qualifiedName : String
  parentEntityId : String
  contentHash : String
  ordinal : ℕ
  startLine : ℕ
  endLine : ℕ
  indexSchemaVersion : String := "1.4.0"
  deriving DecidableEq

def vectorPayload (d : RetrievalDocument) (profileHash : String) : VectorPayload where
  vectorProfileHash := profileHash
  repoId := d.repoId
  indexVersionId := d.indexVersionId
  chunkId := d.chunkId
  entityId := d.entityId
  entityKind := d.entityKind
  entityType := d.entityType
  chunkType := d.chunkType
  path := d.path.getD ""
  qualifiedName := d.qualifiedName.getD ""
  parentEntityId := d.parentEntityId.getD ""
  contentHash := d.contentHash
  ordinal := d.ordinal
  startLine := d.startLine.getD 0
  endLine := d.endLine.getD 0

structure VectorPoint where
  pointId : String
  vector : List ℚ
  sparseVector : Option SparseVectorData
  payload : VectorPayload
  deriving DecidableEq

def VectorPoint.scope (p : VectorPoint) : GenerationScope :=
  ⟨p.payload.repoId, p.payload.indexVersionId, p.payload.vectorProfileHash⟩

structure MemoryCollection where
  name : String
  profileHash : String
  dimension : ℕ
  points : Table VectorPoint.pointId := .empty

inductive SyncStatus
  | building | ready | failed
  deriving DecidableEq

structure VectorManifest where
  generationId : String
  status : SyncStatus
  scope : GenerationScope
  collectionName : String
  pointCount : ℕ := 0
  errorCode : Option String := none
  /-- the points of the sync that made it ready, which the file does not hold -/
  points : List VectorPoint := []
  deriving DecidableEq

def VectorManifest.key (m : VectorManifest) : String × String × String :=
  (m.scope.repoId, m.scope.indexVersionId, m.generationId)

def VectorManifest.place (m : VectorManifest) : String × GenerationScope :=
  (m.collectionName, m.scope)

/-- A profile with its hash, which is a hexadecimal SHA-256. -/
structure VectorProfile where
  profileHash : String
  dimension : ℕ
  length_profileHash : profileHash.length = 64

/-- The ids that are digests. -/
structure VectorIds where
  pointId : GenerationScope → String → String
  generationId : GenerationScope → List (String × String) → String
  pointId_injective : ∀ scope, (pointId scope).Injective

/-- A call of `sync` with what the embedder and the store do during it. What raises has an
error code. -/
structure VectorSyncCall where
  profile : VectorProfile
  repoId : String
  indexVersionId : String
  documents : List RetrievalDocument
  nodup_documents : (documents.map RetrievalDocument.chunkId).Nodup
  /-- `ensure_collection` and `collection_profile_hash` do not raise by themselves -/
  ensured : Bool := true
  hashRead : Bool := true
  embedded : Except String (List (List ℚ))
  sparse : Option (Except String (List SparseVectorData)) := none
  /-- the store raises after as many points -/
  upsertFault : Option (ℕ × String) := none
  counted : Except String Unit := .ok ()

namespace VectorSyncCall

variable (ids : VectorIds) (call : VectorSyncCall)

def scope : GenerationScope := ⟨call.repoId, call.indexVersionId, call.profile.profileHash⟩

/-- `_generation_id`. -/
def generationId : String :=
  ids.generationId call.scope
    ((call.documents.insertionSort fun a b => a.chunkId ≤ b.chunkId).map fun d =>
      (d.chunkId, d.contentHash))

def manifest (status : SyncStatus) (collectionName : String) : VectorManifest where
  generationId := call.generationId ids
  status := status
  scope := call.scope
  collectionName := collectionName

def point (d : RetrievalDocument) (vector : List ℚ) (sparseVector : Option SparseVectorData) :
    VectorPoint where
  pointId := ids.pointId call.scope d.chunkId
  vector := vector
  sparseVector := sparseVector
  payload := vectorPayload d call.profile.profileHash

/-- The error code of a `ValueError`. -/
def valueError : String := "vector_sync_failed"

def sparseVectors : Except String (List (Option SparseVectorData)) :=
  match call.sparse with
  | none => .ok (call.documents.map fun _ => none)
  | some sparse => do
    let sparseVectors ← sparse
    ensure (sparseVectors.length = call.documents.length) valueError
    return sparseVectors.map some

def points : Except String (List VectorPoint) := do
  let vectors ← call.embedded
  ensure (vectors.length = call.documents.length) valueError
  let sparseVectors ← call.sparseVectors
  return (call.documents.zip (vectors.zip sparseVectors)).map fun (d, vector, sparseVector) =>
    call.point ids d vector sparseVector

end VectorSyncCall

/-- The store and the manifests. -/
structure VectorSystem where
  collections : Table MemoryCollection.name := .empty
  manifests : Table VectorManifest.key := .empty

def collectionName (profileHash : String) (length : ℕ) : String :=
  "cra_chunks_v1_" ++ String.ofList (profileHash.toList.take length)

/-- `resolve_collection_name`. -/
def resolveCollectionName (profileHash : String) (existing : String → Option String) :
    Option String :=
  ([12, 16, 24, 32, 64].map (collectionName profileHash)).find? fun name =>
    (existing name).all (· = profileHash)

namespace VectorSystem

variable (ids : VectorIds) (s : VectorSystem) (call : VectorSyncCall)

/-- `_known_collection_profiles`. -/
def knownCollectionProfiles (name : String) : Option String :=
  (dictBy VectorManifest.collectionName s.manifests.rows name).map fun m => m.scope.profileHash

def pointsOf (name : String) : List VectorPoint :=
  ((s.collections.find? name).map fun c => c.points.rows).getD []

/-- `InMemoryVectorStore.ensure_collection`. -/
def ensureCollection (name : String) (profile : VectorProfile) : Option VectorSystem :=
  match s.collections.find? name with
  | none =>
    some { s with
      collections := s.collections.put
        { name, profileHash := profile.profileHash, dimension := profile.dimension } }
  | some c =>
    if c.profileHash = profile.profileHash ∧ c.dimension = profile.dimension then some s else none

def reachedPoints (points : List VectorPoint) : Option (ℕ × String) → List VectorPoint
  | none => points
  | some (k, _) => points.take k

def writtenPoints (dimension : ℕ) (points : List VectorPoint) (fault : Option (ℕ × String)) :
    List VectorPoint :=
  (reachedPoints points fault).takeWhile fun p => p.vector.length = dimension

/-- `InMemoryVectorStore.upsert`. -/
def upsert (name : String) (points : List VectorPoint) (fault : Option (ℕ × String)) :
    VectorSystem × Except String Unit :=
  match s.collections.find? name with
  | none => (s, .error "vector_sync_failed")
  | some c =>
    let written := writtenPoints c.dimension points fault
    ({ s with collections := s.collections.put { c with points := c.points.putAll written } },
      if written.length < (reachedPoints points fault).length then .error "vector_sync_failed"
      else match fault with
        | none => .ok ()
        | some (_, code) => .error code)

/-- `InMemoryVectorStore.count`. -/
def count (name : String) (scope : GenerationScope) : ℕ :=
  ((s.pointsOf name).filter fun p => p.scope = scope).length

/-- What `sync` does before it writes a manifest. -/
def prepare : VectorSystem × Option String :=
  match resolveCollectionName call.profile.profileHash s.knownCollectionProfiles with
  | none => (s, none)
  | some name =>
    match if call.ensured then s.ensureCollection name call.profile else none with
    | none => (s, none)
    | some s =>
      if call.hashRead ∧ (s.collections.find? name).map MemoryCollection.profileHash =
          some call.profile.profileHash then (s, some name)
      else (s, none)

/-- The `try` block of `sync`. -/
def fill (name : String) : VectorSystem × Except String ℕ :=
  match call.points ids with
  | .error code => (s, .error code)
  | .ok points =>
    let (s, upserted) := s.upsert name points call.upsertFault
    let n := s.count name call.scope
    (s, do
      upserted
      call.counted
      ensure (n = call.documents.length) "vector_sync_failed"
      return n)

/-- The manifest of an earlier sync that `sync` returns. -/
def existing : Option VectorManifest :=
  (s.manifests.find? (call.repoId, call.indexVersionId, call.generationId ids)).filter fun m =>
    m.status = .ready

/-- `sync` with the manifest that it returns. -/
def sync : Option VectorManifest × VectorSystem :=
  match s.existing ids call with
  | some m => (some m, s)
  | none =>
    match s.prepare call with
    | (s, none) => (none, s)
    | (s, some name) =>
      let s : VectorSystem :=
        { s with manifests := s.manifests.put (call.manifest ids .building name) }
      match s.fill ids call name with
      | (s, .ok n) =>
        let ready : VectorManifest :=
          { call.manifest ids .ready name with
            pointCount := n, points := (call.points ids).toOption.getD [] }
        (some ready, { s with manifests := s.manifests.put ready })
      | (s, .error code) =>
        let failed : VectorManifest :=
          { call.manifest ids .failed name with errorCode := some code }
        (none, { s with manifests := s.manifests.put failed })

/-- `InMemoryVectorStore.delete`. -/
def deletePoints (name : String) (p : VectorPoint → Bool) : VectorSystem :=
  match s.collections.find? name with
  | none => s
  | some c => { s with collections := s.collections.put { c with points := c.points.deleteWhere p } }

def unlink (m : VectorManifest) : VectorSystem :=
  { s with manifests := s.manifests.deleteWhere fun r => r.key = m.key }

/-- The loop of `delete_version`. A deletion may raise after it removed some points. -/
def deleteAll (s : VectorSystem) : List VectorManifest → Option (ℕ × List String) → VectorSystem
  | [], _ => s
  | m :: _, some (0, removed) =>
    s.deletePoints m.collectionName fun p => p.scope = m.scope ∧ p.pointId ∈ removed
  | m :: rest, some (k + 1, removed) =>
    ((s.deletePoints m.collectionName fun p => p.scope = m.scope).unlink m).deleteAll rest
      (some (k, removed))
  | m :: rest, none =>
    ((s.deletePoints m.collectionName fun p => p.scope = m.scope).unlink m).deleteAll rest none

end VectorSystem

inductive VectorLabel
  | sync (call : VectorSyncCall)
  /-- the manifests in the order in which they are found, and a deletion that raises -/
  | deleteVersion (repoId indexVersionId : String) (order : List VectorManifest)
      (fault : Option (ℕ × List String))

namespace VectorSystem

variable (ids : VectorIds) (s : VectorSystem)

def manifestsOf (repoId indexVersionId : String) : List VectorManifest :=
  s.manifests.rows.filter fun m => m.scope.repoId = repoId ∧ m.scope.indexVersionId = indexVersionId

def step : VectorLabel → Option VectorSystem
  | .sync call => some (s.sync ids call).2
  | .deleteVersion repoId indexVersionId order fault =>
    if order.Perm (s.manifestsOf repoId indexVersionId) then some (s.deleteAll order fault) else none

def machine : Machine VectorSystem VectorLabel := ⟨step ids⟩

def Truthful : Prop :=
  ∀ m ∈ s.manifests.rows, m.status = .ready →
    ((s.pointsOf m.collectionName).filter fun p => p.scope = m.scope).Perm m.points

/-- No call of the embedder or of the store fails. -/
structure Succeeds (call : VectorSyncCall) : Prop where
  prepared : resolveCollectionName call.profile.profileHash s.knownCollectionProfiles ≠ none →
    (s.prepare call).2 ≠ none
  embedded : ∃ points, call.points ids = .ok points ∧
    ∀ p ∈ points, p.vector.length = call.profile.dimension
  upserted : call.upsertFault = none
  counted : call.counted = .ok ()

/-- The points of a call fit the scope: its documents belong to it, nothing else is stored
under their ids, and no other generation is ready there. When nothing fails, no other point
is left in the scope either. -/
structure Fits (call : VectorSyncCall) (name : String) (points : List VectorPoint) : Prop where
  documents : ∀ d ∈ call.documents,
    d.repoId = call.repoId ∧ d.indexVersionId = call.indexVersionId
  own : ∀ p ∈ s.pointsOf name, p.pointId ∈ points.map VectorPoint.pointId → p.scope = call.scope
  others : ∀ m ∈ s.manifests.rows, m.status = .ready → m.place ≠ (name, call.scope)
  leftovers : call.upsertFault = none → call.counted = .ok () →
    ∀ p ∈ s.pointsOf name, p.scope = call.scope → p.pointId ∈ points.map VectorPoint.pointId

def Spares : VectorLabel → Prop
  | .sync call => s.existing ids call = none → ∀ name points,
    (s.prepare call).2 = some name → call.points ids = .ok points → s.Fits call name points
  | .deleteVersion _ _ order fault => ∀ k removed, fault = some (k, removed) →
    ∀ m ∈ order.drop k, m.status = .ready →
      (∀ m' ∈ order.take k, m'.place ≠ m.place) ∧
        ∀ m' ∈ order[k]?, m'.place = m.place → removed = []

end VectorSystem

end CodeResearch.Retrieval
