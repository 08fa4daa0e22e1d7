import CodeResearch.Library.Machine
import CodeResearch.Library.Result
import CodeResearch.Library.Table
import Mathlib.Data.List.Sort

/-!
# Full-text generations

A synchronization fills a generation in three transactions: one that begins it,
one that inserts the documents and activates it, and one that takes it back when
the second raises. Calls interleave at the transactions, and the first look at the
status of the generation is outside of them.
-/
namespace CodeResearch.Retrieval

inductive EntityKind
  | code | paper
  deriving DecidableEq

structure RetrievalDocument where
  chunkId : String
  entityId : String
  repoId : String
  indexVersionId : String
  entityKind : EntityKind
  entityType : String
  chunkType : String
  path : Option String := none
  qualifiedName : Option String := none
  parentEntityId : Option String := none
  startLine : Option ℕ := none
  endLine : Option ℕ := none
  pageNumber : Option ℕ := none
  ordinal : ℕ := 0
  text : String
  contentHash : String
  /-- canonical JSON -/
  metadata : String := "\x7b\x7d"
  deriving DecidableEq

inductive GenerationStatus
  | building | ready | stale | failed | superseded
  deriving DecidableEq

structure GenerationScope where
  repoId : String
  indexVersionId : String
  profileHash : String
  deriving DecidableEq

structure GenerationRow where
  generationId : String
  scope : GenerationScope
  status : GenerationStatus
  documentCount : ℕ := 0
  contentHash : String
  errorCode : Option String := none
  deriving DecidableEq

/-- A row of `retrieval_documents`, with its entry in the full-text table. -/
structure DocumentRow where
  generationId : String
  chunkId : String
  entityId : String
  entityKind : EntityKind
  entityType : String
  chunkType : String
  path : Option String
  qualifiedName : Option String
  parentEntityId : Option String
  startLine : Option ℕ
  endLine : Option ℕ
  pageNumber : Option ℕ
  ordinal : ℕ
  text : String
  contentHash : String
  metadata : String
  deriving DecidableEq

/-- `UNIQUE(generation_id, chunk_id)`. -/
def DocumentRow.key (d : DocumentRow) : String × String := (d.generationId, d.chunkId)

def documentRow (generationId : String) (d : RetrievalDocument) : DocumentRow where
  generationId
  chunkId := d.chunkId
  entityId := d.entityId
  entityKind := d.entityKind
  entityType := d.entityType
  chunkType := d.chunkType
  path := d.path
  qualifiedName := d.qualifiedName
  parentEntityId := d.parentEntityId
  startLine := d.startLine
  endLine := d.endLine
  pageNumber := d.pageNumber
  ordinal := d.ordinal
  text := d.text
  contentHash := d.contentHash
  metadata := d.metadata

structure FTSTables where
  generations : Table GenerationRow.generationId := .empty
  documents : Table DocumentRow.key := .empty

inductive FTSFault
  | generation (errorCode message : String)
  | integrity
  | operational
  deriving DecidableEq

/-- `getattr(exc, "error_code", "fts_sync_failed")`. -/
def FTSFault.errorCode : FTSFault → String
  | generation errorCode _ => errorCode
  | integrity => "fts_sync_failed"
  | operational => "fts_sync_failed"

/-- The arguments of `sync`. -/
structure SyncCall where
  scope : GenerationScope
  documents : List RetrievalDocument
  failBeforeActivation : Bool := false
  deriving DecidableEq

/-- The digests of the store. -/
structure FTSStore where
  /-- of the pairs of chunk and content hash -/
  documentsDigest : List (String × String) → String
  /-- of the scope and the digest of the documents -/
  generationDigest : GenerationScope → String → String

/-- `sorted(documents, key=chunk_id)`. -/
def orderedDocuments (documents : List RetrievalDocument) : List RetrievalDocument :=
  documents.insertionSort fun a b => a.chunkId ≤ b.chunkId

/-- `_documents_hash`. -/
def FTSStore.documentsHash (store : FTSStore) (documents : List RetrievalDocument) : String :=
  store.documentsDigest ((orderedDocuments documents).map fun d => (d.chunkId, d.contentHash))

/-- `_generation_id`. -/
def FTSStore.generationId (store : FTSStore) (call : SyncCall) : String :=
  store.generationDigest call.scope (store.documentsHash call.documents)

def FTSStore.rowsOf (store : FTSStore) (call : SyncCall) : List DocumentRow :=
  (orderedDocuments call.documents).map (documentRow (store.generationId call))

namespace FTSTables

variable (t : FTSTables)

/-- The rows of `retrieval_documents` of one generation, in the order of their insertion. -/
def documentsOf (generationId : String) : List DocumentRow :=
  t.documents.rows.filter (·.generationId = generationId)

def status (generationId : String) : Option GenerationStatus :=
  (t.generations.find? generationId).map GenerationRow.status

/-- `ready_generation`. -/
def readyGeneration (scope : GenerationScope) : Option GenerationRow :=
  t.generations.rows.find? fun r => r.scope = scope ∧ r.status = .ready

/-- `_delete_generation_documents`. -/
def deleteGenerationDocuments (generationId : String) : FTSTables :=
  { t with documents := t.documents.deleteWhere (·.generationId = generationId) }

/-- `UPDATE ... SET status='superseded'` on the other ready generations of a scope. -/
def supersedeOthers (scope : GenerationScope) (generationId : String) : FTSTables :=
  { t with
    generations := t.generations.updateWhere
      (fun r => r.scope = scope ∧ r.status = .ready ∧ r.generationId ≠ generationId)
      (fun r => { r with status := .superseded }) fun _ => rfl }

/-- `UPDATE ... SET status='ready' ... WHERE generation_id=? AND status='building'`, under
the unique index on the ready generations of a scope. -/
def activate (generationId : String) (count : ℕ) : Except FTSFault FTSTables :=
  match (t.generations.find? generationId).filter fun r => r.status = .building with
  | none => .ok t
  | some row => do
    ensure (∀ r ∈ t.generations.rows, r.status = .ready → r.scope ≠ row.scope) .integrity
    return { t with
      generations := t.generations.replace
        { row with status := .ready, documentCount := count, errorCode := none } }

end FTSTables

section Transactions

variable (store : FTSStore) (t : FTSTables) (call : SyncCall)

/-- The first transaction of `sync`. -/
def beginGeneration : FTSTables :=
  ({ t with
    generations := t.generations.upsert
      { generationId := store.generationId call
        scope := call.scope
        status := .building
        contentHash := store.documentsHash call.documents }
      (fun r => { r with status := .building, documentCount := 0, errorCode := none })
      fun _ => rfl } : FTSTables).deleteGenerationDocuments (store.generationId call)

/-- The second transaction of `sync`. -/
def fillGeneration : Except FTSFault FTSTables := do
  let documents ← orError .integrity (t.documents.insertAll (store.rowsOf call))
  let t : FTSTables := { t with documents }
  let count := (t.documentsOf (store.generationId call)).length
  ensure (count = call.documents.length)
    (.generation "fts_count_mismatch" "FTS generation document count mismatch.")
  ensure (call.failBeforeActivation = false)
    (.generation "fts_sync_injected_failure" "Injected FTS activation failure.")
  (t.supersedeOthers call.scope (store.generationId call)).activate
    (store.generationId call) count

/-- The transaction of the error path of `sync`. -/
def failGeneration (fault : FTSFault) : FTSTables :=
  { t.deleteGenerationDocuments (store.generationId call) with
    generations := t.generations.updateWhere (fun r => r.generationId = store.generationId call)
      (fun r => { r with status := .failed, errorCode := some fault.errorCode }) fun _ => rfl }

end Transactions

/-- What a call does next, or how it ended. -/
inductive SyncPoint
  | check
  | start
  | fill
  | cleanUp (fault : FTSFault)
  | returned (reused : Bool)
  | raised (fault : FTSFault)
  deriving DecidableEq

/-- The next transaction of a call. A locked database raises out of it and rolls it back. -/
def SyncPoint.advance (store : FTSStore) (t : FTSTables) (call : SyncCall) (locked : Bool) :
    SyncPoint → FTSTables × SyncPoint
  | check =>
    if locked then (t, raised .operational)
    else if t.status (store.generationId call) = some .ready then (t, returned true)
    else (t, start)
  | start => if locked then (t, raised .operational) else (beginGeneration store t call, fill)
  | fill =>
    if locked then (t, cleanUp .operational)
    else match fillGeneration store t call with
      | .ok u => (u, returned false)
      | .error fault => (t, cleanUp fault)
  | cleanUp fault =>
    if locked then (t, raised .operational) else (failGeneration store t call fault, raised fault)
  | returned reused => (t, returned reused)
  | raised fault => (t, raised fault)

/-- The tables, the calls so far, and the calls that returned and whose generation no
other one has superseded since. -/
structure FTSRun where
  tables : FTSTables := {}
  calls : List (SyncCall × SyncPoint) := []
  kept : List SyncCall := []

inductive FTSEvent
  | invoke (call : SyncCall)
  | advance (i : ℕ) (locked : Bool)
  deriving DecidableEq

/-- The activation of `call` supersedes the generation of `other`. -/
def Supersedes (store : FTSStore) (t : FTSTables) (call other : SyncCall) : Prop :=
  store.generationId other ≠ store.generationId call ∧
    ∃ r ∈ t.generations.find? (store.generationId other), r.scope = call.scope ∧ r.status = .ready

instance (store : FTSStore) (t : FTSTables) (call other : SyncCall) :
    Decidable (Supersedes store t call other) :=
  inferInstanceAs (Decidable (_ ∧ _))

def keptAfter (store : FTSStore) (t : FTSTables) (kept : List SyncCall) (call : SyncCall) :
    SyncPoint → SyncPoint → List SyncCall
  | .check, .returned _ => kept ++ [call]
  | .fill, .returned _ => kept.filter (fun c => ¬ Supersedes store t call c) ++ [call]
  | _, _ => kept

def FTSRun.perform (store : FTSStore) (s : FTSRun) : FTSEvent → FTSRun
  | .invoke call => { s with calls := s.calls ++ [(call, .check)] }
  | .advance i locked =>
    match s.calls[i]? with
    | none => s
    | some (call, point) =>
      { tables := (point.advance store s.tables call locked).1
        calls := s.calls.set i (call, (point.advance store s.tables call locked).2)
        kept := keptAfter store s.tables s.kept call point
          (point.advance store s.tables call locked).2 }

def ftsMachine (store : FTSStore) : Machine FTSRun FTSEvent := .total (FTSRun.perform store)

def Serves (store : FTSStore) (t : FTSTables) (call : SyncCall) : Prop :=
  (t.readyGeneration call.scope).map GenerationRow.generationId = some (store.generationId call) ∧
    t.documentsOf (store.generationId call) = store.rowsOf call

instance (store : FTSStore) (t : FTSTables) (call : SyncCall) : Decidable (Serves store t call) :=
  inferInstanceAs (Decidable (_ ∧ _))

end CodeResearch.Retrieval
