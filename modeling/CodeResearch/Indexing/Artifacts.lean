import CodeResearch.Library.Result
import CodeResearch.Library.Table

/-!
# The artifacts of an index version

The columns that no check reads are one text. Each artifact table is keyed by
the version and the artifact's own identifier.
-/
namespace CodeResearch.Indexing

structure IndexedFile where
  path : String
  columns : String := ""
  deriving DecidableEq

structure CodeEntity where
  id : String
  parentId : Option String := none
  evidenceRefs : List String := []
  columns : String := ""
  deriving DecidableEq

structure PaperEntity where
  id : String
  evidenceRefs : List String := []
  columns : String := ""
  deriving DecidableEq

structure KnowledgeEdge where
  id : String
  sourceId : String
  targetId : Option String := none
  evidenceRefs : List String := []
  columns : String := ""
  deriving DecidableEq

structure EvidenceRef where
  id : String
  entityId : Option String := none
  columns : String := ""
  deriving DecidableEq

structure SymbolChunk where
  id : String
  entityId : String
  columns : String := ""
  deriving DecidableEq

@[ext] structure IndexArtifacts where
  indexedFiles : List IndexedFile := []
  codeEntities : List CodeEntity := []
  paperEntities : List PaperEntity := []
  edges : List KnowledgeEdge := []
  evidence : List EvidenceRef := []
  chunks : List SymbolChunk := []
  deriving DecidableEq

inductive StoreFault
  /-- `IndexBusyError` -/
  | busy (message : String)
  | runtime (message : String)
  | value (message : String)
  /-- `sqlite3.IntegrityError` -/
  | integrity
  deriving DecidableEq

/-- The value of an optional reference that is neither missing nor empty. -/
def reference (id : Option String) : Option String := id.filter (· ≠ "")

def IndexArtifacts.entityIds (a : IndexArtifacts) : List String :=
  a.codeEntities.map CodeEntity.id ++ a.paperEntities.map PaperEntity.id

def IndexArtifacts.evidenceIds (a : IndexArtifacts) : List String := a.evidence.map EvidenceRef.id

/-- `_validate_artifacts`. -/
def validateArtifacts (a : IndexArtifacts) : Except StoreFault Unit := do
  a.codeEntities.forM fun entity => do
    ensure (∀ parent ∈ reference entity.parentId, parent ∈ a.entityIds)
      (.value ("Code entity " ++ entity.id ++ " has missing parent " ++
        entity.parentId.getD "" ++ "."))
    ensure (∀ ref ∈ entity.evidenceRefs, ref ∈ a.evidenceIds)
      (.value ("Code entity " ++ entity.id ++ " references missing evidence."))
  a.paperEntities.forM fun entity =>
    ensure (∀ ref ∈ entity.evidenceRefs, ref ∈ a.evidenceIds)
      (.value ("Paper entity " ++ entity.id ++ " references missing evidence."))
  a.edges.forM fun edge => do
    ensure (edge.sourceId ∈ a.entityIds)
      (.value ("Edge " ++ edge.id ++ " has missing source " ++ edge.sourceId ++ "."))
    ensure (∀ target ∈ reference edge.targetId, target ∈ a.entityIds)
      (.value ("Edge " ++ edge.id ++ " has missing target " ++ edge.targetId.getD "" ++ "."))
    ensure (∀ ref ∈ edge.evidenceRefs, ref ∈ a.evidenceIds)
      (.value ("Edge " ++ edge.id ++ " references missing evidence."))
  a.chunks.forM fun chunk =>
    ensure (chunk.entityId ∈ a.entityIds)
      (.value ("Chunk " ++ chunk.id ++ " has missing entity " ++ chunk.entityId ++ "."))
  a.evidence.forM fun item =>
    ensure (∀ entity ∈ reference item.entityId, entity ∈ a.entityIds)
      (.value ("Evidence " ++ item.id ++ " has missing entity " ++ item.entityId.getD "" ++ "."))

/-- A row of an artifact table. -/
structure Versioned (α : Type) where
  indexVersionId : String
  item : α
  deriving DecidableEq

/-- `PRIMARY KEY(index_version_id, id)`. -/
def Versioned.key {α : Type} (id : α → String) (row : Versioned α) : String × String :=
  (row.indexVersionId, id row.item)

abbrev ArtifactTable {α : Type} (id : α → String) := Table (Versioned.key id)

namespace ArtifactTable

variable {α : Type} {id : α → String}

def itemsOf (t : ArtifactTable id) (version : String) : List α :=
  (t.rows.filter fun row => row.indexVersionId = version).map Versioned.item

def replaceItems (t : ArtifactTable id) (version : String) (items : List α) :
    Except StoreFault (ArtifactTable id) :=
  orError .integrity <|
    (t.deleteWhere fun row => row.indexVersionId = version).insertAll
      (items.map fun item => ⟨version, item⟩)

/-- A replacement sets the artifacts of its version and of no other. -/
theorem itemsOf_replaceItems {t u : ArtifactTable id} {version : String} {items : List α}
    (h : t.replaceItems version items = .ok u) (other : String) :
    u.itemsOf other = if other = version then items else t.itemsOf other := by
  rw [replaceItems, orError_eq_ok_iff] at h
  unfold itemsOf
  rw [Table.rows_insertAll h, Table.rows_deleteWhere, List.filter_append, List.filter_filter,
    List.filter_map, List.map_append, List.map_map]
  by_cases hother : other = version
  · subst hother
    have hold : (t.rows.filter fun row => decide (row.indexVersionId = other) &&
        !decide (row.indexVersionId = other)) = [] := by simp
    have hnew : (items.filter ((fun row : Versioned α => decide (row.indexVersionId = other)) ∘
        fun item => ⟨other, item⟩)) = items := by simp
    rw [hold, hnew, if_pos rfl]
    simp [Function.comp_def]
  · have hold : (t.rows.filter fun row => decide (row.indexVersionId = other) &&
        !decide (row.indexVersionId = version)) =
        t.rows.filter fun row => decide (row.indexVersionId = other) := by
      apply List.filter_congr
      intro row _
      by_cases hrow : row.indexVersionId = other <;> simp [hrow, hother]
    have hnew : (items.filter ((fun row : Versioned α => decide (row.indexVersionId = other)) ∘
        fun item => ⟨version, item⟩)) = [] := by
      rw [List.filter_eq_nil_iff]
      simp [Ne.symm hother]
    rw [hold, hnew, if_neg hother]
    simp

end ArtifactTable

structure ArtifactTables where
  indexedFiles : ArtifactTable IndexedFile.path := .empty
  codeEntities : ArtifactTable CodeEntity.id := .empty
  paperEntities : ArtifactTable PaperEntity.id := .empty
  knowledgeEdges : ArtifactTable KnowledgeEdge.id := .empty
  evidenceRefs : ArtifactTable EvidenceRef.id := .empty
  symbolChunks : ArtifactTable SymbolChunk.id := .empty

namespace ArtifactTables

def itemsOf (t : ArtifactTables) (version : String) : IndexArtifacts where
  indexedFiles := t.indexedFiles.itemsOf version
  codeEntities := t.codeEntities.itemsOf version
  paperEntities := t.paperEntities.itemsOf version
  edges := t.knowledgeEdges.itemsOf version
  evidence := t.evidenceRefs.itemsOf version
  chunks := t.symbolChunks.itemsOf version

/-- `_replace_artifacts`. -/
def replaceArtifacts (t : ArtifactTables) (version : String) (a : IndexArtifacts) :
    Except StoreFault ArtifactTables := do
  let indexedFiles ← t.indexedFiles.replaceItems version a.indexedFiles
  let codeEntities ← t.codeEntities.replaceItems version a.codeEntities
  let paperEntities ← t.paperEntities.replaceItems version a.paperEntities
  let knowledgeEdges ← t.knowledgeEdges.replaceItems version a.edges
  let evidenceRefs ← t.evidenceRefs.replaceItems version a.evidence
  let symbolChunks ← t.symbolChunks.replaceItems version a.chunks
  return { indexedFiles, codeEntities, paperEntities, knowledgeEdges, evidenceRefs, symbolChunks }

/-- The check of one table in `_validate_persisted_counts`. -/
def validateCount (table : String) (expected actual : ℕ) : Except StoreFault Unit :=
  ensure (actual = expected)
    (.value ("Structured index activation count mismatch for " ++ table ++ ": expected " ++
      toString expected ++ ", got " ++ toString actual ++ "."))

/-- `_validate_persisted_counts`. -/
def validatePersistedCounts (t : ArtifactTables) (version : String) (a : IndexArtifacts) :
    Except StoreFault Unit := do
  let stored := t.itemsOf version
  validateCount "indexed_files" a.indexedFiles.length stored.indexedFiles.length
  validateCount "code_entities" a.codeEntities.length stored.codeEntities.length
  validateCount "paper_entities" a.paperEntities.length stored.paperEntities.length
  validateCount "knowledge_edges" a.edges.length stored.edges.length
  validateCount "evidence_refs" a.evidence.length stored.evidence.length
  validateCount "symbol_chunks" a.chunks.length stored.chunks.length

theorem itemsOf_replaceArtifacts {t u : ArtifactTables} {version : String} {a : IndexArtifacts}
    (h : t.replaceArtifacts version a = .ok u) (other : String) :
    u.itemsOf other = if other = version then a else t.itemsOf other := by
  simp only [replaceArtifacts, except_bind_eq_ok_iff, except_pure_eq_ok_iff] at h
  obtain ⟨_, hfiles, _, hcode, _, hpaper, _, hedges, _, hevidence, _, hchunks, rfl⟩ := h
  unfold itemsOf
  rw [ArtifactTable.itemsOf_replaceItems hfiles, ArtifactTable.itemsOf_replaceItems hcode,
    ArtifactTable.itemsOf_replaceItems hpaper, ArtifactTable.itemsOf_replaceItems hedges,
    ArtifactTable.itemsOf_replaceItems hevidence, ArtifactTable.itemsOf_replaceItems hchunks]
  split_ifs <;> rfl

end ArtifactTables

end CodeResearch.Indexing
