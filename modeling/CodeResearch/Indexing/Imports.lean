import CodeResearch.Indexing.Symbols
import Mathlib.Data.Rat.Defs

/-!
# Imports of the repository

An import statement asks for an absolute name, and the symbol table is searched for the
entities that carry it. Files, directories, definitions and everything else that has the name
compete, so an import reaches what it names where nothing else has the name.
-/
namespace CodeResearch.Indexing.Imports

open Analysis (Node)
open Symbols

/-- An entry of the `imports` of a parsed file. -/
structure ImportItem where
  /-- the module, after the dots of a relative import -/
  module : String
  name : Option String
  asname : Option String
  /-- `import_type` is `from_import`. -/
  fromImport : Bool
  lineNo : Option ℕ
deriving DecidableEq

mutual

/-- The `imports` of `_AstCollector`. -/
def importItems : Node → List ImportItem
  | .mk (.importStmt names) lineno _ _ _ =>
    names.map fun a => ⟨a.name, none, a.asname, false, lineno⟩
  | .mk (.importFrom module names level) lineno _ _ _ =>
    names.map fun a => ⟨String.ofList (List.replicate level '.') ++ module.getD "", some a.name,
      a.asname, true, lineno⟩
  | .mk _ _ _ _ children => importItemsAll children

def importItemsAll : List (Analysis.Field × Node) → List ImportItem
  | [] => []
  | (_, n) :: rest => importItems n ++ importItemsAll rest

end

def statements (f : SourceFile) : List ImportItem := (f.tree.map importItems).getD []

/-- The `imports` of a parsed file. -/
def imports (f : SourceFile) : List ImportItem := (f.parsed.map importItems).getD []

def level (module : List Char) : ℕ := (module.takeWhile (· = '.')).length

def packageParts (currentModule : String) (isPackage : Bool) : List (List Char) :=
  if isPackage then currentModule.toList.splitOn '.'
  else (currentModule.toList.splitOn '.').dropLast

/-- `resolve_relative_module`. -/
def resolveRelativeModule (module currentModule : String) (isPackage : Bool) : String :=
  let parts := packageParts currentModule isPackage
  let climb := level module.toList - 1
  if level module.toList = 0 then module
  else if parts.length < climb then module
  else String.ofList (List.intercalate ['.'] (parts.take (parts.length - climb) ++
    ((module.toList.drop (level module.toList)).splitOn '.').filter (· ≠ [])))

namespace ImportItem

variable (item : ImportItem)

/-- `name` of an import that binds a name of a module. -/
def member : Option String :=
  if item.fromImport then item.name.filter fun name => name ≠ "" ∧ name ≠ "*" else none

/-- `alias`, unless it is empty. -/
def renamed : Option String := item.asname.filter (· ≠ "")

/-- The first result of `_requested_name`. -/
def requestedName (currentModule : String) (isPackage : Bool) : String :=
  let module := resolveRelativeModule item.module currentModule isPackage
  match item.member with
  | some name => if module = "" then name else module ++ "." ++ name
  | none => module

/-- The second result of `_requested_name`. -/
def localName : String :=
  match item.member with
  | some name => item.renamed.getD name
  | none => item.renamed.getD
    (String.ofList ((item.module.toList.dropWhile (· = '.')).takeWhile (· ≠ '.')))

/-- `_display_requested`. -/
def displayRequested : String :=
  match item.name.filter (· ≠ "") with
  | some name => item.module ++ "." ++ name
  | none => item.module

/-- The name an import asks for: a relative import stays in the package of its module. -/
def absoluteName (currentModule : String) (isPackage : Bool) : Option String :=
  if level item.module.toList ≤ (packageParts currentModule isPackage).length then
    some (item.requestedName currentModule isPackage)
  else none

end ImportItem

/-- The identifiers of edges: digests of their source and of their target or symbol. -/
inductive EdgeId
  | resolved (source target : EntityId)
  | unresolved (source : EntityId) (symbol : String)
deriving DecidableEq

abbrev Evidence := Path × Option ℕ × String

/-- A `KnowledgeEdge` of the type `IMPORTS`. -/
structure Edge where
  sourceId : EntityId
  targetId : Option EntityId
  confidence : ℚ
  resolutionType : Resolution
  unresolvedSymbol : Option String
  evidenceRefs : List Evidence
  localName : String
  requestedName : String
deriving DecidableEq

/-- `knowledge_edge_id`. -/
def Edge.id (e : Edge) : EdgeId :=
  match e.targetId with
  | some target => .resolved e.sourceId target
  | none => .unresolved e.sourceId (e.unresolvedSymbol.getD "")

def Edge.join (e item : Edge) : Edge :=
  { e with evidenceRefs := firstBy (fun ref => ref) (e.evidenceRefs ++ item.evidenceRefs) }

/-- The loop body of `_merge_edges`. -/
def addEdge (merged : List Edge) (item : Edge) : List Edge :=
  if item.id ∈ merged.map Edge.id then
    merged.map fun e => if e.id = item.id then e.join item else e
  else merged ++ [item]

/-- `_merge_edges`. -/
def mergeEdges (items : List Edge) : List Edge := items.foldl addEdge []

structure ResolvedImport where
  localName : String
  requestedName : String
  targetQualifiedName : String
  target : Option Entity
  resolutionType : Resolution
  lineNo : Option ℕ
deriving DecidableEq

/-- `_import_candidates`. -/
def importCandidates (table : SymbolTable) (qualified : String) : List Entity :=
  lastBy Entity.id (table.resolve qualified ++ table.modules qualified)

/-- `path.endswith("/__init__.py") or path == "__init__.py"`. -/
def isPackage (p : Path) : Bool :=
  "/__init__.py".toList <:+ posix p || posix p = "__init__.py".toList

/-- `source.module_name or source.qualified_name`. -/
def currentModule (source : Entity) : String :=
  (source.moduleName.filter (· ≠ "")).getD source.qualifiedName

def resolveItem (table : SymbolTable) (source : Entity) (path : Path) (item : ImportItem) :
    ResolvedImport :=
  let requested := item.requestedName (currentModule source) (isPackage path)
  let chosen := selectCandidates (importCandidates table requested)
  { localName := item.localName
    requestedName := item.displayRequested
    targetQualifiedName := requested
    target := chosen.1
    resolutionType :=
      if item.renamed.isSome then (if chosen.1.isSome then .aliased else chosen.2)
      else if item.module.toList.head? = some '.' ∧ chosen.1.isSome then .relative
      else chosen.2
    lineNo := item.lineNo }

def importEdge (source : Entity) (path : Path) (r : ResolvedImport) : Edge where
  sourceId := source.id
  targetId := r.target.map Entity.id
  confidence :=
    if r.target.isSome then 1 else if r.resolutionType = .ambiguous then 1 / 2 else 1 / 5
  resolutionType := r.resolutionType
  unresolvedSymbol := if r.target.isSome then none else some r.targetQualifiedName
  evidenceRefs := [(path, r.lineNo, r.targetQualifiedName)]
  localName := r.localName
  requestedName := r.requestedName

def resolvedImports (table : SymbolTable) (f : SourceFile) : List ResolvedImport :=
  match table.fileEntity? f.path with
  | some source => (imports f).map (resolveItem table source f.path)
  | none => []

def fileEdges (table : SymbolTable) (f : SourceFile) : List Edge :=
  match table.fileEntity? f.path with
  | some source => (resolvedImports table f).map (importEdge source f.path)
  | none => []

/-- `bindings.get(path, {}).get(name)` of `resolve_imports`. -/
def binding (table : SymbolTable) (f : SourceFile) (name : String) : Option ResolvedImport :=
  dictBy ResolvedImport.localName (resolvedImports table f) name

/-- The edges of `resolve_imports`. -/
def resolveImports (table : SymbolTable) (files : List SourceFile) : List Edge :=
  mergeEdges (files.flatMap (fileEdges table))

theorem ends_eq_of_id {e e' : Edge} (h : e.id = e'.id) :
    e.sourceId = e'.sourceId ∧ e.targetId = e'.targetId := by
  unfold Edge.id at h
  cases he : e.targetId with
  | none =>
    cases he' : e'.targetId with
    | none =>
      rw [he, he'] at h
      exact ⟨(EdgeId.unresolved.inj h).1, rfl⟩
    | some target =>
      rw [he, he'] at h
      cases h
  | some target =>
    cases he' : e'.targetId with
    | none =>
      rw [he, he'] at h
      cases h
    | some target' =>
      rw [he, he'] at h
      obtain ⟨hsource, htarget⟩ := EdgeId.resolved.inj h
      exact ⟨hsource, congrArg some htarget⟩

@[simp] theorem id_join (e item : Edge) : (e.join item).id = e.id := rfl

theorem mem_evidenceRefs_join {e item : Edge} {ref : Evidence} :
    ref ∈ (e.join item).evidenceRefs ↔ ref ∈ e.evidenceRefs ∨ ref ∈ item.evidenceRefs := by
  have h := @mem_map_firstBy _ _ _ (fun ref : Evidence => ref) (e.evidenceRefs ++ item.evidenceRefs) ref
  rw [List.map_id', List.map_id', List.mem_append] at h
  exact h

/-- The merged edges have the evidence of the edges with their identifier. -/
structure Merges (items merged : List Edge) : Prop where
  covers : ∀ item ∈ items, ∀ ref ∈ item.evidenceRefs,
    ∃ e ∈ merged, e.id = item.id ∧ ref ∈ e.evidenceRefs
  sound : ∀ e ∈ merged, ∀ ref ∈ e.evidenceRefs,
    ∃ item ∈ items, item.id = e.id ∧ ref ∈ item.evidenceRefs

theorem Merges.add {items merged : List Edge} (h : Merges items merged) (item : Edge) :
    Merges (items ++ [item]) (addEdge merged item) := by
  unfold addEdge
  by_cases hmem : item.id ∈ merged.map Edge.id
  · rw [if_pos hmem]
    constructor
    · intro other hother ref href
      rcases List.mem_append.mp hother with hold | hnew
      · obtain ⟨e, he, hid, hrefs⟩ := h.covers other hold ref href
        refine ⟨_, List.mem_map_of_mem he, ?_, ?_⟩
        · split_ifs <;> exact hid
        · split_ifs
          · exact mem_evidenceRefs_join.mpr (.inl hrefs)
          · exact hrefs
      · obtain rfl := List.mem_singleton.mp hnew
        obtain ⟨e, he, hid⟩ := List.mem_map.mp hmem
        refine ⟨_, List.mem_map_of_mem he, ?_, ?_⟩
        · rw [if_pos hid, id_join, hid]
        · rw [if_pos hid]
          exact mem_evidenceRefs_join.mpr (.inr href)
    · intro e he ref href
      obtain ⟨old, hold, rfl⟩ := List.mem_map.mp he
      by_cases hid : old.id = item.id
      · rw [if_pos hid] at href ⊢
        rcases mem_evidenceRefs_join.mp href with href | href
        · obtain ⟨other, hother, hsame, hrefs⟩ := h.sound old hold ref href
          exact ⟨other, List.mem_append_left _ hother, hsame, hrefs⟩
        · exact ⟨item, List.mem_append_right _ List.mem_cons_self, hid.symm, href⟩
      · rw [if_neg hid] at href ⊢
        obtain ⟨other, hother, hsame, hrefs⟩ := h.sound old hold ref href
        exact ⟨other, List.mem_append_left _ hother, hsame, hrefs⟩
  · rw [if_neg hmem]
    constructor
    · intro other hother ref href
      rcases List.mem_append.mp hother with hold | hnew
      · obtain ⟨e, he, hid, hrefs⟩ := h.covers other hold ref href
        exact ⟨e, List.mem_append_left _ he, hid, hrefs⟩
      · obtain rfl := List.mem_singleton.mp hnew
        exact ⟨other, List.mem_append_right _ List.mem_cons_self, rfl, href⟩
    · intro e he ref href
      rcases List.mem_append.mp he with hold | hnew
      · obtain ⟨other, hother, hsame, hrefs⟩ := h.sound e hold ref href
        exact ⟨other, List.mem_append_left _ hother, hsame, hrefs⟩
      · obtain rfl := List.mem_singleton.mp hnew
        exact ⟨e, List.mem_append_right _ List.mem_cons_self, rfl, href⟩

theorem merges_mergeEdges (items : List Edge) : Merges items (mergeEdges items) := by
  induction items using List.reverseRecOn with
  | nil =>
    constructor
    · intro item h
      cases h
    · intro e h
      cases h
  | append_singleton items item ih =>
    rw [mergeEdges, List.foldl_append]
    exact ih.add item

variable {repo : Repository} {digest : EntityId → String}

theorem importCandidates_table (q : String) :
    importCandidates (repo.table digest) q = (repo.table digest).resolve q := by
  apply lastBy_append_of_subset
  · have hperm := (@perm_sortedBy _ _ _ (candidateKey digest)
      (repo.entities.filter (·.qualifiedName = q))).map Entity.id
    exact hperm.nodup_iff.mpr ((List.filter_sublist.map Entity.id).nodup Repository.nodup_ids)
  · intro e he
    obtain ⟨hmem, _, hname⟩ := (repo.table digest).mem_modules.mp he
    exact (repo.table digest).mem_resolve.mpr ⟨hmem, hname⟩

def chosen (repo : Repository) (digest : EntityId → String) (q : String) : Option Entity :=
  (selectCandidates ((repo.table digest).resolve q)).1

theorem currentModule_fileEntity (f : SourceFile) :
    currentModule (repo.fileEntity f) = repo.moduleName f := by
  unfold currentModule Repository.fileEntity Entity.plain
  by_cases h : repo.moduleName f = ""
  · simp [Option.filter, h]
  · simp [Option.filter, h]

def requested (repo : Repository) (f : SourceFile) (item : ImportItem) : String :=
  item.requestedName (repo.moduleName f) (isPackage f.path)

variable {f : SourceFile} {line : Option ℕ}

theorem fileEdges_table (hf : f ∈ repo.files) :
    fileEdges (repo.table digest) f = (imports f).map fun item =>
      importEdge (repo.fileEntity f) f.path
        (resolveItem (repo.table digest) (repo.fileEntity f) f.path item) := by
  rw [fileEdges, resolvedImports, repo.fileEntity?_table digest hf]
  dsimp only
  rw [List.map_map]
  rfl

theorem targetId_importEdge (f : SourceFile) (item : ImportItem) :
    (importEdge (repo.fileEntity f) f.path
      (resolveItem (repo.table digest) (repo.fileEntity f) f.path item)).targetId =
      (chosen repo digest (requested repo f item)).map Entity.id := by
  rw [importEdge, resolveItem, currentModule_fileEntity, importCandidates_table]
  rfl

theorem evidenceRefs_importEdge (f : SourceFile) (item : ImportItem) :
    (importEdge (repo.fileEntity f) f.path
      (resolveItem (repo.table digest) (repo.fileEntity f) f.path item)).evidenceRefs =
      [(f.path, item.lineNo, requested repo f item)] := by
  rw [importEdge, resolveItem, currentModule_fileEntity]
  rfl

/-- Every import of a file that was collected has an edge. -/
theorem exists_edge (hf : f ∈ repo.files) {item : ImportItem} (hitem : item ∈ imports f) :
    ∃ edge ∈ resolveImports (repo.table digest) repo.files,
      (f.path, item.lineNo, requested repo f item) ∈ edge.evidenceRefs ∧
      edge.sourceId = (repo.fileEntity f).id ∧
      edge.targetId = (chosen repo digest (requested repo f item)).map Entity.id := by
  have hedge : importEdge (repo.fileEntity f) f.path
      (resolveItem (repo.table digest) (repo.fileEntity f) f.path item) ∈
      repo.files.flatMap (fileEdges (repo.table digest)) := by
    refine List.mem_flatMap.mpr ⟨f, hf, ?_⟩
    rw [fileEdges_table hf]
    exact List.mem_map_of_mem hitem
  obtain ⟨edge, hmem, hid, href⟩ := (merges_mergeEdges _).covers _ hedge
    (f.path, item.lineNo, requested repo f item) (by
      rw [evidenceRefs_importEdge]
      exact List.mem_cons_self)
  obtain ⟨hsource, htarget⟩ := ends_eq_of_id hid
  exact ⟨edge, hmem, href, hsource, htarget.trans (targetId_importEdge f item)⟩

/-- An edge with the evidence of a name in a file goes where the name is resolved to. -/
theorem of_evidence (hf : f ∈ repo.files) {edge : Edge}
    (hedge : edge ∈ resolveImports (repo.table digest) repo.files) {q : String}
    (href : (f.path, line, q) ∈ edge.evidenceRefs) :
    f.collected ∧ edge.targetId = (chosen repo digest q).map Entity.id := by
  obtain ⟨own, hown, hid, href⟩ := (merges_mergeEdges _).sound edge hedge _ href
  obtain ⟨g, hg, hown⟩ := List.mem_flatMap.mp hown
  rw [fileEdges_table hg] at hown
  obtain ⟨item, hitem, rfl⟩ := List.mem_map.mp hown
  rw [evidenceRefs_importEdge, List.mem_singleton, Prod.mk.injEq, Prod.mk.injEq] at href
  obtain ⟨hpath, _, rfl⟩ := href
  obtain rfl := Repository.eq_of_path hf hg hpath
  constructor
  · unfold imports at hitem
    cases hparsed : f.parsed with
    | none =>
      rw [hparsed] at hitem
      cases hitem
    | some t => exact (f.parsed_eq_some_iff.mp hparsed).1
  · rw [← (ends_eq_of_id hid).2, targetId_importEdge]

/-- A class or a function that is defined outside of classes and functions. -/
structure Definition where
  type : EntityType
  name : String
  line : Option ℕ
deriving DecidableEq

def definitionOf (n : Node) : Option Definition :=
  match n.kind with
  | .classDef name => some ⟨.cls, name, n.lineno⟩
  | .functionDef name | .asyncFunctionDef name => some ⟨.function, name, n.lineno⟩
  | _ => none

/-- The definitions that no condition, loop or `try` surrounds. -/
def topLevel (f : SourceFile) : List Definition :=
  (f.tree.map fun t => (t.field .body).filterMap definitionOf).getD []

mutual

/-- The definitions of a statement at the level of its module. -/
def definitionsOf : Node → List Definition
  | .mk (.classDef name) lineno _ _ _ => [⟨.cls, name, lineno⟩]
  | .mk (.functionDef name) lineno _ _ _ => [⟨.function, name, lineno⟩]
  | .mk (.asyncFunctionDef name) lineno _ _ _ => [⟨.function, name, lineno⟩]
  | .mk _ _ _ _ children => definitionsOfAll children

def definitionsOfAll : List (Analysis.Field × Node) → List Definition
  | [] => []
  | (_, n) :: rest => definitionsOf n ++ definitionsOfAll rest

end

def moduleLevel (f : SourceFile) : List Definition := (f.tree.map definitionsOf).getD []

section Meaning

variable (repo : Repository) (q : String)

def definedName (f : SourceFile) (d : Definition) : String := repo.moduleName f ++ "." ++ d.name

def modulesNamed : List SourceFile := repo.files.filter fun f => repo.moduleName f = q

def definitionsNamed : List (SourceFile × Definition) :=
  repo.files.flatMap fun f =>
    ((topLevel f).filter fun d => definedName repo f d = q).map fun d => (f, d)

/-- The name is that of exactly one file, or of exactly one unconditional definition. -/
def Importable : Prop :=
  (modulesNamed repo q).length = 1 ∨ (definitionsNamed repo q).length = 1

/-- The entity of the one file or of the one definition with the name. -/
inductive Referent : Entity → Prop
  | file {f : SourceFile} (hf : f ∈ repo.files) (hname : repo.moduleName f = q)
      (honly : (modulesNamed repo q).length = 1) : Referent (repo.fileEntity f)
  | definition {f : SourceFile} {d : Definition} (hd : (f, d) ∈ definitionsNamed repo q)
      (honly : (definitionsNamed repo q).length = 1) {e : Entity} (htype : e.type = d.type)
      (hpath : e.path = f.path) (hname : e.qualifiedName = q) (hline : e.startLine = d.line) :
      Referent e

/-- The name is neither that of a module or a directory nor that of a definition of a module. -/
structure Foreign : Prop where
  module : ∀ f ∈ repo.files, repo.moduleName f ≠ q
  directory : ∀ f ∈ repo.files, ∀ directory ∈ f.path.dropLast.inits.tail,
    String.ofList (dotted (posix directory)) ≠ q
  definition : ∀ f ∈ repo.files, ∀ d ∈ moduleLevel f, definedName repo f d ≠ q

def named : List Entity := repo.entities.filter (·.qualifiedName = q)

/-- Entities of which the last is taken for all. -/
def AllRepeated : Prop := ∀ e ∈ named repo q, e.duplicateSymbol ∧ e.duplicateResolutionSafe

def Read : Prop :=
  (modulesNamed repo q).length = 1 ∨ ∃ p ∈ definitionsNamed repo q, p.1.collected

end Meaning

/-- What imports promise: an import of a module or of a top-level definition has an edge to it,
and an import of nothing in the repository has no edge into it. -/
def Resolves (repo : Repository) (digest : EntityId → String) (f : SourceFile)
    (item : ImportItem) : Prop :=
  ∀ q, item.absoluteName (repo.moduleName f) (isPackage f.path) = some q →
    (Importable repo q → ∃ edge ∈ resolveImports (repo.table digest) repo.files,
      (f.path, item.lineNo, q) ∈ edge.evidenceRefs ∧ edge.sourceId = (repo.fileEntity f).id ∧
      ∃ e ∈ repo.entities, Referent repo q e ∧ edge.targetId = some e.id) ∧
    (Foreign repo q → ∀ edge ∈ resolveImports (repo.table digest) repo.files,
      (f.path, item.lineNo, q) ∈ edge.evidenceRefs → edge.targetId = none)

def Unshadowed (repo : Repository) (f : SourceFile) (item : ImportItem) : Prop :=
  ∀ q, item.absoluteName (repo.moduleName f) (isPackage f.path) = some q →
    (Importable repo q → f.collected ∧ (named repo q).length = 1 ∧ Read repo q) ∧
    (Foreign repo q → f.collected → named repo q = [] ∨
      1 < (named repo q).length ∧ ¬ AllRepeated repo q)

section Entities

variable {repo : Repository} {digest : EntityId → String} {q : String}

theorem collect_sub {owner : Option String} {children : List (Analysis.Field × Node)} {n : Node}
    (hn : n ∈ children.map Prod.snd) {d : Declaration} (hd : d ∈ collect owner n) :
    d ∈ collectAll owner children := by
  induction children with
  | nil => cases hn
  | cons child rest ih =>
    obtain ⟨field, m⟩ := child
    rw [collectAll]
    rcases List.mem_cons.mp hn with rfl | hn
    · exact List.mem_append_left _ hd
    · exact List.mem_append_right _ (ih hn)

variable {f : SourceFile} {e : Entity}

/-- A definition is declared where it stands. -/
theorem exists_declaration (hcollected : f.collected) {d : Definition} (hd : d ∈ topLevel f) :
    ∃ c ∈ f.declarations, c.type = d.type ∧ c.name = d.name ∧ c.startLine = d.line ∧
      ∀ module, c.qualified module = module ++ "." ++ d.name := by
  unfold topLevel at hd
  cases htree : f.tree with
  | none =>
    rw [htree] at hd
    cases hd
  | some t =>
    rw [htree] at hd
    obtain ⟨n, hn, hdef⟩ := List.mem_filterMap.mp hd
    have hparsed : f.parsed = some t := f.parsed_eq_some_iff.mpr ⟨hcollected, htree⟩
    have hchild : n ∈ t.children := by
      obtain ⟨child, hchild, rfl⟩ := List.mem_map.mp hn
      exact List.mem_map_of_mem (List.mem_of_mem_filter hchild)
    have hcollect : ∀ c ∈ collect none n, c ∈ f.declarations := by
      intro c hc
      refine f.mem_declarations.mpr ⟨t, hparsed, ?_⟩
      have hmodule := f.module t htree
      obtain ⟨kind, lineno, text, segment, children⟩ := t
      obtain rfl : kind = .other "Module" := hmodule
      rw [collect]
      · exact collect_sub hchild hc
      all_goals nofun
    obtain ⟨kind, lineno, text, segment, children⟩ := n
    unfold definitionOf at hdef
    cases kind with
    | classDef name =>
      obtain rfl := Option.some.inj hdef
      exact ⟨⟨.cls, name, some name, lineno⟩, hcollect _ (by
        rw [collect]
        exact List.mem_cons_self), rfl, rfl, rfl, fun _ => rfl⟩
    | functionDef name | asyncFunctionDef name =>
      obtain rfl := Option.some.inj hdef
      exact ⟨.ofFunction none name lineno, hcollect _ (by
        rw [collect]
        exact List.mem_cons_self), rfl, rfl, rfl, fun _ => rfl⟩
    | _ => cases hdef

theorem type_of_topLevel {d : Definition} (h : d ∈ topLevel f) :
    d.type = .cls ∨ d.type = .function := by
  unfold topLevel at h
  cases htree : f.tree with
  | none =>
    rw [htree] at h
    cases h
  | some t =>
    rw [htree] at h
    obtain ⟨n, _, hdef⟩ := List.mem_filterMap.mp h
    unfold definitionOf at hdef
    cases hkind : n.kind <;> rw [hkind] at hdef <;> cases hdef <;> simp

theorem mem_definitionsNamed {p : SourceFile × Definition} :
    p ∈ definitionsNamed repo q ↔
      p.1 ∈ repo.files ∧ p.2 ∈ topLevel p.1 ∧ definedName repo p.1 p.2 = q := by
  obtain ⟨f, d⟩ := p
  simp only [definitionsNamed, List.mem_flatMap, List.mem_map, List.mem_filter, decide_eq_true_eq,
    Prod.mk.injEq]
  constructor
  · rintro ⟨g, hg, c, ⟨hc, hname⟩, rfl, rfl⟩
    exact ⟨hg, hc, hname⟩
  · rintro ⟨hf, hd, hname⟩
    exact ⟨f, hf, d, ⟨hd, hname⟩, rfl, rfl⟩

theorem fileEntity_mem_named (hf : f ∈ repo.files)
    (hname : repo.moduleName f = q) : repo.fileEntity f ∈ named repo q :=
  List.mem_filter.mpr ⟨Repository.mem_entities_of_source (Repository.fileEntity_mem hf),
    decide_eq_true hname⟩

theorem declaredEntity_mem_named (hf : f ∈ repo.files) {c : Declaration}
    (hc : c ∈ f.declarations) (hname : c.qualified (repo.moduleName f) = q) :
    ∃ n, repo.declaredEntity f c n ∈ named repo q := by
  obtain ⟨n, hn⟩ := (@Repository.mem_numbered_iff _ repo _).mpr hc
  exact ⟨n, List.mem_filter.mpr ⟨Repository.mem_entities_of_source
    (Repository.declaredEntity_mem hf hn), decide_eq_true hname⟩⟩

theorem exists_referent (himportable : Importable repo q) (hread : Read repo q) :
    ∃ e ∈ named repo q, Referent repo q e := by
  by_cases hmodule : (modulesNamed repo q).length = 1
  · obtain ⟨f, hf⟩ := List.length_eq_one_iff.mp hmodule
    obtain ⟨hmem, hname⟩ := List.mem_filter.mp (hf ▸ List.mem_cons_self : f ∈ modulesNamed repo q)
    have hname := of_decide_eq_true hname
    exact ⟨_, fileEntity_mem_named hmem hname, .file hmem hname hmodule⟩
  · have honly := himportable.resolve_left hmodule
    obtain ⟨⟨f, d⟩, hp, hcollected⟩ := hread.resolve_left hmodule
    obtain ⟨hf, hd, hname⟩ := mem_definitionsNamed.mp hp
    obtain ⟨c, hc, htype, _, hline, hqualified⟩ := exists_declaration hcollected hd
    obtain ⟨n, hn⟩ := declaredEntity_mem_named hf hc ((hqualified _).trans hname)
    exact ⟨_, hn, .definition hp honly htype rfl ((hqualified _).trans hname) hline⟩

theorem eq_of_length_one {α : Type*} {l : List α} (h : l.length = 1) {a b : α} (ha : a ∈ l)
    (hb : b ∈ l) : a = b := by
  obtain ⟨c, rfl⟩ := List.length_eq_one_iff.mp h
  rw [List.mem_singleton.mp ha, List.mem_singleton.mp hb]

/-- A statement of the module adds the key of a function only for itself. -/
theorem function_of_unconditional {owner : Option String} {name : String}
    (h : (EntityType.function, owner, name, line) ∈ f.unconditional) :
    (⟨.function, name, line⟩ : Definition) ∈ topLevel f := by
  unfold SourceFile.unconditional at h
  unfold topLevel
  cases htree : f.tree with
  | none =>
    rw [htree] at h
    cases h
  | some t =>
    rw [htree] at h
    obtain ⟨n, hn, hkey⟩ := List.mem_flatMap.mp h
    refine List.mem_filterMap.mpr ⟨n, hn, ?_⟩
    unfold unconditionalKeys at hkey
    unfold definitionOf
    cases hkind : n.kind with
    | classDef cls => simp [hkind] at hkey
    | functionDef | asyncFunctionDef =>
      rw [hkind] at hkey
      cases List.mem_singleton.mp hkey
      rfl
    | _ => simp [hkind] at hkey

theorem not_mem_unconditional_cls {owner name : String} :
    (EntityType.cls, some owner, name, line) ∉ f.unconditional := by
  unfold SourceFile.unconditional
  cases f.tree with
  | none => exact List.not_mem_nil
  | some t =>
    intro h
    obtain ⟨n, _, hkey⟩ := List.mem_flatMap.mp h
    unfold unconditionalKeys at hkey
    cases hkind : n.kind <;> simp [hkind] at hkey

/-- A declaration that may be repeated safely and is no method is one of the definitions. -/
theorem definition_of_safe (hf : f ∈ repo.files) {c : Declaration}
    (hc : c ∈ f.declarations) (htype : c.type = .cls ∨ c.type = .function)
    (hname : c.qualified (repo.moduleName f) = q)
    (hsafe : (c.type, c.className, c.name, c.startLine) ∈ f.unconditional) :
    (f, ⟨.function, c.name, c.startLine⟩) ∈ definitionsNamed repo q := by
  obtain ⟨t, _, hcollect⟩ := f.mem_declarations.mp hc
  obtain ⟨type, name, className, line⟩ := c
  rcases collect_spec hcollect with ⟨hcls, howner⟩ | ⟨hfunction, howner⟩ | ⟨hmethod, _⟩
  · obtain rfl : type = .cls := hcls
    obtain rfl : className = some name := howner
    exact absurd hsafe not_mem_unconditional_cls
  · obtain rfl : type = .function := hfunction
    obtain rfl : className = none := howner
    exact mem_definitionsNamed.mpr ⟨hf, function_of_unconditional hsafe, hname⟩
  · rcases htype with h | h <;> rw [hmethod] at h <;> cases h

/-- What a name stands for is not repeated. -/
theorem not_allRepeated (he : e ∈ named repo q) (href : Referent repo q e) :
    ¬ AllRepeated repo q := by
  intro hall
  obtain ⟨hmem, _⟩ := List.mem_filter.mp he
  obtain ⟨hduplicate, _⟩ := hall e he
  cases href with
  | file hf hname honly => cases hduplicate
  | @definition f d hd honly _ htype hpath hname hline =>
    obtain ⟨_, htop, _⟩ := mem_definitionsNamed.mp hd
    have hkind := type_of_topLevel htop
    obtain ⟨g, hg, p, hp, rfl⟩ := Repository.exists_declared hmem (htype ▸ hkind)
    have hptype : p.1.type = d.type := htype
    have hcount := of_decide_eq_true hduplicate
    -- The declarations that count as repeated are two, and both are kept.
    obtain ⟨a, ha, b, hb, hne, hka, hkb⟩ :=
      exists_ne_of_one_lt_count hcount (List.Nodup.of_map _ g.nodup_startLines)
    have hboth : ∀ c ∈ g.declarations, c.key (repo.moduleName g) = p.1.key (repo.moduleName g) →
        (g, ⟨.function, c.name, c.startLine⟩) ∈ definitionsNamed repo q := by
      intro c hc hkey
      obtain ⟨hctype, hcname⟩ := Prod.mk.inj hkey
      obtain ⟨n, hn⟩ := declaredEntity_mem_named hg hc (hcname.trans hname)
      exact definition_of_safe hg hc (by
        rw [hctype, hptype]
        exact hkind) (hcname.trans hname) (of_decide_eq_true (hall _ hn).2)
    have heq := eq_of_length_one honly (hboth a ha hka) (hboth b hb hkb)
    have hline : a.startLine = b.startLine :=
      congrArg (fun p : SourceFile × Definition => p.2.line) heq
    exact hne (List.inj_on_of_nodup_map g.nodup_startLines ha hb hline)

theorem read_of_referent (he : e ∈ named repo q) (href : Referent repo q e) : Read repo q := by
  obtain ⟨hmem, _⟩ := List.mem_filter.mp he
  cases href with
  | file hf hname honly => exact .inl honly
  | @definition f d hd honly _ htype hpath hname hline =>
    obtain ⟨hf, htop, _⟩ := mem_definitionsNamed.mp hd
    have hkind := type_of_topLevel htop
    obtain ⟨g, hg, p, hp, rfl⟩ := Repository.exists_declared hmem (htype ▸ hkind)
    obtain rfl := Repository.eq_of_path hg hf hpath
    obtain ⟨t, hparsed, _⟩ := g.mem_declarations.mp (Repository.mem_numbered_iff.mp ⟨p.2, hp⟩)
    exact .inr ⟨_, hd, (g.parsed_eq_some_iff.mp hparsed).1⟩

theorem length_resolve_table :
    ((repo.table digest).resolve q).length = (named repo q).length :=
  (repo.table digest).length_resolve q

theorem mem_resolve_table : e ∈ (repo.table digest).resolve q ↔ e ∈ named repo q := by
  rw [SymbolTable.mem_resolve, named, List.mem_filter, decide_eq_true_eq]
  rfl

/-- What the name stands for is chosen if and only if it is alone with its name. -/
theorem chosen_referent_iff (himportable : Importable repo q) :
    (∃ e ∈ repo.entities, Referent repo q e ∧
        (chosen repo digest q).map Entity.id = some e.id) ↔
      (named repo q).length = 1 ∧ Read repo q := by
  constructor
  · rintro ⟨e, he, href, hid⟩
    obtain ⟨c, hc, hid⟩ := Option.map_eq_some_iff.mp hid
    obtain ⟨hmem, hrest⟩ := of_selectCandidates hc
    have hmem := mem_resolve_table.mp hmem
    obtain rfl := Repository.eq_of_mem_of_id (List.mem_of_mem_filter hmem) he hid
    refine ⟨?_, read_of_referent hmem href⟩
    rcases hrest with hsingle | hall
    · rw [← @length_resolve_table repo digest, hsingle, List.length_singleton]
    · exact absurd (fun d hd => hall d (mem_resolve_table.mpr hd)) (not_allRepeated hmem href)
  · rintro ⟨hlength, hread⟩
    obtain ⟨e, he, href⟩ := exists_referent himportable hread
    refine ⟨e, List.mem_of_mem_filter he, href, ?_⟩
    rw [← @length_resolve_table repo digest] at hlength
    obtain ⟨c, hc⟩ := List.length_eq_one_iff.mp hlength
    have hmem := (@mem_resolve_table repo digest q e).mpr he
    rw [hc, List.mem_singleton] at hmem
    rw [chosen, hc, hmem]
    rfl

theorem chosen_eq_none_iff : (chosen repo digest q).map Entity.id = none ↔
    named repo q = [] ∨ 1 < (named repo q).length ∧ ¬ AllRepeated repo q := by
  rw [Option.map_eq_none_iff, chosen, selectCandidates_eq_none_iff, length_resolve_table,
    ← List.length_eq_zero_iff, length_resolve_table, List.length_eq_zero_iff]
  refine or_congr_right (and_congr_right' (not_congr ?_))
  exact forall_congr' fun e => imp_congr_left mem_resolve_table

end Entities

/-- An import reaches what it names if and only if nothing else carries the name. -/
theorem resolves_iff_unshadowed (repo : Repository) (digest : EntityId → String) {f : SourceFile}
    (hf : f ∈ repo.files) {item : ImportItem} (hitem : item ∈ statements f) :
    Resolves repo digest f item ↔ Unshadowed repo f item := by
  unfold Resolves Unshadowed
  refine forall_congr' fun q => forall_congr' fun hq => ?_
  have hrequested : requested repo f item = q := by
    unfold ImportItem.absoluteName at hq
    split_ifs at hq with hlevel
    exact Option.some.inj hq
  have himports : f.collected → item ∈ imports f := by
    intro hcollected
    rw [imports, SourceFile.parsed, if_pos hcollected]
    exact hitem
  refine and_congr (forall_congr' fun himportable => ?_) (forall_congr' fun _ => ?_)
  · rw [← chosen_referent_iff himportable]
    constructor
    · rintro ⟨edge, hedge, hmem, _, e, he, href, htarget⟩
      obtain ⟨hcollected, hchosen⟩ := of_evidence hf hedge hmem
      exact ⟨hcollected, e, he, href, hchosen.symm.trans htarget⟩
    · rintro ⟨hcollected, e, he, href, hchosen⟩
      obtain ⟨edge, hedge, hmem, hsource, htarget⟩ :=
        @exists_edge repo digest f hf item (himports hcollected)
      rw [hrequested] at hmem htarget
      exact ⟨edge, hedge, hmem, hsource, e, he, href, htarget.trans hchosen⟩
  · rw [← @chosen_eq_none_iff repo digest]
    constructor
    · intro h hcollected
      obtain ⟨edge, hedge, hmem, _, htarget⟩ :=
        @exists_edge repo digest f hf item (himports hcollected)
      rw [hrequested] at hmem htarget
      rw [← htarget]
      exact h edge hedge hmem
    · intro h edge hedge hmem
      obtain ⟨hcollected, htarget⟩ := of_evidence hf hedge hmem
      rw [htarget]
      exact h hcollected

/-! A package and a script that imports it. -/

def packageFile : SourceFile where
  path := ["pkg".toList, "__init__.py".toList]
  role := "ordinary_module"
  tree := some (.mk (.other "Module") none "" none [])
  collected := true
  parses := fun _ => rfl
  module := by
    rintro t ⟨⟩
    rfl
  lines := by
    rintro t ⟨⟩
    exact List.nodup_nil

def scriptFile : SourceFile where
  path := ["main.py".toList]
  role := "ordinary_module"
  tree := some (.mk (.other "Module") none "import pkg" none
    [(.body, .mk (.importStmt [⟨"pkg", none⟩]) (some 1) "import pkg" none [])])
  collected := true
  parses := fun _ => rfl
  module := by
    rintro t ⟨⟩
    rfl
  lines := by
    rintro t ⟨⟩
    exact List.nodup_nil

def importOfPackage : ImportItem := ⟨"pkg", none, none, false, some 1⟩

def packageRepository : Repository where
  rootName := "demo"
  roots := [.repository]
  package := fun directory => directory = ["pkg".toList]
  files := [packageFile, scriptFile]
  distinct := by decide
  models := []
  configs := []
  distinctConfigs := List.nodup_nil

/-- The directory of the package has its name too, so the import has no edge to the package. -/
theorem not_resolves_package : scriptFile ∈ packageRepository.files ∧
    importOfPackage ∈ statements scriptFile ∧
    ¬ Resolves packageRepository (fun _ => "") scriptFile importOfPackage := by
  have hmem : scriptFile ∈ packageRepository.files := List.mem_cons_of_mem _ List.mem_cons_self
  have hnone : chosen packageRepository (fun _ => "") "pkg" = none := by decide +kernel
  have hname : importOfPackage.absoluteName (packageRepository.moduleName scriptFile)
      (isPackage scriptFile.path) = some "pkg" := by decide +kernel
  have honly : (modulesNamed packageRepository "pkg").length = 1 := by decide +kernel
  refine ⟨hmem, by decide +kernel, fun h => ?_⟩
  obtain ⟨edge, hedge, href, _, e, _, _, htarget⟩ := (h "pkg" hname).1 (.inl honly)
  rw [(of_evidence hmem hedge href).2, hnone] at htarget
  cases htarget

theorem resolves_package_iff : importOfPackage ∈ statements scriptFile ∧
    (Resolves packageRepository (fun _ => "") scriptFile importOfPackage ↔
      Unshadowed packageRepository scriptFile importOfPackage) := by
  have hmem : scriptFile ∈ packageRepository.files := List.mem_cons_of_mem _ List.mem_cons_self
  have hitem : importOfPackage ∈ statements scriptFile := by decide +kernel
  exact ⟨hitem, resolves_iff_unshadowed packageRepository (fun _ => "") hmem hitem⟩

end CodeResearch.Indexing.Imports
