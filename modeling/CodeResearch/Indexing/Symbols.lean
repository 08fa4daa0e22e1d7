import CodeResearch.Analysis.Syntax
import CodeResearch.Library.Dict
import CodeResearch.Library.Files
import CodeResearch.Library.Ranking
import Mathlib.Data.List.DropRight
import Mathlib.Data.Prod.Lex
import Mathlib.Data.String.Basic

/-!
# The symbol table of a repository

The entities of a repository are its root, the directories above its Python files, these
files with their declarations, the layers of its models and its other config files. The symbol
table finds them by their qualified names, whatever they are.
-/
namespace CodeResearch.Indexing.Symbols

open Analysis (Node)
open Analysis.Node (IsFunction)

/-- `as_posix`. -/
def posix (p : Path) : List Char := if p = [] then ['.'] else List.intercalate ['/'] p

/-- `text.replace("/", ".")`. -/
def dotted (text : List Char) : List Char := text.map fun c => if c = '/' then '.' else c

/-- An entry of `module_roots`. -/
inductive ModuleRoot
  /-- `.` -/
  | repository
  | directory (path : Path)
deriving DecidableEq

/-- `_relative_to_root`. -/
def ModuleRoot.relative (root : ModuleRoot) (p : Path) : Option Path :=
  match root with
  | .repository => some p
  | .directory path => if path <+: p then some (p.drop path.length) else none

/-- `_classic_package_is_valid`; `package` says that a directory has its `__init__.py`. -/
def classicPackageIsValid (package : Path → Bool) (p : Path) : Bool :=
  p.dropLast.inits.tail.all package

/-- `path[:-3]` without the `/__init__` of a package, with dots. -/
def moduleOf (relative : List Char) : List Char :=
  let path := relative.dropLast.dropLast.dropLast
  let path := if "/__init__".toList <:+ path then path.take (path.length - 9) else path
  ((dotted path).dropWhile (· = '.')).rdropWhile (· = '.')

def ModuleRoot.candidate (root : ModuleRoot) (package : Path → Bool) (p : Path) :
    Option (List Char) :=
  (root.relative p).bind fun relative =>
    if ".py".toList <:+ posix relative ∧
        (root = .repository → classicPackageIsValid package relative) ∧
        moduleOf (posix relative) ≠ [] then
      some (moduleOf (posix relative))
    else none

/-- `module_name_for_path`: the first root that gives a name, or the path itself. -/
def moduleNameForPath (roots : List ModuleRoot) (package : Path → Bool) (p : Path) : String :=
  String.ofList ((roots.findSome? fun root => root.candidate package p).getD
    (dotted (if ".py".toList <:+ posix p then (posix p).dropLast.dropLast.dropLast else posix p)))

inductive EntityType
  | repository | directory
  | file | config | trainingEntry | inferenceEntry | dataset
  | cls | function | method | modelModule
deriving DecidableEq

/-- The entity types of `SymbolTable.modules`. -/
def EntityType.IsModule (type : EntityType) : Prop :=
  type ∈ [EntityType.file, .config, .trainingEntry, .inferenceEntry, .dataset]

instance (type : EntityType) : Decidable type.IsModule :=
  inferInstanceAs (Decidable (type ∈ [EntityType.file, _, _, _, _]))

/-- `FILE_ROLE_ENTITY_TYPES.get(role, "file")`. -/
def fileType (role : String) : EntityType :=
  if role = "config_related" then .config
  else if role = "training" then .trainingEntry
  else if role = "inference" then .inferenceEntry
  else if role = "dataset" then .dataset
  else .file

theorem isModule_fileType (role : String) : (fileType role).IsModule := by
  unfold fileType
  split_ifs <;> decide

/-- An entry of the `classes` or the `functions` of a parsed file. -/
structure Declaration where
  type : EntityType
  /-- `class_name` or `function_name` -/
  name : String
  /-- `class_name` of the entry, for a class its own name -/
  className : Option String
  startLine : Option ℕ
deriving DecidableEq

def Declaration.ofFunction (owner : Option String) (name : String) (lineno : Option ℕ) :
    Declaration :=
  ⟨if owner.isSome then .method else .function, name, owner, lineno⟩

mutual

/-- `_AstCollector`; `owner` is the class on top of its stack. -/
def collect (owner : Option String) : Node → List Declaration
  | .mk (.classDef name) lineno _ _ children =>
    ⟨.cls, name, some name, lineno⟩ :: collectAll (some name) children
  | .mk (.functionDef name) lineno _ _ children =>
    .ofFunction owner name lineno :: collectAll owner children
  | .mk (.asyncFunctionDef name) lineno _ _ children =>
    .ofFunction owner name lineno :: collectAll owner children
  | .mk (.importStmt _) _ _ _ _ => []
  | .mk (.importFrom _ _ _) _ _ _ _ => []
  | .mk _ _ _ _ children => collectAll owner children

def collectAll (owner : Option String) : List (Analysis.Field × Node) → List Declaration
  | [] => []
  | (_, n) :: rest => collect owner n ++ collectAll owner rest

end

variable {d : Declaration}

mutual

/-- The collector meets classes, methods and functions, and a class under its own name. -/
theorem collect_spec {owner : Option String} {n : Node} (h : d ∈ collect owner n) :
    d.type = .cls ∧ d.className = some d.name ∨ d.type = .function ∧ d.className = none ∨
      d.type = .method ∧ d.className.isSome := by
  obtain ⟨kind, lineno, text, segment, children⟩ := n
  have hfunction : ∀ name, d = .ofFunction owner name lineno →
      d.type = .cls ∧ d.className = some d.name ∨ d.type = .function ∧ d.className = none ∨
        d.type = .method ∧ d.className.isSome := by
    rintro name rfl
    cases owner with
    | none => exact .inr (.inl ⟨rfl, rfl⟩)
    | some owner => exact .inr (.inr ⟨rfl, rfl⟩)
  cases kind with
  | classDef name =>
    rw [collect] at h
    rcases List.mem_cons.mp h with rfl | h
    · exact .inl ⟨rfl, rfl⟩
    · exact collectAll_spec h
  | functionDef name | asyncFunctionDef name =>
    rw [collect] at h
    rcases List.mem_cons.mp h with h | h
    · exact hfunction name h
    · exact collectAll_spec h
  | importStmt | importFrom =>
    rw [collect] at h
    cases h
  | _ =>
    rw [collect] at h
    · exact collectAll_spec h
    all_goals nofun

theorem collectAll_spec {owner : Option String} {children : List (Analysis.Field × Node)}
    (h : d ∈ collectAll owner children) :
    d.type = .cls ∧ d.className = some d.name ∨ d.type = .function ∧ d.className = none ∨
      d.type = .method ∧ d.className.isSome := by
  match children with
  | [] => rw [collectAll] at h; cases h
  | (_, n) :: rest =>
    rw [collectAll] at h
    rcases List.mem_append.mp h with h | h
    · exact collect_spec h
    · exact collectAll_spec h

end

/-- A key of `_unconditional_declarations`. -/
abbrev UnconditionalKey := EntityType × Option String × String × Option ℕ

def functionName (n : Node) : Option String :=
  match n.kind with
  | .functionDef name | .asyncFunctionDef name => some name
  | _ => none

/-- The entries that a statement of a module adds to `_unconditional_declarations`. -/
def unconditionalKeys (n : Node) : List UnconditionalKey :=
  match n.kind with
  | .classDef name =>
    (.cls, none, name, n.lineno) :: (n.field .body).filterMap fun member =>
      (functionName member).map fun function => (.method, some name, function, member.lineno)
  | .functionDef name | .asyncFunctionDef name => [(.function, none, name, n.lineno)]
  | _ => []

/-- A Python file of the repository. -/
structure SourceFile where
  path : Path
  /-- `file_type` of the file analysis -/
  role : String
  /-- what `ast.parse` gives for the text of the file, without a byte order mark -/
  tree : Option Node
  /-- `parse_python_file` got through: the file is not too large and has no byte order mark -/
  collected : Bool
  parses : collected → tree.isSome
  module : ∀ t ∈ tree, t.kind = .other "Module"
  /-- Two definitions never begin on one line. -/
  lines : ∀ t ∈ tree, ((collect none t).map Declaration.startLine).Nodup

namespace SourceFile

variable (f : SourceFile)

/-- The tree that the collector went through. -/
def parsed : Option Node := if f.collected then f.tree else none

/-- The `classes` and then the `functions` of a parsed file. -/
def declarations : List Declaration :=
  let found := (f.parsed.map (collect none)).getD []
  found.filter (·.type = .cls) ++ found.filter (·.type ≠ .cls)

/-- `_unconditional_declarations`. -/
def unconditional : List UnconditionalKey :=
  (f.tree.map fun t => (t.field .body).flatMap unconditionalKeys).getD []

theorem parsed_eq_some_iff {t : Node} : f.parsed = some t ↔ f.collected ∧ f.tree = some t := by
  unfold parsed
  cases f.collected <;> simp

theorem perm_declarations {t : Node} (h : f.parsed = some t) :
    f.declarations.Perm (collect none t) := by
  have hsplit := List.filter_append_perm (fun d : Declaration => decide (d.type = .cls))
    (collect none t)
  simpa [declarations, h] using hsplit

theorem mem_declarations : d ∈ f.declarations ↔ ∃ t, f.parsed = some t ∧ d ∈ collect none t := by
  cases h : f.parsed with
  | none => simp [declarations, h]
  | some t => simp [(f.perm_declarations h).mem_iff]

theorem nodup_startLines : (f.declarations.map Declaration.startLine).Nodup := by
  cases h : f.parsed with
  | none => simp [declarations, h]
  | some t =>
    rw [((f.perm_declarations h).map Declaration.startLine).nodup_iff]
    exact f.lines t ((f.parsed_eq_some_iff.mp h).2)

end SourceFile

/-- `qualified` of a declaration in a module. -/
def Declaration.qualified (d : Declaration) (module : String) : String :=
  match d.type, d.className with
  | .cls, _ | _, none => module ++ "." ++ d.name
  | _, some owner => module ++ "." ++ owner ++ "." ++ d.name

/-- The key of `counts` and `seen`. -/
def Declaration.key (module : String) (d : Declaration) : EntityType × String :=
  (d.type, d.qualified module)

def kindText (type : EntityType) : String :=
  match type with
  | .cls => "class"
  | .function => "function"
  | _ => "method"

/-- The identifiers of entities: digests of the data they stand for. -/
inductive EntityId
  /-- `code_entity_id` -/
  | code (type : EntityType) (path : Path) (qualifiedName : String) (ordinal : Option ℕ)
  /-- `model_module_entity_id` -/
  | layer (parent : EntityId) (member : String)
deriving DecidableEq

/-- A `CodeEntity`, and the `SymbolCandidate` made of it. -/
structure Entity where
  id : EntityId
  type : EntityType
  path : Path
  name : String
  qualifiedName : String
  moduleName : Option String
  startLine : Option ℕ
  declarationOrdinal : Option ℕ
  duplicateSymbol : Bool
  duplicateResolutionSafe : Bool
deriving DecidableEq

def Entity.plain (type : EntityType) (path : Path) (name qualifiedName : String)
    (moduleName : Option String) : Entity :=
  ⟨.code type path qualifiedName none, type, path, name, qualifiedName, moduleName, none, none,
    false, true⟩

/-- An entry of `model_analysis`. -/
structure ModelInfo where
  path : Path
  className : String
  /-- the names of its layers, without their `self.`, and their lines -/
  layers : List (String × Option ℕ)
deriving DecidableEq

structure Repository where
  /-- the name of the root directory -/
  rootName : String
  roots : List ModuleRoot
  /-- The directory has an `__init__.py`. -/
  package : Path → Bool
  files : List SourceFile
  distinct : (files.map SourceFile.path).Nodup
  models : List ModelInfo
  configs : List Path
  distinctConfigs : configs.Nodup

namespace Repository

variable (repo : Repository)

def moduleName (f : SourceFile) : String := moduleNameForPath repo.roots repo.package f.path

def rootEntity : Entity :=
  let name := if repo.rootName = "" then "repository" else repo.rootName
  .plain .repository [] name name none

def directoryEntity (directory : Path) : Entity :=
  .plain .directory directory (String.ofList (directory.getLastD []))
    (String.ofList (dotted (posix directory))) none

def sortedFiles : List SourceFile := sortedBy (fun f => String.ofList (posix f.path)) repo.files

/-- `_ensure_directories` for all files. -/
def directories : List Path :=
  firstBy id (repo.sortedFiles.flatMap fun f => f.path.dropLast.inits.tail)

def fileEntity (f : SourceFile) : Entity :=
  .plain (fileType f.role) f.path (String.ofList (f.path.getLastD [])) (repo.moduleName f)
    (some (repo.moduleName f))

def sortedDeclarations (f : SourceFile) : List Declaration :=
  sortedBy (fun d => toLex (d.startLine.getD 0,
    toLex (kindText d.type, d.qualified (repo.moduleName f)))) f.declarations

def declaredEntity (f : SourceFile) (d : Declaration) (ordinal : Option ℕ) : Entity where
  id := .code d.type f.path (d.qualified (repo.moduleName f)) ordinal
  type := d.type
  path := f.path
  name := d.name
  qualifiedName := d.qualified (repo.moduleName f)
  moduleName := some (repo.moduleName f)
  startLine := d.startLine
  declarationOrdinal := ordinal
  duplicateSymbol := decide (1 < (f.declarations.map (Declaration.key (repo.moduleName f))).count
    (d.key (repo.moduleName f)))
  duplicateResolutionSafe := decide ((d.type, d.className, d.name, d.startLine) ∈ f.unconditional)

/-- `_append_declared_entities`. -/
def declaredEntities (f : SourceFile) : List Entity :=
  (numbered (Declaration.key (repo.moduleName f)) (repo.sortedDeclarations f)).map
    fun p => repo.declaredEntity f p.1 p.2

def sourceEntities : List Entity :=
  repo.rootEntity :: repo.directories.map directoryEntity ++
    repo.sortedFiles.flatMap fun f => repo.fileEntity f :: repo.declaredEntities f

/-- `by_class.get`. -/
def classOf (path : Path) (className : String) : Option Entity :=
  let found := repo.sourceEntities.filter fun e =>
    e.type = .cls ∧ e.path = path ∧ e.name = className
  if found.length = 1 ∨ ∀ e ∈ found, e.duplicateResolutionSafe then found.getLast? else none

def layerEntity (path : Path) (cls : Entity) (layer : String × Option ℕ) : Entity where
  id := .layer cls.id layer.1
  type := .modelModule
  path := path
  name := layer.1
  qualifiedName := cls.qualifiedName ++ "." ++ layer.1
  moduleName := cls.moduleName
  startLine := layer.2
  declarationOrdinal := none
  duplicateSymbol := false
  duplicateResolutionSafe := true

def layerEntities (model : ModelInfo) : List Entity :=
  match repo.classOf model.path model.className with
  | some cls => (model.layers.filter (·.1 ≠ "")).map (layerEntity model.path cls)
  | none => []

/-- `build_code_entities`. -/
def codeEntities : List Entity :=
  lastBy Entity.id (repo.sourceEntities ++ repo.models.flatMap repo.layerEntities)

def configEntity (path : Path) : Entity :=
  .plain .config path (String.ofList (path.getLastD [])) (String.ofList (posix path)) none

/-- `_build_config_entities`. -/
def configEntities : List Entity :=
  (repo.configs.filter fun path => path ∉ repo.codeEntities.map Entity.path).map configEntity

/-- The entities that the symbol table is built from. -/
def entities : List Entity := repo.codeEntities ++ repo.configEntities

/-! What the entities are. -/

/-- The entities that the files of the repository give. -/
inductive FromSource : Entity → Prop
  | root : FromSource repo.rootEntity
  | directory (directory : Path) : FromSource (directoryEntity directory)
  | file {f : SourceFile} (hf : f ∈ repo.files) : FromSource (repo.fileEntity f)
  | declared {f : SourceFile} (hf : f ∈ repo.files) {p : Declaration × Option ℕ}
      (hp : p ∈ numbered (Declaration.key (repo.moduleName f)) (repo.sortedDeclarations f)) :
      FromSource (repo.declaredEntity f p.1 p.2)

variable {repo}

variable {f : SourceFile} {e : Entity} {p : Declaration × Option ℕ}

@[simp] theorem mem_sortedFiles : f ∈ repo.sortedFiles ↔ f ∈ repo.files :=
  mem_sortedBy

@[simp] theorem mem_sortedDeclarations {d : Declaration} :
    d ∈ repo.sortedDeclarations f ↔ d ∈ f.declarations :=
  mem_sortedBy

theorem mem_numbered_iff :
    (∃ n, (d, n) ∈ numbered (Declaration.key (repo.moduleName f)) (repo.sortedDeclarations f)) ↔
      d ∈ f.declarations := by
  have hfst := @map_fst_numbered _ _ _ (Declaration.key (repo.moduleName f))
    (repo.sortedDeclarations f)
  rw [← @mem_sortedDeclarations repo]
  constructor
  · rintro ⟨n, hn⟩
    rw [← hfst]
    exact List.mem_map_of_mem hn
  · intro hd
    rw [← hfst] at hd
    obtain ⟨p, hp, rfl⟩ := List.mem_map.mp hd
    exact ⟨p.2, hp⟩

theorem fromSource_of_mem (h : e ∈ repo.sourceEntities) : repo.FromSource e := by
  rcases List.mem_append.mp h with h | h
  · rcases List.mem_cons.mp h with rfl | h
    · exact .root
    · obtain ⟨directory, _, rfl⟩ := List.mem_map.mp h
      exact .directory directory
  · obtain ⟨f, hf, h⟩ := List.mem_flatMap.mp h
    rcases List.mem_cons.mp h with rfl | h
    · exact .file (mem_sortedFiles.mp hf)
    · obtain ⟨p, hp, rfl⟩ := List.mem_map.mp h
      exact .declared (mem_sortedFiles.mp hf) hp

theorem FromSource.id_eq (h : repo.FromSource e) :
    e.id = .code e.type e.path e.qualifiedName e.declarationOrdinal := by
  cases h <;> rfl

theorem declared_type
    (hp : p ∈ numbered (Declaration.key (repo.moduleName f)) (repo.sortedDeclarations f)) :
    p.1.type = .cls ∨ p.1.type = .function ∨ p.1.type = .method := by
  obtain ⟨t, _, hmem⟩ := f.mem_declarations.mp (mem_numbered_iff.mp ⟨p.2, hp⟩)
  rcases collect_spec hmem with h | h | h
  · exact .inl h.1
  · exact .inr (.inl h.1)
  · exact .inr (.inr h.1)

theorem not_isModule_declared
    (hp : p ∈ numbered (Declaration.key (repo.moduleName f)) (repo.sortedDeclarations f)) :
    ¬ p.1.type.IsModule := by
  rcases declared_type hp with h | h | h <;> rw [h] <;> decide

theorem eq_of_path {g : SourceFile} (hf : f ∈ repo.files) (hg : g ∈ repo.files)
    (h : f.path = g.path) : f = g :=
  List.inj_on_of_nodup_map repo.distinct hf hg h

theorem FromSource.eq_fileEntity (h : repo.FromSource e) (htype : e.type.IsModule)
    (hf : f ∈ repo.files) (hpath : e.path = f.path) : e = repo.fileEntity f := by
  cases h with
  | root => exact absurd htype (show ¬ EntityType.repository.IsModule by decide)
  | directory directory => exact absurd htype (show ¬ EntityType.directory.IsModule by decide)
  | file hg => rw [eq_of_path hg hf hpath]
  | declared hg hp =>
    exact absurd htype (not_isModule_declared hp)

/-- Entities with one identifier are one entity. -/
theorem FromSource.eq_of_id {a b : Entity} (ha : repo.FromSource a) (hb : repo.FromSource b)
    (h : a.id = b.id) : a = b := by
  rw [ha.id_eq, hb.id_eq] at h
  obtain ⟨htype, hpath, hname, hordinal⟩ := EntityId.code.inj h
  by_cases hmodule : a.type.IsModule
  · cases ha with
    | file hf => exact (hb.eq_fileEntity (htype ▸ hmodule) hf hpath.symm).symm
    | root => exact absurd hmodule (show ¬ EntityType.repository.IsModule by decide)
    | directory directory => exact absurd hmodule (show ¬ EntityType.directory.IsModule by decide)
    | declared hf hp => exact absurd hmodule (not_isModule_declared hp)
  · cases ha with
    | root =>
      cases hb with
      | root => rfl
      | directory directory => cases htype
      | @file g hg => exact absurd (htype ▸ isModule_fileType g.role) hmodule
      | @declared g hg p hp =>
        have := declared_type hp
        rw [show p.1.type = .repository from htype.symm] at this
        simp at this
    | directory directory =>
      cases hb with
      | root => cases htype
      | directory other =>
        obtain rfl : directory = other := hpath
        rfl
      | @file g hg => exact absurd (htype ▸ isModule_fileType g.role) hmodule
      | @declared g hg p hp =>
        have := declared_type hp
        rw [show p.1.type = .directory from htype.symm] at this
        simp at this
    | @file f hf => exact absurd (isModule_fileType f.role) hmodule
    | @declared f hf p hp =>
      cases hb with
      | root =>
        have := declared_type hp
        rw [show p.1.type = .repository from htype] at this
        simp at this
      | directory other =>
        have := declared_type hp
        rw [show p.1.type = .directory from htype] at this
        simp at this
      | @file g hg => exact absurd (htype ▸ isModule_fileType g.role) hmodule
      | @declared g hg q hq =>
        obtain rfl := eq_of_path hf hg hpath
        have hkey : (Declaration.key (repo.moduleName f) p.1, p.2) =
            (Declaration.key (repo.moduleName f) q.1, q.2) :=
          Prod.ext (Prod.ext htype hname) hordinal
        rw [List.inj_on_of_nodup_map (nodup_numbered _) hp hq hkey]

variable (repo)

/-- The entities of the repository, by what they come from. -/
inductive Arises : Entity → Prop
  | source {e : Entity} (h : repo.FromSource e) : Arises e
  | layer (path : Path) (cls : Entity) (layer : String × Option ℕ) :
      Arises (layerEntity path cls layer)
  | config {path : Path} (hfree : ∀ e ∈ repo.sourceEntities, e.path ≠ path) :
      Arises (configEntity path)

variable {repo}

theorem exists_layer {model : ModelInfo} (h : e ∈ repo.layerEntities model) :
    ∃ path cls layer, e = layerEntity path cls layer := by
  unfold layerEntities at h
  cases hclass : repo.classOf model.path model.className with
  | none =>
    rw [hclass] at h
    cases h
  | some cls =>
    rw [hclass] at h
    obtain ⟨layer, _, rfl⟩ := List.mem_map.mp h
    exact ⟨model.path, cls, layer, rfl⟩

theorem mem_codeEntities (h : e ∈ repo.sourceEntities) : e ∈ repo.codeEntities := by
  apply mem_lastBy_of_unique (List.mem_append_left _ h)
  intro b hb hid
  rcases List.mem_append.mp hb with hb | hb
  · exact (fromSource_of_mem hb).eq_of_id (fromSource_of_mem h) hid
  · obtain ⟨model, _, hb⟩ := List.mem_flatMap.mp hb
    obtain ⟨path, cls, layer, rfl⟩ := exists_layer hb
    rw [(fromSource_of_mem h).id_eq] at hid
    cases hid

theorem mem_entities_of_source (h : e ∈ repo.sourceEntities) : e ∈ repo.entities :=
  List.mem_append_left _ (mem_codeEntities h)

theorem arises_of_mem (h : e ∈ repo.entities) : repo.Arises e := by
  rcases List.mem_append.mp h with h | h
  · rcases List.mem_append.mp (mem_of_mem_lastBy h) with h | h
    · exact .source (fromSource_of_mem h)
    · obtain ⟨model, _, h⟩ := List.mem_flatMap.mp h
      obtain ⟨path, cls, layer, rfl⟩ := exists_layer h
      exact .layer path cls layer
  · obtain ⟨path, hpath, rfl⟩ := List.mem_map.mp h
    have hfree := of_decide_eq_true (List.mem_filter.mp hpath).2
    exact .config fun e he heq => hfree (heq ▸ List.mem_map_of_mem (mem_codeEntities he))

theorem fileEntity_mem (hf : f ∈ repo.files) : repo.fileEntity f ∈ repo.sourceEntities :=
  List.mem_append_right _
    (List.mem_flatMap.mpr ⟨f, mem_sortedFiles.mpr hf, List.mem_cons_self⟩)

theorem declaredEntity_mem (hf : f ∈ repo.files)
    (hp : p ∈ numbered (Declaration.key (repo.moduleName f)) (repo.sortedDeclarations f)) :
    repo.declaredEntity f p.1 p.2 ∈ repo.sourceEntities :=
  List.mem_append_right _ (List.mem_flatMap.mpr
    ⟨f, mem_sortedFiles.mpr hf, List.mem_cons_of_mem _ (List.mem_map_of_mem hp)⟩)

theorem nodup_ids : (repo.entities.map Entity.id).Nodup := by
  rw [entities, List.map_append, List.nodup_append]
  refine ⟨nodup_lastBy _, ?_, ?_⟩
  · rw [configEntities, List.map_map]
    apply (repo.distinctConfigs.filter _).map
    intro p q h
    exact (EntityId.code.inj h).2.1
  · intro id hid other hother heq
    obtain ⟨e, he, rfl⟩ := List.mem_map.mp hid
    obtain ⟨c, hc, rfl⟩ := List.mem_map.mp hother
    obtain ⟨path, hpath, rfl⟩ := List.mem_map.mp hc
    have hfree := of_decide_eq_true (List.mem_filter.mp hpath).2
    rcases List.mem_append.mp (mem_of_mem_lastBy he) with hsource | hlayer
    · rw [(fromSource_of_mem hsource).id_eq] at heq
      exact hfree ((EntityId.code.inj heq).2.1 ▸ List.mem_map_of_mem he)
    · obtain ⟨model, _, hlayer⟩ := List.mem_flatMap.mp hlayer
      obtain ⟨p, cls, layer, rfl⟩ := exists_layer hlayer
      cases heq

theorem eq_of_mem_of_id {a b : Entity} (ha : a ∈ repo.entities) (hb : b ∈ repo.entities)
    (h : a.id = b.id) : a = b :=
  List.inj_on_of_nodup_map nodup_ids ha hb h

theorem eq_fileEntity (he : e ∈ repo.entities) (htype : e.type.IsModule) (hf : f ∈ repo.files)
    (hpath : e.path = f.path) : e = repo.fileEntity f := by
  cases arises_of_mem he with
  | source h => exact h.eq_fileEntity htype hf hpath
  | layer path cls layer => exact absurd htype (show ¬ EntityType.modelModule.IsModule by decide)
  | config hfree => exact absurd hpath.symm (hfree _ (fileEntity_mem hf))

/-- The declared entities are those of classes, functions and methods. -/
theorem exists_declared (he : e ∈ repo.entities) (htype : e.type = .cls ∨ e.type = .function) :
    ∃ f ∈ repo.files, ∃ p ∈ numbered (Declaration.key (repo.moduleName f))
      (repo.sortedDeclarations f), e = repo.declaredEntity f p.1 p.2 := by
  have hother : ∀ type : EntityType, e.type = type → type ≠ .cls ∧ type ≠ .function → False := by
    rintro type rfl hne
    exact htype.elim hne.1 hne.2
  cases arises_of_mem he with
  | source h =>
    cases h with
    | root => exact (hother .repository rfl (by decide)).elim
    | directory directory => exact (hother .directory rfl (by decide)).elim
    | @file f hf =>
      have hmodule : (repo.fileEntity f).type.IsModule := isModule_fileType f.role
      rcases htype with h | h <;> rw [h] at hmodule <;> exact absurd hmodule (by decide)
    | @declared f hf p hp => exact ⟨f, hf, p, hp, rfl⟩
  | layer path cls layer => exact (hother .modelModule rfl (by decide)).elim
  | config hfree => exact (hother .config rfl (by decide)).elim

end Repository

/-- `digest` is the text of an identifier. -/
def candidateKey (digest : EntityId → String) (e : Entity) : ℕ ×ₗ String ×ₗ String :=
  toLex (e.declarationOrdinal.getD 0, toLex (String.ofList (posix e.path), digest e.id))

/-- `build_symbol_table`. -/
structure SymbolTable where
  digest : EntityId → String
  entities : List Entity

namespace SymbolTable

variable (table : SymbolTable)

/-- `by_qualified_name`. -/
def resolve (qualified : String) : List Entity :=
  sortedBy (candidateKey table.digest) (table.entities.filter (·.qualifiedName = qualified))

def modules (qualified : String) : List Entity :=
  sortedBy (candidateKey table.digest)
    (table.entities.filter fun e => e.type.IsModule ∧ e.qualifiedName = qualified)

/-- `entities_by_id.values()`. -/
def entitiesById : List Entity := lastBy Entity.id table.entities

/-- `file_entities.get(path)`. -/
def fileEntity? (path : Path) : Option Entity :=
  dictBy Entity.path (table.entitiesById.filter fun e => e.type.IsModule) path

@[simp] theorem mem_resolve {q : String} {e : Entity} :
    e ∈ table.resolve q ↔ e ∈ table.entities ∧ e.qualifiedName = q := by
  simp [resolve]

theorem length_resolve (q : String) :
    (table.resolve q).length = (table.entities.filter (·.qualifiedName = q)).length :=
  (perm_sortedBy _).length_eq

@[simp] theorem mem_modules {q : String} {e : Entity} :
    e ∈ table.modules q ↔ e ∈ table.entities ∧ e.type.IsModule ∧ e.qualifiedName = q := by
  simp [modules]

end SymbolTable

namespace Repository

variable (repo : Repository) (digest : EntityId → String)

/-- `build_symbol_table`. -/
def table : SymbolTable := ⟨digest, repo.entities⟩

theorem entitiesById_table : (repo.table digest).entitiesById = repo.entities :=
  lastBy_of_nodup nodup_ids

theorem fileEntity?_table {f : SourceFile} (hf : f ∈ repo.files) :
    (repo.table digest).fileEntity? f.path = some (repo.fileEntity f) := by
  have hmem : repo.fileEntity f ∈ repo.entities.filter fun e => e.type.IsModule :=
    List.mem_filter.mpr ⟨mem_entities_of_source (fileEntity_mem hf),
      decide_eq_true (isModule_fileType f.role)⟩
  rw [SymbolTable.fileEntity?, entitiesById_table]
  obtain ⟨e, he⟩ := exists_dictBy (List.mem_map_of_mem (f := Entity.path) hmem)
  obtain ⟨hemem, hpath⟩ := mem_of_dictBy he
  obtain ⟨hemem, htype⟩ := List.mem_filter.mp hemem
  rw [← eq_fileEntity hemem (of_decide_eq_true htype) hf hpath]
  exact he

end Repository

inductive Resolution
  | unresolved | exact | duplicateLastDefinition | ambiguous
  | aliased | relative | selfMethod | modelForward
deriving DecidableEq

/-- `select_candidates`. -/
def selectCandidates (candidates : List Entity) : Option Entity × Resolution :=
  match candidates with
  | [] => (none, .unresolved)
  | [e] => (some e, .exact)
  | first :: second :: rest =>
    if ∀ e ∈ first :: second :: rest, e.duplicateSymbol ∧ e.duplicateResolutionSafe then
      ((first :: second :: rest).getLast?, .duplicateLastDefinition)
    else (none, .ambiguous)

/-- What is chosen is the only candidate or one of several that repeat one another safely. -/
theorem of_selectCandidates {l : List Entity} {e : Entity}
    (h : (selectCandidates l).1 = some e) :
    e ∈ l ∧ (l = [e] ∨ ∀ c ∈ l, c.duplicateSymbol ∧ c.duplicateResolutionSafe) := by
  match l with
  | [] => cases h
  | [c] =>
    obtain rfl := Option.some.inj h
    exact ⟨List.mem_cons_self, .inl rfl⟩
  | c :: d :: l =>
    rw [selectCandidates] at h
    by_cases hall : ∀ c' ∈ c :: d :: l, c'.duplicateSymbol ∧ c'.duplicateResolutionSafe
    · rw [if_pos hall] at h
      exact ⟨List.mem_of_getLast? h, .inr hall⟩
    · rw [if_neg hall] at h
      cases h

theorem selectCandidates_eq_none_iff {l : List Entity} :
    (selectCandidates l).1 = none ↔ l = [] ∨ 1 < l.length ∧
      ¬ ∀ c ∈ l, c.duplicateSymbol ∧ c.duplicateResolutionSafe := by
  match l with
  | [] => simp [selectCandidates]
  | [c] => simp [selectCandidates]
  | c :: d :: l =>
    rw [selectCandidates]
    by_cases hall : ∀ c' ∈ c :: d :: l, c'.duplicateSymbol ∧ c'.duplicateResolutionSafe
    · rw [if_pos hall, List.getLast?_eq_none_iff]
      constructor
      · intro h
        cases h
      · rintro (h | ⟨_, h⟩)
        · cases h
        · exact absurd hall h
    · rw [if_neg hall]
      exact ⟨fun _ => .inr ⟨by simp, hall⟩, fun _ => rfl⟩

end CodeResearch.Indexing.Symbols
