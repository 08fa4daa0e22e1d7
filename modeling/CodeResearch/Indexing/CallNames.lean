import CodeResearch.Indexing.Imports
import Mathlib.Data.List.Find

/-!
# Names of calls and of base classes

A dotted name is looked up in the symbol table under what the import of its first name asks for.
In Python `import a.b.c` binds `a` to the package `a`, but the resolver takes `a` for `a.b.c`.
-/
namespace CodeResearch.Indexing.Imports

open Symbols

/-! ### The resolver -/

/-- The text before the first dot. -/
def root (name : String) : String := String.ofList (name.toList.takeWhile (· ≠ '.'))

/-- The text after the first dot. -/
def tail (name : String) : String := String.ofList ((name.toList.dropWhile (· ≠ '.')).drop 1)

/-- The base with the suffix of the name. -/
def extend (base name : String) : String :=
  if tail name = "" then base else base ++ "." ++ tail name

section Resolver

variable (table : SymbolTable) (bindings : String → Option ResolvedImport)
  (instances : String × String → Option String)

/-- `select_candidates(table.resolve(name))`. -/
def select (name : String) : Option Entity × Resolution := selectCandidates (table.resolve name)

/-- `select_candidates(table.by_short_name.get(name, []))`. -/
def selectShort (name : String) : Option Entity × Resolution :=
  selectCandidates (sortedBy (candidateKey table.digest) (table.entities.filter (·.name = name)))

/-- `_resolve_call` on a member of `self`. -/
def viaSelf (module owner member : String) : Option (Entity × Resolution) :=
  match (select table (module ++ "." ++ owner ++ "." ++ member)).1 with
  | some direct => some (direct, .selfMethod)
  | none =>
    ((instances (module ++ "." ++ owner, member)).filter (· ≠ "")).bind fun cls =>
      match (select table (cls ++ ".forward")).1, select table cls with
      | some forward, _ => some (forward, .modelForward)
      | none, (some e, resolution) => some (e, resolution)
      | none, (none, _) => none

/-- `_resolve_call` on a name with a binding. -/
def viaBinding (display : String) (b : ResolvedImport) : Option (Entity × Resolution) :=
  match select table (extend b.targetQualifiedName display) with
  | (some e, resolution) =>
    some (e, if root display ≠ b.requestedName then .aliased else resolution)
  | (none, _) => if '.' ∈ display.toList then none else b.target.map (·, b.resolutionType)

/-- `_resolve_call`. -/
def resolveCall (display module : String) (owner : Option String) :
    Option Entity × Resolution :=
  let self := (owner.filter (· ≠ "")).bind fun owner =>
    if "self.".toList <+: display.toList then
      viaSelf table instances module owner (String.ofList (display.toList.drop 5))
    else none
  match self.or ((bindings (root display)).bind (viaBinding table display)) with
  | some (e, resolution) => (some e, resolution)
  | none =>
    match select table (module ++ "." ++ display) with
    | (some e, resolution) => (some e, resolution)
    | (none, _) =>
      if '.' ∈ display.toList then selectCandidates [] else selectShort table display

/-- The target of `build_inheritance_edges` for a base class of an entity. -/
def resolveBase (entity : Entity) (base : String) : Option Entity × Resolution :=
  match bindings (root base) with
  | some b => select table (extend b.targetQualifiedName base)
  | none =>
    match select table (entity.moduleName.getD "None" ++ "." ++ base) with
    | (some e, resolution) => (some e, resolution)
    | (none, _) => selectShort table base

end Resolver

/-! ### Python -/

/-- `import a.b.c`, `import a.b.c as x` or `from m import n as y`. -/
structure Absolute (item : ImportItem) : Prop where
  level : level item.module.toList = 0
  module : item.module ≠ ""
  form : item.fromImport = item.name.isSome
  name : ∀ n ∈ item.name, n ≠ "" ∧ n ≠ "*"
  asname : ∀ n ∈ item.asname, n ≠ ""

/-- The name that an import binds, and the qualified name that it stands for. -/
def bound (item : ImportItem) : String × String :=
  match item.name, item.asname with
  | some name, asname => (asname.getD name, item.module ++ "." ++ name)
  | none, some asname => (asname, item.module)
  | none, none => (root item.module, root item.module)

/-- The last import that binds the first name of a dotted name. -/
def importOf (f : SourceFile) (name : String) : Option ImportItem :=
  dictBy (fun item => (bound item).1) (imports f) (root name)

/-- A name that begins with an import resolves to what Python denotes by it if that is in the table
and unique, and through the import it resolves to nothing else. -/
structure FollowsPython (repo : Repository) (digest : EntityId → String) (f : SourceFile)
    (name : String) (item : ImportItem) : Prop where
  called : ∀ e, (repo.table digest).resolve (extend (bound item).2 name) = [e] →
    ∀ instances owner, owner = none ∨ root name ≠ "self" →
      (resolveCall (repo.table digest) (binding (repo.table digest) f) instances name
        (repo.moduleName f) owner).1 = some e
  inherited : ∀ e, (repo.table digest).resolve (extend (bound item).2 name) = [e] →
    ∀ entity, (resolveBase (repo.table digest) (binding (repo.table digest) f) entity name).1 =
      some e
  calledTrue : ∀ e resolution, (binding (repo.table digest) f (root name)).bind
    (viaBinding (repo.table digest) name) = some (e, resolution) →
      e.qualifiedName = extend (bound item).2 name
  inheritedTrue : ∀ entity e, (resolveBase (repo.table digest) (binding (repo.table digest) f)
    entity name).1 = some e → e.qualifiedName = extend (bound item).2 name

/-- `import a.b.c`, which binds `a`. -/
def BindsParent (item : ImportItem) : Prop :=
  item.name = none ∧ item.asname = none ∧ '.' ∈ item.module.toList

section

variable {repo : Repository} {digest : EntityId → String} {f : SourceFile} {item : ImportItem}
  {name : String}

theorem requestedName_of_absolute (h : Absolute item) (currentModule : String) (isPackage : Bool) :
    item.requestedName currentModule isPackage =
      (item.name.map (item.module ++ "." ++ ·)).getD item.module := by
  unfold ImportItem.requestedName ImportItem.member resolveRelativeModule
  dsimp only
  rw [if_pos h.level, h.form]
  cases hname : item.name with
  | none => rfl
  | some n =>
    simp [Option.filter_some, h.name n hname, h.module]

theorem localName_of_absolute (h : Absolute item) : item.localName = (bound item).1 := by
  have hrenamed : item.renamed = item.asname := by
    cases hasname : item.asname with
    | none => simp [ImportItem.renamed, hasname]
    | some n => simp [ImportItem.renamed, hasname, h.asname n hasname]
  have hmodule : item.module.toList.dropWhile (· = '.') = item.module.toList := by
    have hlevel := h.level
    unfold level at hlevel
    rw [List.length_eq_zero_iff] at hlevel
    have happend := List.takeWhile_append_dropWhile (p := (· = '.')) (l := item.module.toList)
    rwa [hlevel, List.nil_append] at happend
  unfold ImportItem.localName ImportItem.member bound
  rw [h.form, hrenamed, hmodule]
  cases hname : item.name with
  | none => cases item.asname <;> rfl
  | some n => simp [Option.filter_some, h.name n hname]

theorem binding_eq (hf : f ∈ repo.files) (habsolute : ∀ item ∈ imports f, Absolute item) :
    binding (repo.table digest) f (root name) =
      (importOf f name).map (resolveItem (repo.table digest) (repo.fileEntity f) f.path) := by
  have hlocal : ∀ item ∈ (imports f).reverse, (resolveItem (repo.table digest) (repo.fileEntity f)
      f.path item).localName = (bound item).1 := fun item hitem =>
    localName_of_absolute (habsolute item (List.mem_reverse.mp hitem))
  rw [binding, resolvedImports, repo.fileEntity?_table digest hf, importOf, dictBy, dictBy]
  dsimp only
  rw [← List.map_reverse, List.find?_map]
  congr 1
  exact List.find?_congr fun item hitem => by rw [Function.comp_apply, hlocal item hitem]

variable {e : Entity}

theorem qualifiedName_of_chosen {q : String} (h : chosen repo digest q = some e) :
    e.qualifiedName = q :=
  ((repo.table digest).mem_resolve.mp (of_selectCandidates h).1).2

theorem chosen_of_resolve {q : String} (h : (repo.table digest).resolve q = [e]) :
    chosen repo digest q = some e := by
  rw [chosen, h]
  rfl

theorem extend_of_notMem (h : '.' ∉ name.toList) (base : String) : extend base name = base := by
  have hdrop : name.toList.dropWhile (· ≠ '.') = [] := by
    rw [List.dropWhile_eq_nil_iff]
    intro c hc
    rw [decide_eq_true_eq]
    rintro rfl
    exact h hc
  rw [extend, tail, hdrop]
  rfl

/-- A lookup through a binding chooses among the symbols with its name. -/
theorem fst_viaBinding (b : ResolvedImport) (hb : b.target = chosen repo digest b.targetQualifiedName) :
    (viaBinding (repo.table digest) name b).map Prod.fst =
      chosen repo digest (extend b.targetQualifiedName name) := by
  unfold viaBinding chosen select
  cases hselect : selectCandidates
      ((repo.table digest).resolve (extend b.targetQualifiedName name)) with
  | mk target resolution =>
    cases target with
    | some e => rfl
    | none =>
      dsimp only
      split_ifs with hdot
      · rfl
      · rw [extend_of_notMem hdot] at hselect
        rw [hb, chosen, hselect]
        rfl

/-- The name that the resolver looks up. -/
def lookedUp (item : ImportItem) (name : String) : String :=
  extend ((item.name.map (item.module ++ "." ++ ·)).getD item.module) name

theorem fst_bind_viaBinding (hf : f ∈ repo.files) (habsolute : ∀ item ∈ imports f, Absolute item)
    (hitem : importOf f name = some item) :
    ((binding (repo.table digest) f (root name)).bind (viaBinding (repo.table digest) name)).map
      Prod.fst = chosen repo digest (lookedUp item name) := by
  have habsolute' := habsolute item (mem_of_dictBy hitem).1
  rw [binding_eq hf habsolute, hitem, Option.map_some, Option.bind_some, fst_viaBinding]
  · rw [resolveItem, requestedName_of_absolute habsolute', lookedUp]
  · rw [resolveItem, importCandidates_table]
    rfl

theorem fst_resolveBase (hf : f ∈ repo.files) (habsolute : ∀ item ∈ imports f, Absolute item)
    (hitem : importOf f name = some item) (entity : Entity) :
    (resolveBase (repo.table digest) (binding (repo.table digest) f) entity name).1 =
      chosen repo digest (lookedUp item name) := by
  have habsolute' := habsolute item (mem_of_dictBy hitem).1
  rw [resolveBase, binding_eq hf habsolute, hitem, Option.map_some]
  dsimp only
  rw [resolveItem, requestedName_of_absolute habsolute']
  rfl

theorem fst_resolveCall (hf : f ∈ repo.files) (habsolute : ∀ item ∈ imports f, Absolute item)
    (hitem : importOf f name = some item) (he : chosen repo digest (lookedUp item name) = some e)
    (instances : String × String → Option String) {owner : Option String}
    (howner : owner = none ∨ root name ≠ "self") :
    (resolveCall (repo.table digest) (binding (repo.table digest) f) instances name
      (repo.moduleName f) owner).1 = some e := by
  have hself : ¬ (owner ≠ none ∧ "self.".toList <+: name.toList) := by
    rintro ⟨hsome, rest, hrest⟩
    refine howner.resolve_left hsome ?_
    rw [root, ← hrest]
    rfl
  rw [← fst_bind_viaBinding hf habsolute hitem] at he
  obtain ⟨⟨_, resolution⟩, hbound, rfl⟩ := Option.map_eq_some_iff.mp he
  unfold resolveCall
  dsimp only
  rw [hbound]
  cases owner with
  | none => rfl
  | some owner =>
    cases (some owner).filter (· ≠ "") with
    | none => rfl
    | some _ =>
      rw [Option.bind_some, if_neg fun hstarts => hself ⟨Option.some_ne_none owner, hstarts⟩]
      rfl

theorem lookedUp_eq_iff : lookedUp item name = extend (bound item).2 name ↔ ¬ BindsParent item := by
  unfold lookedUp bound BindsParent
  cases item.name with
  | some n => simp
  | none =>
    cases item.asname with
    | some n => simp
    | none =>
      have hroot : '.' ∉ (root item.module).toList := by
        rw [root, String.toList_ofList]
        intro h
        exact absurd (List.mem_takeWhile_imp h) (by decide)
      simp only [Option.map_none, Option.getD_none, true_and]
      constructor
      · intro heq hdot
        have hsame : item.module = root item.module := by
          unfold extend at heq
          split_ifs at heq
          · exact heq
          · simpa [String.append_assoc] using heq
        exact hroot (hsame ▸ hdot)
      · intro hdot
        congr 1
        rw [root, List.takeWhile_eq_self_iff.mpr, String.ofList_toList]
        intro c hc
        rw [decide_eq_true_eq]
        rintro rfl
        exact hdot hc

end

/-- Dotted names follow Python unless an import of a submodule binds their first name; then only
those do that the resolver finds nothing for and that stand for no unique symbol. -/
theorem followsPython_iff (repo : Repository) (digest : EntityId → String) (f : SourceFile)
    (hf : f ∈ repo.files) (habsolute : ∀ item ∈ imports f, Absolute item) (name : String)
    (item : ImportItem) (hitem : importOf f name = some item) :
    FollowsPython repo digest f name item ↔ ¬ BindsParent item ∨
      chosen repo digest (lookedUp item name) = none ∧
        ∀ e, (repo.table digest).resolve (extend (bound item).2 name) ≠ [e] := by
  have hcalled := @fst_bind_viaBinding repo digest f item name hf habsolute hitem
  have hbase := @fst_resolveBase repo digest f item name hf habsolute hitem
  constructor
  · intro h
    by_cases hparent : BindsParent item
    · have hnone : chosen repo digest (lookedUp item name) = none := by
        cases hchosen : chosen repo digest (lookedUp item name) with
        | none => rfl
        | some e =>
          have htrue := h.inheritedTrue e e ((hbase e).trans hchosen)
          rw [qualifiedName_of_chosen hchosen, lookedUp_eq_iff] at htrue
          exact absurd hparent htrue
      refine .inr ⟨hnone, fun e he => ?_⟩
      have hfound := h.inherited e he e
      rw [hbase, hnone] at hfound
      cases hfound
    · exact .inl hparent
  · rintro (hparent | ⟨hnone, hunique⟩)
    · have hname : lookedUp item name = _ := lookedUp_eq_iff.mpr hparent
      rw [hname] at hcalled hbase
      refine ⟨fun e he instances owner => ?_, fun e he entity => ?_, fun e resolution hvia => ?_,
        fun entity e hvia => ?_⟩
      · exact fst_resolveCall hf habsolute hitem (hname ▸ chosen_of_resolve he) instances
      · rw [hbase, chosen_of_resolve he]
      · rw [hvia] at hcalled
        exact qualifiedName_of_chosen hcalled.symm
      · exact qualifiedName_of_chosen ((hbase entity).symm.trans hvia)
    · refine ⟨fun e he => absurd he (hunique e), fun e he => absurd he (hunique e),
        fun e resolution hvia => ?_, fun entity e hvia => ?_⟩
      · rw [hvia, hnone] at hcalled
        cases hcalled
      · rw [hbase, hnone] at hvia
        cases hvia

/-! The function `f` of the submodule `pkg.sub`, and a script that imports the submodule. -/

def submoduleFile : SourceFile where
  path := ["pkg".toList, "sub.py".toList]
  role := "ordinary_module"
  tree := some (.mk (.other "Module") none "" none
    [(.body, .mk (.functionDef "f") (some 1) "def f(): pass" none [])])
  collected := true
  parses := fun _ => rfl
  module := by
    rintro t ⟨⟩
    rfl
  lines := by
    rintro t ⟨⟩
    decide

def callerFile : SourceFile where
  path := ["main.py".toList]
  role := "ordinary_module"
  tree := some (.mk (.other "Module") none "" none
    [(.body, .mk (.importStmt [⟨"pkg.sub", none⟩]) (some 1) "import pkg.sub" none [])])
  collected := true
  parses := fun _ => rfl
  module := by
    rintro t ⟨⟩
    rfl
  lines := by
    rintro t ⟨⟩
    exact List.nodup_nil

def submoduleRepository : Repository :=
  { packageRepository with
    files := [packageFile, submoduleFile, callerFile]
    distinct := by decide }

def importOfSubmodule : ImportItem := ⟨"pkg.sub", none, none, false, some 1⟩

theorem followsPython_submodule :
    FollowsPython submoduleRepository (fun _ => "") callerFile "pkg.sub.f" importOfSubmodule ↔
      ¬ BindsParent importOfSubmodule ∨
        chosen submoduleRepository (fun _ => "") (lookedUp importOfSubmodule "pkg.sub.f") = none ∧
          ∀ e, (submoduleRepository.table fun _ => "").resolve
            (extend (bound importOfSubmodule).2 "pkg.sub.f") ≠ [e] := by
  have himports : imports callerFile = [importOfSubmodule] := by decide +kernel
  refine followsPython_iff _ _ _ ?_ ?_ _ _ (by decide +kernel)
  · exact List.mem_cons_of_mem _ (List.mem_cons_of_mem _ List.mem_cons_self)
  · rw [himports]
    intro item hitem
    rw [List.mem_singleton.mp hitem]
    exact ⟨by decide, by decide, rfl, fun _ hname => (nomatch hname), fun _ hname => (nomatch hname)⟩

/-- The call `pkg.sub.f()` is looked up as `pkg.sub.sub.f`. -/
theorem not_followsPython_submodule : ¬ FollowsPython submoduleRepository (fun _ => "") callerFile
    "pkg.sub.f" importOfSubmodule := by
  intro h
  have hone : ((submoduleRepository.table fun _ => "").resolve
      (extend (bound importOfSubmodule).2 "pkg.sub.f")).length = 1 := by decide +kernel
  obtain ⟨e, he⟩ := List.length_eq_one_iff.mp hone
  have hcall := h.called e he (fun _ => none) none (.inl rfl)
  have hnone : (resolveCall (submoduleRepository.table fun _ => "")
      (binding (submoduleRepository.table fun _ => "") callerFile) (fun _ => none) "pkg.sub.f"
        (submoduleRepository.moduleName callerFile) none).1 = none := by decide +kernel
  rw [hnone] at hcall
  cases hcall

end CodeResearch.Indexing.Imports
