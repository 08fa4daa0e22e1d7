import CodeResearch.Indexing.Imports
import CodeResearch.Library.Text

/-!
# Relative imports

Python resolves the dots of an import against the package of the importing module, and raises
where they leave its top-level package. `resolve_relative_module` stops one dot later: there it
drops the dots and what is left can be the name of a top-level module.
-/
namespace CodeResearch.Indexing.Imports

/-- What follows the dots. -/
def suffix (module : String) : List Char := module.toList.drop (level module.toList)

/-- The grammar has no empty name after the dots. -/
def Dotted (module : String) : Prop := suffix module = [] ∨ [] ∉ (suffix module).splitOn '.'

/-- `_resolve_name` of `importlib`, with `none` for `ImportError`. -/
def resolveName (name package : List Char) (level : ℕ) : Option (List Char) :=
  let bits := package.splitOn '.'
  -- `package.rsplit('.', level - 1)` has `level` texts, and the first is `base`
  let base := List.intercalate ['.'] (bits.take (bits.length - (level - 1)))
  if bits.length < level then none
  else some (if name = [] then base else base ++ ['.'] ++ name)

/-- The name that an import is for. A module at the top has the package `""`. -/
def importedName (module currentModule : String) (isPackage : Bool) : Option String :=
  let package := List.intercalate ['.'] (packageParts currentModule isPackage)
  if level module.toList = 0 then some module
  else if package = [] then none
  else (resolveName (suffix module) package (level module.toList)).map String.ofList

def TopLevel (name : String) : Prop := name ≠ "" ∧ '.' ∉ name.toList

structure AsInPython (module currentModule : String) (isPackage : Bool) : Prop where
  resolved : Dotted module → ∀ name, importedName module currentModule isPackage = some name →
    resolveRelativeModule module currentModule isPackage = name
  raised : importedName module currentModule isPackage = none →
    ¬ TopLevel (resolveRelativeModule module currentModule isPackage)

def names (module : String) : List (List Char) := ((suffix module).splitOn '.').filter (· ≠ [])

section

variable {module currentModule : String} {isPackage : Bool}

theorem mem_names {part : List Char} (h : part ∈ names module) : part ≠ [] ∧ '.' ∉ part := by
  obtain ⟨hmem, hpart⟩ := List.mem_filter.mp h
  exact ⟨of_decide_eq_true hpart, notMem_of_mem_splitOn hmem⟩

theorem notMem_packageParts {part : List Char} (h : part ∈ packageParts currentModule isPackage) :
    '.' ∉ part := by
  unfold packageParts at h
  split_ifs at h
  · exact notMem_of_mem_splitOn h
  · exact notMem_of_mem_splitOn (List.mem_of_mem_dropLast h)

theorem splitOn_package (h : List.intercalate ['.'] (packageParts currentModule isPackage) ≠ []) :
    (List.intercalate ['.'] (packageParts currentModule isPackage)).splitOn '.' =
      packageParts currentModule isPackage := by
  apply List.splitOn_intercalate '.' (fun part => notMem_packageParts)
  rintro hnil
  rw [hnil] at h
  exact h rfl

theorem head_of_level (h : level module.toList ≠ 0) : '.' ∈ module.toList := by
  cases hchars : module.toList with
  | nil =>
    rw [hchars] at h
    exact absurd rfl h
  | cons c rest =>
    rw [hchars, level, List.takeWhile_cons] at h
    split_ifs at h with hc
    · rw [of_decide_eq_true hc]
      exact List.mem_cons_self
    · exact absurd rfl h

/-- Several names have a dot between them. -/
theorem topLevel_intercalate {parts : List (List Char)} :
    TopLevel (String.ofList (List.intercalate ['.'] parts)) ↔
      ∃ part, parts = [part] ∧ part ≠ [] ∧ '.' ∉ part := by
  have hempty (chars : List Char) : String.ofList chars ≠ "" ↔ chars ≠ [] := by
    rw [ne_eq, ne_eq, ← String.toList_inj, String.toList_ofList]
    rfl
  rw [TopLevel, hempty, String.toList_ofList]
  cases parts with
  | nil => simp
  | cons part rest =>
    cases rest with
    | nil => simp
    | cons next rest => simp [List.intercalate_cons_cons]

theorem resolveRelativeModule_of_le (hlevel : level module.toList ≠ 0)
    (hclimb : level module.toList - 1 ≤ (packageParts currentModule isPackage).length) :
    resolveRelativeModule module currentModule isPackage =
      String.ofList (List.intercalate ['.'] ((packageParts currentModule isPackage).take
        ((packageParts currentModule isPackage).length - (level module.toList - 1)) ++
          names module)) := by
  unfold resolveRelativeModule
  dsimp only
  rw [if_neg hlevel, if_neg (not_lt.mpr hclimb)]
  rfl

theorem intercalate_names {base : List (List Char)} (hbase : base ≠ []) (h : Dotted module) :
    List.intercalate ['.'] (base ++ names module) =
      if suffix module = [] then List.intercalate ['.'] base
      else List.intercalate ['.'] base ++ ['.'] ++ suffix module := by
  by_cases hsuffix : suffix module = []
  · have hnames : names module = [] := by
      rw [names, hsuffix]
      rfl
    rw [if_pos hsuffix, hnames, List.append_nil]
  · have hnames : names module = (suffix module).splitOn '.' := by
      refine List.filter_eq_self.mpr fun part hpart => decide_eq_true ?_
      rintro rfl
      exact h.resolve_left hsuffix hpart
    rw [if_neg hsuffix, hnames, intercalate_append hbase (List.splitOn_ne_nil _ _),
      List.intercalate_splitOn]

theorem resolved_importedName (hdotted : Dotted module) {name : String}
    (h : importedName module currentModule isPackage = some name) :
    resolveRelativeModule module currentModule isPackage = name := by
  unfold importedName at h
  dsimp only at h
  split_ifs at h with hlevel hpackage
  · unfold resolveRelativeModule
    dsimp only
    rw [if_pos hlevel]
    exact Option.some.inj h
  · obtain ⟨chars, hchars, rfl⟩ := Option.map_eq_some_iff.mp h
    unfold resolveName at hchars
    dsimp only at hchars
    rw [splitOn_package hpackage] at hchars
    split_ifs at hchars with hlt
    all_goals
      rw [resolveRelativeModule_of_le hlevel (by omega), ← Option.some.inj hchars,
        intercalate_names _ hdotted]
      · simp [*]
      · intro hnil
        have hlength := congrArg List.length hnil
        rw [List.length_take, List.length_nil] at hlength
        omega

/-- Where Python raises, only one dot too many can leave the name of a top-level module. -/
theorem topLevel_iff (h : importedName module currentModule isPackage = none) :
    TopLevel (resolveRelativeModule module currentModule isPackage) ↔
      level module.toList = (packageParts currentModule isPackage).length + 1 ∧
        (names module).length = 1 := by
  have hlevel : level module.toList ≠ 0 := by
    intro hlevel
    unfold importedName at h
    dsimp only at h
    rw [if_pos hlevel] at h
    cases h
  by_cases hclimb : (packageParts currentModule isPackage).length < level module.toList - 1
  · unfold resolveRelativeModule
    dsimp only
    rw [if_neg hlevel, if_pos hclimb]
    constructor
    · rintro ⟨-, hdot⟩
      exact absurd (head_of_level hlevel) hdot
    · rintro ⟨heq, -⟩
      omega
  rw [resolveRelativeModule_of_le hlevel (not_lt.mp hclimb), topLevel_intercalate]
  by_cases htop : level module.toList = (packageParts currentModule isPackage).length + 1
  · rw [htop, Nat.add_sub_cancel, Nat.sub_self, List.take_zero, List.nil_append,
      List.length_eq_one_iff]
    constructor
    · rintro ⟨part, hpart, -⟩
      exact ⟨rfl, part, hpart⟩
    · rintro ⟨-, part, hpart⟩
      exact ⟨part, hpart, mem_names (hpart ▸ List.mem_singleton_self part)⟩
  · refine iff_of_false ?_ fun hboundary => htop hboundary.1
    -- the dots stay in the package, so it is `""`
    rintro ⟨part, hpart, hne, -⟩
    have hpackage : List.intercalate ['.'] (packageParts currentModule isPackage) = [] := by
      by_contra hpackage
      unfold importedName resolveName at h
      dsimp only at h
      rw [if_neg hlevel, if_neg hpackage, splitOn_package hpackage, if_neg (by omega)] at h
      cases h
    cases hparts : packageParts currentModule isPackage with
    | nil =>
      rw [hparts, List.length_nil] at hclimb htop
      omega
    | cons first rest =>
      obtain ⟨n, hn⟩ : ∃ n, (packageParts currentModule isPackage).length -
          (level module.toList - 1) = n + 1 := Nat.exists_eq_succ_of_ne_zero (by omega)
      rw [hn, hparts, List.take_succ_cons, List.cons_append, List.cons_eq_cons] at hpart
      rw [hparts, hpart.1] at hpackage
      cases rest with
      | nil => exact hne (by simpa using hpackage)
      | cons next rest => simp [List.intercalate_cons_cons] at hpackage

end

/-- Imports resolve as in Python but where the dots climb to just above the top-level package
and one name follows them. -/
theorem asInPython_iff (module currentModule : String) (isPackage : Bool) :
    AsInPython module currentModule isPackage ↔
      ¬ (level module.toList = (packageParts currentModule isPackage).length + 1 ∧
        (names module).length = 1) := by
  constructor
  · rintro h ⟨htop, hnames⟩
    have hraises : importedName module currentModule isPackage = none := by
      unfold importedName resolveName
      dsimp only
      rw [if_neg (by omega), ite_eq_left_iff]
      intro hpackage
      rw [splitOn_package hpackage, if_pos (by omega)]
      rfl
    exact h.raised hraises ((topLevel_iff hraises).mpr ⟨htop, hnames⟩)
  · intro h
    exact ⟨fun hdotted _ => resolved_importedName hdotted,
      fun hraises htop => h ((topLevel_iff hraises).mp htop)⟩

/-- `from ..utils import f` in the module `pkg.mod` asks for the top-level module `utils`. -/
theorem not_asInPython_utils : ¬ AsInPython "..utils" "pkg.mod" false := by
  intro h
  have hname : resolveRelativeModule "..utils" "pkg.mod" false = "utils" := by decide +kernel
  refine h.raised (by decide +kernel) ?_
  rw [hname]
  exact ⟨by decide, by decide⟩

end CodeResearch.Indexing.Imports
