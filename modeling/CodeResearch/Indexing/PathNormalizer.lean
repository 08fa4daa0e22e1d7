import CodeResearch.Library.Text

/-!
# Normalised paths

A path is stripped, normalised and split once, and its empty and `.` components are dropped. A
dropped component can uncover a drive or a blank, and then the result is not a normalised path.
-/
namespace CodeResearch.Indexing.PathNormalizer

variable (nfc : List Char → List Char)

/-- `WINDOWS_DRIVE.match`. -/
def hasDrive : List Char → Bool
  | letter :: ':' :: _ => letter.isAlpha
  | _ => false

def posixChar (c : Char) : Char := if c = '\\' then '/' else c

/-- `raw` of `normalize_index_path`. -/
def rawPath (value : List Char) : List Char := (nfc (stripBy id value)).map posixChar

/-- The loop of `normalize_index_path`. -/
def collectParts : List (List Char) → Except String (List (List Char))
  | [] => .ok []
  | part :: rest =>
    if part = [] ∨ part = ['.'] then collectParts rest
    else if part = ['.', '.'] then .error "Index path must not escape the repository."
    else if nfc part = [] then collectParts rest
    else (collectParts rest).map (nfc part :: ·)

/-- `normalize_index_path`. -/
def normalizeIndexPath (value : List Char) : Except String (List Char) :=
  let raw := rawPath nfc value
  if raw = [] then .error "Index path must not be empty."
  else if raw.head? = some '/' ∨ hasDrive raw then
    .error "Index path must be repository-relative."
  else
    match collectParts nfc (raw.splitOn '/') with
    | .error e => .error e
    | .ok [] => .error "Index path must contain a file or directory name."
    | .ok parts => .ok (List.intercalate ['/'] parts)

/-- `code_entity_id`. -/
def codeEntityId (identifier : String → List Char → String) (repoId entityType path : List Char)
    (qualifiedName : List Char) (declarationOrdinal : Option ℤ) : Except String String :=
  let normalizedPath := if path = ['.'] then .ok ['.'] else normalizeIndexPath nfc path
  let ordinal := (declarationOrdinal.map fun n => "\x00#decl:".toList ++ (toString n).toList).getD []
  normalizedPath.map fun path => identifier "ent" (List.intercalate ['\x00']
    [repoId, entityType, path, qualifiedName] ++ ordinal)

/-- A result is normalised: it is its own result, and it identifies the entities of the path that
it was made of. -/
structure Normalised (identifier : String → List Char → String) (s path : List Char) : Prop where
  fixed : normalizeIndexPath nfc path = .ok path
  relative : path.head? ≠ some '/'
  components : ∀ part ∈ path.splitOn '/', part ≠ [] ∧ part ≠ ['.'] ∧ part ≠ ['.', '.']
  posix : '\\' ∉ path
  drive : hasDrive path = false
  sameId : ∀ repoId entityType qualifiedName ordinal,
    codeEntityId nfc identifier repoId entityType s qualifiedName ordinal =
      codeEntityId nfc identifier repoId entityType path qualifiedName ordinal

def components (s : List Char) : List (List Char) :=
  ((rawPath nfc s).splitOn '/').filter fun part => part ≠ [] ∧ part ≠ ['.']

/-- The first component begins with no drive and no blank, and the last ends with no blank. -/
structure Tidy (s : List Char) : Prop where
  first : ∀ part ∈ (components nfc s).head?,
    hasDrive part = false ∧ ∀ c ∈ part.head?, isSpace c = false
  last : ∀ part ∈ (components nfc s).getLast?, ∀ c ∈ part.getLast?, isSpace c = false

/-- The normal form is closed under substrings, `/` composes with no other character, and ASCII
texts are in the form. -/
structure NormalForm : Prop where
  idempotent : ∀ s, nfc (nfc s) = nfc s
  substring : ∀ {s t}, nfc s = s → t <:+: s → nfc t = t
  join : ∀ {s t}, nfc s = s → nfc t = t → nfc (s ++ ['/'] ++ t) = s ++ ['/'] ++ t
  ascii : ∀ s, (∀ c ∈ s, c.toNat < 128) → nfc s = s

section

variable {nfc} {s path part : List Char} {parts : List (List Char)}

theorem map_posixChar (h : '\\' ∉ path) : path.map posixChar = path := by
  conv_rhs => rw [← List.map_id path]
  refine List.map_congr_left fun c hc => ?_
  unfold posixChar
  rw [if_neg]
  · rfl
  rintro rfl
  exact h hc

theorem notMem_rawPath : '\\' ∉ rawPath nfc s := by
  intro h
  obtain ⟨c, -, hc⟩ := List.mem_map.mp h
  unfold posixChar at hc
  split_ifs at hc with heq
  · cases hc
  · exact heq hc

theorem normal_of_mem (hnfc : NormalForm nfc) (h : part ∈ (rawPath nfc s).splitOn '/') :
    nfc part = part := by
  have hwithin := infix_intercalate ['/'] h
  rw [List.intercalate_splitOn] at hwithin
  obtain ⟨t, ht, rfl⟩ := List.infix_map_iff.mp hwithin
  have hslash : '\\' ∉ t := by
    intro hc
    exact notMem_of_mem_splitOn h (List.mem_map.mpr ⟨'\\', hc, rfl⟩)
  rw [map_posixChar hslash]
  exact hnfc.substring (hnfc.idempotent _) ht

theorem collectParts_eq_ok_iff {l : List (List Char)} (h : ∀ part ∈ l, nfc part = part) :
    collectParts nfc l = .ok parts ↔
      ['.', '.'] ∉ l ∧ (l.filter fun part => part ≠ [] ∧ part ≠ ['.']) = parts := by
  induction l generalizing parts with
  | nil => simp [collectParts]
  | cons part rest ih =>
    have ih {parts} := @ih parts fun part hpart => h part (List.mem_cons_of_mem _ hpart)
    have hpart := h part List.mem_cons_self
    rw [collectParts, hpart]
    by_cases hdrop : part = [] ∨ part = ['.']
    · rw [if_pos hdrop, ih]
      rcases hdrop with rfl | rfl <;> simp
    rw [if_neg hdrop]
    rw [not_or] at hdrop
    by_cases hup : part = ['.', '.']
    · simp [hup]
    rw [if_neg hup, if_neg hdrop.1]
    cases hrest : collectParts nfc rest with
    | error e =>
      have hnone : ['.', '.'] ∈ rest := by
        by_contra hnot
        rw [ih.mpr ⟨hnot, rfl⟩] at hrest
        cases hrest
      simp [Except.map, hnone]
    | ok kept =>
      obtain ⟨hnot, rfl⟩ := ih.mp hrest
      simp [Except.map, hdrop.1, hdrop.2, hnot, Ne.symm hup]

theorem normalizeIndexPath_eq_ok_iff (hnfc : NormalForm nfc) :
    normalizeIndexPath nfc s = .ok path ↔
      rawPath nfc s ≠ [] ∧ (rawPath nfc s).head? ≠ some '/' ∧ hasDrive (rawPath nfc s) = false ∧
        ['.', '.'] ∉ (rawPath nfc s).splitOn '/' ∧ components nfc s ≠ [] ∧
          List.intercalate ['/'] (components nfc s) = path := by
  have hcollect {parts} :=
    @collectParts_eq_ok_iff nfc parts _ fun part => normal_of_mem (s := s) hnfc
  unfold normalizeIndexPath
  dsimp only
  by_cases hempty : rawPath nfc s = []
  · simp [hempty]
  by_cases habsolute : (rawPath nfc s).head? = some '/' ∨ hasDrive (rawPath nfc s)
  · rw [if_neg hempty, if_pos habsolute]
    simp only [reduceCtorEq, false_iff]
    rintro ⟨-, hhead, hdrive, -⟩
    rcases habsolute with habsolute | habsolute
    · exact hhead habsolute
    · exact Bool.false_ne_true (hdrive.symm.trans habsolute)
  rw [if_neg hempty, if_neg habsolute]
  rw [not_or, Bool.not_eq_true] at habsolute
  split
  · rename_i e herror
    simp only [reduceCtorEq, false_iff]
    rintro ⟨-, -, -, hup, -⟩
    rw [hcollect.mpr ⟨hup, rfl⟩] at herror
    cases herror
  · rename_i hnone
    rw [components, (hcollect.mp hnone).2]
    simp
  · rename_i kept hkept hok
    obtain ⟨hup, rfl⟩ := hcollect.mp hok
    simp only [Except.ok.injEq]
    exact ⟨fun hpath => ⟨hempty, habsolute.1, habsolute.2, hup, hkept, hpath⟩,
      fun hall => hall.2.2.2.2.2⟩

theorem normal_intercalate (hnfc : NormalForm nfc) (hne : parts ≠ [])
    (h : ∀ part ∈ parts, nfc part = part) :
    nfc (List.intercalate ['/'] parts) = List.intercalate ['/'] parts := by
  induction parts with
  | nil => exact absurd rfl hne
  | cons part rest ih =>
    have hpart := h part List.mem_cons_self
    by_cases hrest : rest = []
    · rw [hrest, List.intercalate_singleton, hpart]
    · rw [List.intercalate_cons_of_ne_nil hrest]
      exact hnfc.join hpart (ih hrest fun part hmem => h part (List.mem_cons_of_mem _ hmem))

/-- A text of components begins as its first and ends as its last. -/
theorem ends_intercalate (hne : parts ≠ []) (h : ∀ part ∈ parts, part ≠ []) :
    (∃ first ∈ parts.head?, (List.intercalate ['/'] parts).head? = first.head? ∧
      hasDrive (List.intercalate ['/'] parts) = hasDrive first) ∧
    ∃ last ∈ parts.getLast?, (List.intercalate ['/'] parts).getLast? = last.getLast? := by
  constructor
  · cases parts with
    | nil => exact absurd rfl hne
    | cons first rest =>
      refine ⟨first, rfl, ?_⟩
      by_cases hrest : rest = []
      · rw [hrest, List.intercalate_singleton]
        exact ⟨rfl, rfl⟩
      rw [List.intercalate_cons_of_ne_nil hrest]
      match first, h first List.mem_cons_self with
      | [c], _ => exact ⟨rfl, rfl⟩
      | c :: d :: first, _ =>
        refine ⟨rfl, ?_⟩
        by_cases hd : d = ':'
        · rw [hd]
          rfl
        · simp [hasDrive, hd]
  · cases parts using List.reverseRecOn with
    | nil => exact absurd rfl hne
    | append_singleton init last =>
      refine ⟨last, List.getLast?_concat, ?_⟩
      by_cases hinit : init = []
      · rw [hinit, List.nil_append, List.intercalate_singleton]
      · rw [intercalate_append hinit (List.cons_ne_nil _ _), List.intercalate_singleton,
          List.getLast?_append_of_ne_nil _ (h last (List.mem_append_right _ List.mem_cons_self))]

theorem components_sublist (nfc : List Char → List Char) (s : List Char) :
    (components nfc s).Sublist ((rawPath nfc s).splitOn '/') := List.filter_sublist

variable (hnfc : NormalForm nfc) (h : normalizeIndexPath nfc s = .ok path)

include hnfc h

/-- The components of a result are those that were kept. -/
theorem splitOn_result : path.splitOn '/' = components nfc s ∧ components nfc s ≠ [] := by
  obtain ⟨-, -, -, -, hne, rfl⟩ := (normalizeIndexPath_eq_ok_iff hnfc).mp h
  refine ⟨List.splitOn_intercalate '/' (fun part hpart => ?_) hne, hne⟩
  exact notMem_of_mem_splitOn (List.mem_filter.mp hpart).1

theorem normal_result : nfc path = path ∧ '\\' ∉ path := by
  obtain ⟨-, -, -, -, hne, rfl⟩ := (normalizeIndexPath_eq_ok_iff hnfc).mp h
  constructor
  · exact normal_intercalate hnfc hne fun part hpart =>
      normal_of_mem hnfc (List.mem_filter.mp hpart).1
  · intro hmem
    have hraw := (intercalate_sublist ['/'] (components_sublist nfc s)).subset hmem
    rw [List.intercalate_splitOn] at hraw
    exact notMem_rawPath hraw

theorem rawPath_result : rawPath nfc path = stripBy id path := by
  obtain ⟨hnormal, hposix⟩ := normal_result hnfc h
  have hwithin : stripBy id path <:+: path := isInfix_stripBy id path
  rw [rawPath, hnfc.substring hnormal hwithin]
  exact map_posixChar fun hmem => hposix (hwithin.subset hmem)

theorem tidy_iff : Tidy nfc s ↔ hasDrive path = false ∧ stripBy id path = path := by
  obtain ⟨-, -, -, -, hne, rfl⟩ := (normalizeIndexPath_eq_ok_iff hnfc).mp h
  obtain ⟨⟨first, hfirst, hhead, hdrive⟩, last, hlast, hend⟩ :=
    ends_intercalate hne fun part hpart => (of_decide_eq_true (List.mem_filter.mp hpart).2).1
  rw [stripBy_eq_self_iff, hdrive, hhead, hend]
  constructor
  · intro htidy
    exact ⟨(htidy.first first hfirst).1, (htidy.first first hfirst).2, htidy.last last hlast⟩
  · rintro ⟨hdrive, hhead, hend⟩
    constructor
    · intro part hpart
      obtain rfl := Option.some.inj (hfirst.symm.trans hpart)
      exact ⟨hdrive, hhead⟩
    · intro part hpart
      obtain rfl := Option.some.inj (hlast.symm.trans hpart)
      exact hend

/-- A result that is its own result is not stripped again. -/
theorem tidy_of_fixed (hfixed : normalizeIndexPath nfc path = .ok path) : Tidy nfc s := by
  obtain ⟨-, -, hdrive, -, -, hpath⟩ := (normalizeIndexPath_eq_ok_iff hnfc).mp hfixed
  have hsub := intercalate_sublist ['/'] (components_sublist nfc path)
  rw [hpath, List.intercalate_splitOn, rawPath_result hnfc h] at hsub
  have hstrip := (isInfix_stripBy id path).sublist.antisymm hsub
  rw [rawPath_result hnfc h, hstrip] at hdrive
  exact (tidy_iff hnfc h).mpr ⟨hdrive, hstrip⟩

theorem components_result : ∀ part ∈ components nfc s,
    part ≠ [] ∧ part ≠ ['.'] ∧ part ≠ ['.', '.'] := by
  obtain ⟨-, -, -, hup, -, -⟩ := (normalizeIndexPath_eq_ok_iff hnfc).mp h
  intro part hpart
  obtain ⟨hmem, hkept⟩ := List.mem_filter.mp hpart
  refine ⟨(of_decide_eq_true hkept).1, (of_decide_eq_true hkept).2, ?_⟩
  rintro rfl
  exact hup hmem

theorem head_result : path ≠ [] ∧ path.head? ≠ some '/' := by
  obtain ⟨hsplit, -⟩ := splitOn_result hnfc h
  have hnil : [] ∉ path.splitOn '/' := by
    rw [hsplit]
    exact fun hmem => (components_result hnfc h [] hmem).1 rfl
  constructor
  · rintro rfl
    exact hnil List.mem_cons_self
  · intro hhead
    obtain ⟨rest, rfl⟩ := List.head?_eq_some_iff.mp hhead
    rw [← List.nil_append ('/' :: rest), List.splitOn_append_cons_self] at hnil
    exact hnil (List.mem_append_left _ List.mem_cons_self)

theorem fixed_of_tidy (htidy : Tidy nfc s) : normalizeIndexPath nfc path = .ok path := by
  obtain ⟨hdrive, hstrip⟩ := (tidy_iff hnfc h).mp htidy
  obtain ⟨hsplit, hne⟩ := splitOn_result hnfc h
  obtain ⟨hpath, hhead⟩ := head_result hnfc h
  have hraw : rawPath nfc path = path := (rawPath_result hnfc h).trans hstrip
  have hcomponents : components nfc path = components nfc s := by
    rw [components, hraw, hsplit]
    exact List.filter_eq_self.mpr fun part hpart => (List.mem_filter.mp hpart).2
  rw [normalizeIndexPath_eq_ok_iff hnfc, hraw, hcomponents, hsplit]
  refine ⟨hpath, hhead, hdrive, fun hup => (components_result hnfc h _ hup).2.2 rfl, hne, ?_⟩
  rw [← hsplit, List.intercalate_splitOn]

theorem ne_dot : s ≠ ['.'] ∧ path ≠ ['.'] := by
  obtain ⟨hsplit, hne⟩ := splitOn_result hnfc h
  constructor
  · rintro rfl
    have hraw : rawPath nfc ['.'] = ['.'] := by
      rw [rawPath, show stripBy id ['.'] = ['.'] from rfl, hnfc.ascii ['.'] (by simp)]
      rfl
    rw [components, hraw] at hne
    exact hne rfl
  · rintro rfl
    have hmem : ['.'] ∈ components nfc s := hsplit ▸ List.mem_singleton_self ['.']
    exact (components_result hnfc h ['.'] hmem).2.1 rfl

end

/-- A result is normalised if and only if no drive and no blank is uncovered. -/
theorem normalised_iff (hnfc : NormalForm nfc) (identifier : String → List Char → String)
    (s path : List Char) (h : normalizeIndexPath nfc s = .ok path) :
    Normalised nfc identifier s path ↔ Tidy nfc s := by
  constructor
  · intro hnormalised
    exact tidy_of_fixed hnfc h hnormalised.fixed
  · intro htidy
    have hfixed := fixed_of_tidy hnfc h htidy
    obtain ⟨hsplit, -⟩ := splitOn_result hnfc h
    obtain ⟨hs, hpath⟩ := ne_dot hnfc h
    refine ⟨hfixed, (head_result hnfc h).2, ?_, (normal_result hnfc h).2,
      ((tidy_iff hnfc h).mp htidy).1, ?_⟩
    · rw [hsplit]
      exact components_result hnfc h
    · intro repoId entityType qualifiedName ordinal
      unfold codeEntityId
      dsimp only
      rw [if_neg hs, if_neg hpath, h, hfixed]

theorem normalForm_id : NormalForm id :=
  ⟨fun _ => rfl, fun _ _ => rfl, fun _ _ => rfl, fun _ _ => rfl⟩

theorem normalised_model : Normalised id (fun kind _ => kind) " .\\src//./model.py".toList
    "src/model.py".toList := by
  have hcomponents : components id " .\\src//./model.py".toList =
      ["src".toList, "model.py".toList] := by decide +kernel
  refine (normalised_iff id normalForm_id _ _ _ (by decide +kernel)).mpr ⟨?_, ?_⟩
  · rw [hcomponents]
    rintro _ ⟨⟩
    refine ⟨by decide, ?_⟩
    rintro _ ⟨⟩
    decide
  · rw [hcomponents]
    rintro _ ⟨⟩ _ ⟨⟩
    decide

/-- `./C:/x` passes, and the result `C:/x` does not. -/
theorem not_normalised_drive : normalizeIndexPath id "./C:/x".toList = .ok "C:/x".toList ∧
    ¬ Normalised id (fun kind _ => kind) "./C:/x".toList "C:/x".toList := by
  refine ⟨by decide +kernel, fun h => ?_⟩
  have hdrive := h.drive
  revert hdrive
  decide +kernel

end CodeResearch.Indexing.PathNormalizer
