import CodeResearch.Library.Files
import Mathlib.Data.List.Infix

/-!
# File trees with directories and symbolic links

A tree has a directory above each of its entries. Making a directory or a file adds one
entry below a directory, and resolving a path follows the links on its way.
-/
namespace CodeResearch

inductive Entry (β : Type*)
  | file (content : β) | directory | link (target : List Char)
deriving DecidableEq

structure FileTree (β : Type*) where
  entry : Path → Option (Entry β)
  root : entry [] = some .directory
  closed : ∀ p s, entry (p ++ [s]) ≠ none → entry p = some .directory

/-- What a call of the operating system raises. -/
inductive OsError
  /-- `FileNotFoundError` -/
  | notFound
  /-- every other `OSError` -/
  | failed
deriving DecidableEq

namespace FileTree

variable {β : Type*} (t : FileTree β) {p q : Path}

theorem directory_of_prefix (hstart : p <+: q) (hne : p ≠ q) (h : t.entry q ≠ none) :
    t.entry p = some .directory := by
  induction q using List.reverseRecOn with
  | nil => exact absurd (List.prefix_nil.mp hstart) hne
  | append_singleton q s ih =>
    have hdirectory := t.closed q s h
    rcases List.prefix_concat_iff.mp hstart with heq | hstart
    · exact absurd heq hne
    · by_cases hpq : p = q
      · rw [hpq]
        exact hdirectory
      · exact ih hstart hpq (by rw [hdirectory]; nofun)

theorem none_of_prefix (hstart : p <+: q) (h : t.entry p = none) : t.entry q = none := by
  by_contra hsome
  by_cases hpq : p = q
  · exact hsome (hpq ▸ h)
  · rw [t.directory_of_prefix hstart hpq hsome] at h
    cases h

def add (p : Path) (e : Entry β) (hfree : t.entry p = none)
    (hparent : t.entry p.dropLast = some .directory) : FileTree β where
  entry := Function.update t.entry p (some e)
  root := by
    rw [Function.update_of_ne]
    · exact t.root
    · rintro rfl
      rw [t.root] at hfree
      cases hfree
  closed := by
    intro q s h
    have hq : t.entry q = some .directory := by
      by_cases hqs : q ++ [s] = p
      · rw [← hqs, List.dropLast_concat] at hparent
        exact hparent
      · rw [Function.update_of_ne hqs] at h
        exact t.closed q s h
    rw [Function.update_of_ne]
    · exact hq
    · rintro rfl
      rw [hfree] at hq
      cases hq

def setContent (p : Path) (content : β) (h : ∃ old, t.entry p = some (.file old)) :
    FileTree β where
  entry := Function.update t.entry p (some (.file content))
  root := by
    rw [Function.update_of_ne]
    · exact t.root
    · rintro rfl
      obtain ⟨old, hold⟩ := h
      rw [t.root] at hold
      cases hold
  closed := by
    obtain ⟨old, hold⟩ := h
    intro q s hqs
    have hq : t.entry q = some .directory := by
      apply t.closed q s
      by_cases heq : q ++ [s] = p
      · rw [heq, hold]
        nofun
      · rwa [Function.update_of_ne heq] at hqs
    rw [Function.update_of_ne]
    · exact hq
    · rintro rfl
      rw [hold] at hq
      cases hq

/-- Is an entry below `p` in the way of its removal? -/
def Stays (kept : List Path) (p : Path) : Prop :=
  ∃ k ∈ kept, p <+: k ∧ t.entry k ≠ none

instance [DecidableEq β] (kept : List Path) (p : Path) : Decidable (t.Stays kept p) :=
  inferInstanceAs (Decidable (∃ k ∈ kept, _))

/-- `shutil.rmtree(p, ignore_errors=True)`, where the entries at the kept paths cannot be
removed. -/
def rmtree [DecidableEq β] (kept : List Path) (p : Path) : FileTree β where
  entry q := if q ≠ [] ∧ p <+: q ∧ ¬ t.Stays kept q then none else t.entry q
  root := by
    rw [if_neg fun h => h.1 rfl]
    exact t.root
  closed := by
    intro q s h
    split_ifs at h with hremoved
    · exact absurd rfl h
    · rw [if_neg]
      · exact t.closed q s h
      · rintro ⟨_, hstart, hstays⟩
        refine hremoved ⟨by simp, hstart.trans (List.prefix_append _ _), ?_⟩
        rintro ⟨k, hk, hqk, hentry⟩
        exact hstays ⟨k, hk, (List.prefix_append _ _).trans hqk, hentry⟩

/-- `os.mkdir`. -/
def mkdir [DecidableEq β] (p : Path) : Except OsError (FileTree β) :=
  if hfree : t.entry p = none then
    if hparent : t.entry p.dropLast = some .directory then .ok (t.add p .directory hfree hparent)
    else if t.entry p.dropLast = none then .error .notFound
    else .error .failed
  else .error .failed

/-- `open(p, "xb")`. -/
def create [DecidableEq β] (p : Path) (content : β) : Except OsError (FileTree β) :=
  if hfree : t.entry p = none then
    if hparent : t.entry p.dropLast = some .directory then
      .ok (t.add p (.file content) hfree hparent)
    else .error .notFound
  else .error .failed

def write (p : Path) (content : β) : Except OsError (FileTree β) :=
  match h : t.entry p with
  | some (.file old) => .ok (t.setContent p content ⟨old, h⟩)
  | _ => .error .failed

/-- One entry is new, and stands in a directory. -/
structure Added (t u : FileTree β) (p : Path) (e : Entry β) : Prop where
  free : t.entry p = none
  parent : t.entry p.dropLast = some .directory
  entry : u.entry p = some e
  frame : ∀ q, q ≠ p → u.entry q = t.entry q

variable {t} {u : FileTree β} {content : β}

theorem added_of_mkdir [DecidableEq β] (h : t.mkdir p = .ok u) : Added t u p .directory := by
  unfold mkdir at h
  split_ifs at h with hfree hparent
  cases h
  exact ⟨hfree, hparent, Function.update_self .., fun q hq => Function.update_of_ne hq ..⟩

theorem added_of_create [DecidableEq β] (h : t.create p content = .ok u) :
    Added t u p (.file content) := by
  unfold create at h
  split_ifs at h with hfree hparent
  cases h
  exact ⟨hfree, hparent, Function.update_self .., fun q hq => Function.update_of_ne hq ..⟩

theorem write_eq_ok (h : t.write p content = .ok u) :
    (∃ old, t.entry p = some (.file old)) ∧ u.entry p = some (.file content) ∧
      ∀ q, q ≠ p → u.entry q = t.entry q := by
  unfold write at h
  split at h
  · rename_i old hold
    cases h
    exact ⟨⟨old, hold⟩, Function.update_self .., fun q hq => Function.update_of_ne hq ..⟩
  · cases h

theorem exists_write (h : ∃ old, t.entry p = some (.file old)) :
    ∃ u, t.write p content = .ok u := by
  obtain ⟨old, hold⟩ := h
  unfold write
  split
  · exact ⟨_, rfl⟩
  · rename_i hnot
    exact absurd hold (hnot old)

theorem entry_rmtree_of_not_below [DecidableEq β] {kept : List Path} (h : ¬ p <+: q) :
    (t.rmtree kept p).entry q = t.entry q := if_neg fun hremoved => h hremoved.2.1

theorem entry_rmtree_nil [DecidableEq β] (hp : p ≠ []) (h : p <+: q) :
    (t.rmtree [] p).entry q = none := by
  apply if_pos
  refine ⟨fun hq => hp (List.prefix_nil.mp (hq ▸ h)), h, ?_⟩
  rintro ⟨k, hk, _⟩
  cases hk

/-- `os.readlink`, or nothing where no link stands. -/
def linkAt (t : FileTree β) (p : Path) : Option (List Char) :=
  match t.entry p with
  | some (.link target) => some target
  | _ => none

def walkWith (t : FileTree β) (follow : Path → List Segment → Except OsError Path) :
    Path → List Segment → Except OsError Path
  | p, [] => .ok p
  | p, s :: rest =>
    if s = [] ∨ s = ['.'] then t.walkWith follow p rest
    else if s = ['.', '.'] then t.walkWith follow p.dropLast rest
    else
      match t.linkAt (p ++ [s]) with
      | none => t.walkWith follow (p ++ [s]) rest
      | some target =>
        follow (if target.head? = some '/' then [] else p) (target.splitOn '/' ++ rest)

/-- The walk of `os.path.realpath`, which follows so many links. -/
def walk (t : FileTree β) : ℕ → Path → List Segment → Except OsError Path
  | 0 => t.walkWith fun _ _ => .error .failed
  | links + 1 => t.walkWith (t.walk links)

/-- A name that a resolved path is made of. -/
def Named (s : Segment) : Prop := s ≠ [] ∧ s ≠ ['.'] ∧ s ≠ ['.', '.']

section Walk

variable {follow : Path → List Segment → Except OsError Path} {names : List Segment}

theorem named_of_walkWith
    (hfollow : ∀ p names, (∀ s ∈ p, Named s) → follow p names = .ok q → ∀ s ∈ q, Named s)
    (hp : ∀ s ∈ p, Named s) (h : t.walkWith follow p names = .ok q) : ∀ s ∈ q, Named s := by
  induction names generalizing p with
  | nil =>
    cases h
    exact hp
  | cons s rest ih =>
    rw [walkWith] at h
    split_ifs at h with hskip hdots
    · exact ih hp h
    · exact ih (fun s hs => hp s (List.mem_of_mem_dropLast hs)) h
    · cases hlink : t.linkAt (p ++ [s]) with
      | none =>
        rw [hlink] at h
        refine ih ?_ h
        intro s' hs'
        rcases List.mem_append.mp hs' with hs' | hs'
        · exact hp s' hs'
        · rw [List.mem_singleton.mp hs']
          exact ⟨fun h => hskip (.inl h), fun h => hskip (.inr h), hdots⟩
      | some target =>
        rw [hlink] at h
        refine hfollow _ _ ?_ h
        split_ifs
        · simp
        · exact hp

theorem named_of_walk {links : ℕ} (hp : ∀ s ∈ p, Named s) (h : t.walk links p names = .ok q) :
    ∀ s ∈ q, Named s := by
  induction links generalizing p names with
  | zero => exact named_of_walkWith (fun _ _ _ h => by cases h) hp h
  | succ links ih => exact named_of_walkWith (fun _ _ hp h => ih hp h) hp h

theorem walkWith_eq (hdots : ∀ s ∈ names, s ≠ ['.', '.'])
    (hlinks : ∀ front, front <+: names.filter (fun s => s ≠ [] ∧ s ≠ ['.']) →
      t.linkAt (p ++ front) = none) :
    t.walkWith follow p names = .ok (p ++ names.filter fun s => s ≠ [] ∧ s ≠ ['.']) := by
  induction names generalizing p with
  | nil =>
    rw [walkWith, List.filter_nil, List.append_nil]
  | cons s rest ih =>
    obtain ⟨hs, hdots⟩ := List.forall_mem_cons.mp hdots
    by_cases hskip : s = [] ∨ s = ['.']
    · have hfilter : (s :: rest).filter (fun s => s ≠ [] ∧ s ≠ ['.']) =
          rest.filter fun s => s ≠ [] ∧ s ≠ ['.'] := by
        apply List.filter_cons_of_neg
        rw [decide_eq_true_eq]
        tauto
      rw [hfilter] at hlinks ⊢
      rw [walkWith, if_pos hskip, ih hdots hlinks]
    · have hfilter : (s :: rest).filter (fun s => s ≠ [] ∧ s ≠ ['.']) =
          s :: rest.filter fun s => s ≠ [] ∧ s ≠ ['.'] := by
        apply List.filter_cons_of_pos
        rw [decide_eq_true_eq]
        tauto
      rw [hfilter] at hlinks ⊢
      have hnone : t.linkAt (p ++ [s]) = none := hlinks [s] (by simp)
      rw [walkWith, if_neg hskip, if_neg hs, hnone]
      dsimp only
      rw [ih hdots]
      · rw [List.append_assoc, List.singleton_append]
      · intro front hfront
        rw [List.append_assoc, List.singleton_append]
        exact hlinks (s :: front) (List.cons_prefix_cons.mpr ⟨rfl, hfront⟩)

theorem walk_eq {links : ℕ} (hdots : ∀ s ∈ names, s ≠ ['.', '.'])
    (hlinks : ∀ front, front <+: names.filter (fun s => s ≠ [] ∧ s ≠ ['.']) →
      t.linkAt (p ++ front) = none) :
    t.walk links p names = .ok (p ++ names.filter fun s => s ≠ [] ∧ s ≠ ['.']) := by
  cases links with
  | zero | succ => exact walkWith_eq hdots hlinks

end Walk

theorem linkAt_directory (h : t.entry p = some .directory) : t.linkAt p = none := by
  rw [linkAt, h]

end FileTree

end CodeResearch
