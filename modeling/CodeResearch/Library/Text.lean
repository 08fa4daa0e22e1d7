import Mathlib.Data.Countable.Basic
import Mathlib.Data.List.DropRight
import Mathlib.Logic.Equiv.List

/-!
# Texts made of parts

Parts joined by separators and numbers written in digits can be told apart. Payloads of a
countable type have a digest that tells them apart, so an assumption that a development's
digests are injective can be met. White space is stripped from texts and texts are split into
lines also where each character carries a mark.
-/
namespace CodeResearch

def Separated {α : Type*} (sep : α) (l : List α) : Prop := l = [] ∨ l.head? = some sep

variable {α : Type*}

/-- The first part of a separated list and the rest are determined. -/
theorem append_separated_inj {sep : α} {x y r s : List α} (hx : sep ∉ x) (hy : sep ∉ y)
    (hr : Separated sep r) (hs : Separated sep s) :
    x ++ r = y ++ s ↔ x = y ∧ r = s := by
  constructor
  · intro h
    induction x generalizing y with
    | nil =>
      cases y with
      | nil => exact ⟨rfl, h⟩
      | cons b y =>
        rw [List.nil_append] at h
        rcases hr with rfl | hhead
        · simp at h
        · rw [h, List.cons_append, List.head?_cons, Option.some.injEq] at hhead
          exact absurd (hhead ▸ List.mem_cons_self) hy
    | cons a x ih =>
      cases y with
      | nil =>
        rw [List.nil_append] at h
        rcases hs with rfl | hhead
        · simp at h
        · rw [← h, List.cons_append, List.head?_cons, Option.some.injEq] at hhead
          exact absurd (hhead ▸ List.mem_cons_self) hx
      | cons b y =>
        rw [List.cons_append, List.cons_append, List.cons_eq_cons] at h
        obtain ⟨rfl, h⟩ := h
        obtain ⟨rfl, hrest⟩ := ih (fun hmem => hx (List.mem_cons_of_mem _ hmem))
          (fun hmem => hy (List.mem_cons_of_mem _ hmem)) h
        exact ⟨rfl, hrest⟩
  · rintro ⟨rfl, rfl⟩
    rfl

theorem append_last_inj {sep : α} {x y r s : List α} (hr : sep ∉ r) (hs : sep ∉ s) :
    x ++ sep :: r = y ++ sep :: s ↔ x = y ∧ r = s := by
  have hreverse := @append_separated_inj α sep r.reverse s.reverse (sep :: x.reverse)
    (sep :: y.reverse) (by simpa using hr) (by simpa using hs) (.inr rfl) (.inr rfl)
  rw [← List.reverse_inj, List.reverse_append, List.reverse_append, List.reverse_cons,
    List.reverse_cons, List.append_assoc, List.append_assoc, List.singleton_append,
    List.singleton_append, hreverse, List.cons_inj_right, List.reverse_inj, List.reverse_inj]
  exact and_comm

theorem notMem_of_mem_splitOn [BEq α] [LawfulBEq α] {sep : α} {l piece : List α}
    (h : piece ∈ l.splitOn sep) : sep ∉ piece := by
  induction l generalizing piece with
  | nil =>
    rw [List.splitOn_nil, List.mem_singleton] at h
    rw [h]
    exact List.not_mem_nil
  | cons a l ih =>
    rw [List.splitOn_cons_eq_if_modifyHead] at h
    cases hpieces : l.splitOn sep with
    | nil => exact absurd hpieces (List.splitOn_ne_nil sep l)
    | cons first rest =>
      rw [hpieces] at h ih
      by_cases ha : (a == sep) = true
      · rw [if_pos ha] at h
        rcases List.mem_cons.mp h with rfl | h
        · exact List.not_mem_nil
        · exact ih h
      · rw [if_neg ha, List.modifyHead_cons] at h
        rcases List.mem_cons.mp h with rfl | h
        · rw [List.mem_cons, not_or]
          exact ⟨fun hsep => ha (beq_iff_eq.mpr hsep.symm), ih List.mem_cons_self⟩
        · exact ih (List.mem_cons_of_mem _ h)

theorem intercalate_append {sep : List α} {xs ys : List (List α)} (hxs : xs ≠ []) (hys : ys ≠ []) :
    sep.intercalate (xs ++ ys) = sep.intercalate xs ++ sep ++ sep.intercalate ys := by
  induction xs with
  | nil => exact absurd rfl hxs
  | cons x xs ih =>
    cases xs with
    | nil => rw [List.singleton_append, List.intercalate_cons_of_ne_nil hys,
        List.intercalate_singleton]
    | cons y xs =>
      have htail := ih (List.cons_ne_nil y xs)
      rw [List.cons_append, List.intercalate_cons_of_ne_nil (by simp), htail,
        List.intercalate_cons_of_ne_nil (List.cons_ne_nil y xs)]
      simp only [List.append_assoc]

theorem sublist_intercalate_cons (sep a : List α) (l : List (List α)) :
    (sep.intercalate l).Sublist (sep.intercalate (a :: l)) ∧
      a.Sublist (sep.intercalate (a :: l)) := by
  cases l with
  | nil =>
    rw [List.intercalate_nil, List.intercalate_singleton]
    exact ⟨List.nil_sublist a, List.Sublist.refl a⟩
  | cons b l =>
    rw [List.intercalate_cons_of_ne_nil (List.cons_ne_nil b l), List.append_assoc]
    exact ⟨(List.sublist_append_right sep _).trans (List.sublist_append_right a _),
      List.sublist_append_left a _⟩

theorem intercalate_sublist (sep : List α) {l l' : List (List α)} (h : l.Sublist l') :
    (sep.intercalate l).Sublist (sep.intercalate l') := by
  induction h with
  | slnil => exact List.Sublist.refl _
  | cons a _ ih => exact ih.trans (sublist_intercalate_cons sep a _).1
  | cons_cons a hsub ih =>
    rename_i l l'
    by_cases hl : l = []
    · rw [hl, List.intercalate_singleton]
      exact (sublist_intercalate_cons sep a l').2
    · have hl' : l' ≠ [] := fun hnil => hl (List.sublist_nil.mp (hnil ▸ hsub))
      rw [List.intercalate_cons_of_ne_nil hl, List.intercalate_cons_of_ne_nil hl']
      exact (List.Sublist.refl _).append ih

theorem infix_intercalate (sep : List α) {a : List α} {l : List (List α)} (h : a ∈ l) :
    a <:+: sep.intercalate l := by
  induction l with
  | nil => cases h
  | cons b l ih =>
    by_cases hl : l = []
    · rw [hl, List.mem_singleton] at h
      rw [hl, h, List.intercalate_singleton]
    · rw [List.intercalate_cons_of_ne_nil hl]
      rcases List.mem_cons.mp h with rfl | h
      · rw [List.append_assoc]
        exact (List.prefix_append _ _).isInfix
      · exact (ih h).trans (List.suffix_append _ _).isInfix

theorem toString_nat_injective : Function.Injective fun n : ℕ => (toString n).toList := by
  intro n m h
  have hdigits := congrArg (fun digits => Nat.ofDigitChars 10 digits 0) h
  simpa [Nat.toString_eq_repr, Nat.toList_repr, Nat.ofDigitChars_toDigits] using hdigits

theorem isDigit_of_mem_toString {n : ℕ} {c : Char} (h : c ∈ (toString n).toList) : c.isDigit := by
  rw [Nat.toString_eq_repr, Nat.toList_repr] at h
  exact Nat.isDigit_of_mem_toDigits (by decide) (by decide) h

/-- `str.isspace` of a character. -/
def isSpace (c : Char) : Bool :=
  let n := c.toNat
  9 ≤ n && n ≤ 13 || 28 ≤ n && n ≤ 32 || n = 0x85 || n = 0xa0 || n = 0x1680 ||
    0x2000 ≤ n && n ≤ 0x200a || n = 0x2028 || n = 0x2029 || n = 0x202f || n = 0x205f || n = 0x3000

/-- Where `str.splitlines` splits. -/
def isLineBreak (c : Char) : Bool :=
  let n := c.toNat
  10 ≤ n && n ≤ 13 || 28 ≤ n && n ≤ 30 || n = 0x85 || n = 0x2028 || n = 0x2029

section Marked

variable {β : Type*} (f : α → Char)

/-- `str.strip`, where `f` reads the character. -/
def stripBy (l : List α) : List α :=
  (l.dropWhile fun a => isSpace (f a)).rdropWhile fun a => isSpace (f a)

def joinBreaks : List α → List α
  | [] => []
  | a :: l => if f a = '\r' ∧ l.head?.map f = some '\n' then joinBreaks l else a :: joinBreaks l

def dropEmptyLast (pieces : List (List α)) : List (List α) :=
  if (pieces.getLastD []).isEmpty then pieces.dropLast else pieces

/-- `str.splitlines`, where `f` reads the character. -/
def splitLinesBy (l : List α) : List (List α) :=
  dropEmptyLast ((joinBreaks f l).splitOnP fun a => isLineBreak (f a))

theorem isInfix_stripBy (l : List α) : stripBy f l <:+: l :=
  (List.rdropWhile_prefix _ _).isInfix.trans (List.dropWhile_suffix _).isInfix

theorem stripBy_eq_self_iff {l : List α} : stripBy f l = l ↔
    (∀ a ∈ l.head?, isSpace (f a) = false) ∧ ∀ a ∈ l.getLast?, isSpace (f a) = false := by
  have hhead : (l.dropWhile fun a => isSpace (f a)) = l ↔
      ∀ a ∈ l.head?, isSpace (f a) = false := by
    cases l with
    | nil => simp
    | cons a l => simp [List.dropWhile_eq_self_iff]
  have hlast : (l.rdropWhile fun a => isSpace (f a)) = l ↔
      ∀ a ∈ l.getLast?, isSpace (f a) = false := by
    rw [List.rdropWhile_eq_self_iff]
    cases l using List.reverseRecOn with
    | nil | append_singleton => simp
  rw [← hhead, ← hlast]
  constructor
  · intro h
    have hdrop : (l.dropWhile fun a => isSpace (f a)) = l := by
      apply (List.dropWhile_suffix _).eq_of_length_le
      have hlength := (List.rdropWhile_prefix (fun a => isSpace (f a))
        (l.dropWhile fun a => isSpace (f a))).length_le
      rwa [← stripBy, h] at hlength
    refine ⟨hdrop, ?_⟩
    rwa [stripBy, hdrop] at h
  · rintro ⟨hdrop, hrdrop⟩
    rw [stripBy, hdrop, hrdrop]

variable (g : β → α)

theorem stripBy_map (l : List β) : stripBy f (l.map g) = (stripBy (f ∘ g) l).map g := by
  rw [stripBy, stripBy, List.rdropWhile, List.rdropWhile, List.dropWhile_map, ← List.map_reverse,
    List.dropWhile_map, List.map_reverse]
  rfl

theorem joinBreaks_map (l : List β) : joinBreaks f (l.map g) = (joinBreaks (f ∘ g) l).map g := by
  induction l with
  | nil => rfl
  | cons b l ih =>
    rw [List.map_cons, joinBreaks, joinBreaks, ih, List.head?_map, Option.map_map,
      Function.comp_apply]
    by_cases h : f (g b) = '\r' ∧ l.head?.map (f ∘ g) = some '\n'
    · rw [if_pos h, if_pos h]
    · rw [if_neg h, if_neg h, List.map_cons]

theorem splitOnP_map (p : α → Bool) (l : List β) :
    (l.map g).splitOnP p = (l.splitOnP (p ∘ g)).map (List.map g) := by
  induction l with
  | nil => rfl
  | cons b l ih =>
    rw [List.map_cons, List.splitOnP_cons_eq_if_modifyHead, List.splitOnP_cons_eq_if_modifyHead, ih,
      Function.comp_apply]
    split_ifs
    · rfl
    · cases l.splitOnP (p ∘ g) <;> rfl

theorem dropEmptyLast_map (pieces : List (List β)) :
    dropEmptyLast (pieces.map (List.map g)) = (dropEmptyLast pieces).map (List.map g) := by
  have hlast : ((pieces.map (List.map g)).getLastD []).isEmpty = (pieces.getLastD []).isEmpty := by
    rw [List.getLastD_eq_getLast?, List.getLastD_eq_getLast?, List.getLast?_map]
    cases pieces.getLast? with
    | none => rfl
    | some piece => rw [Option.map_some, Option.getD_some, Option.getD_some, List.isEmpty_map]
  rw [dropEmptyLast, dropEmptyLast, hlast]
  split_ifs
  · rw [List.map_dropLast]
  · rfl

theorem map_intercalate (sep : List β) (ls : List (List β)) :
    (sep.intercalate ls).map g = (sep.map g).intercalate (ls.map (List.map g)) := by
  induction ls with
  | nil => rfl
  | cons l ls ih =>
    cases ls with
    | nil => simp [List.intercalate]
    | cons l' ls =>
      rw [List.map_cons, List.map_cons, List.intercalate_cons_cons, List.intercalate_cons_cons,
        List.map_append, List.map_append, ih, List.map_cons]

theorem splitLinesBy_map (l : List β) :
    splitLinesBy f (l.map g) = (splitLinesBy (f ∘ g) l).map (List.map g) := by
  rw [splitLinesBy, joinBreaks_map, splitOnP_map, dropEmptyLast_map]
  rfl

end Marked

instance countableChar : Countable Char :=
  Function.Injective.countable (f := Char.toNat) fun _ _ h => Char.toNat_inj.mp h

instance countableString : Countable String :=
  Function.Injective.countable (f := String.toList) fun _ _ h => String.toList_inj.mp h

theorem exists_digest (α : Type) [Countable α] :
    ∃ digest : α → String, Function.Injective digest := by
  obtain ⟨code, hcode⟩ := exists_injective_nat α
  refine ⟨fun a => String.ofList (List.replicate (code a) 'x'), ?_⟩
  intro a b h
  have hlength := congrArg (fun s => s.toList.length) h
  simp only [String.toList_ofList, List.length_replicate] at hlength
  exact hcode hlength

end CodeResearch
