import Mathlib.Data.List.Dedup
import Mathlib.Data.List.Sort

/-!
# Rankings by a score and a name

Sorting by descending scores and then by names depends on the order of a list only where
two of its elements share a name.
-/
namespace CodeResearch

variable {α κ ι : Type*} [LinearOrder κ] [LinearOrder ι] (score : α → κ) (name : α → ι)

def RankedBefore (a b : α) : Prop := score b < score a ∨ score a = score b ∧ name a ≤ name b

instance : DecidableRel (RankedBefore score name) :=
  fun _ _ => inferInstanceAs (Decidable (_ ∨ _))

instance : Std.Total (RankedBefore score name) := by
  constructor
  intro a b
  rcases lt_trichotomy (score a) (score b) with h | h | h
  · exact .inr (.inl h)
  · rcases le_total (name a) (name b) with hname | hname
    · exact .inl (.inr ⟨h, hname⟩)
    · exact .inr (.inr ⟨h.symm, hname⟩)
  · exact .inl (.inl h)

instance : IsTrans α (RankedBefore score name) := by
  constructor
  rintro a b c (hab | ⟨hab, hab'⟩) (hbc | ⟨hbc, hbc'⟩)
  · exact .inl (hbc.trans hab)
  · exact .inl (hbc ▸ hab)
  · exact .inl (hab ▸ hbc)
  · exact .inr ⟨hab.trans hbc, hab'.trans hbc'⟩

/-- `sorted(l, key=lambda item: (-score, name))`. -/
def ranked (l : List α) : List α := l.insertionSort (RankedBefore score name)

variable {score name}

theorem perm_ranked (l : List α) : (ranked score name l).Perm l := List.perm_insertionSort _ _

@[simp] theorem mem_ranked {l : List α} {a : α} : a ∈ ranked score name l ↔ a ∈ l :=
  (perm_ranked l).mem_iff

theorem pairwise_ranked (l : List α) :
    (ranked score name l).Pairwise fun a b => score b ≤ score a := by
  apply (List.pairwise_insertionSort (RankedBefore score name) l).imp
  rintro a b (h | ⟨h, _⟩)
  · exact h.le
  · exact h.ge

theorem score_le_of_take {l : List α} {p : α → Bool} {n : ℕ} {a b : α}
    (ha : a ∈ ((ranked score name l).filter p).take n) (hb : b ∈ l) (hp : p b)
    (hleft : b ∉ ((ranked score name l).filter p).take n) : score b ≤ score a := by
  have hsorted : ((ranked score name l).filter p).Pairwise fun a b => score b ≤ score a :=
    (pairwise_ranked l).filter p
  rw [← List.take_append_drop n ((ranked score name l).filter p), List.pairwise_append] at hsorted
  have hmem : b ∈ (ranked score name l).filter p :=
    List.mem_filter.mpr ⟨mem_ranked.mpr hb, hp⟩
  rw [← List.take_append_drop n ((ranked score name l).filter p), List.mem_append] at hmem
  exact hsorted.2.2 a ha b (hmem.resolve_left hleft)

/-- A ranking does not depend on the order of a list whose names differ. -/
theorem ranked_congr {l l' : List α} (h : l.Perm l') (hnodup : (l.map name).Nodup) :
    ranked score name l = ranked score name l' := by
  apply List.Perm.eq_of_pairwise ?_ (List.pairwise_insertionSort _ _)
    (List.pairwise_insertionSort _ _) ((perm_ranked l).trans (h.trans (perm_ranked l').symm))
  intro a b ha hb hab hba
  have hname : name a = name b := by
    rcases hab with hab | ⟨hscore, hab⟩
    · rcases hba with hba | ⟨hscore, _⟩
      · exact absurd hab (not_lt_of_gt hba)
      · exact absurd (hscore ▸ hab) (lt_irrefl _)
    · rcases hba with hba | ⟨_, hba⟩
      · exact absurd (hscore ▸ hba) (lt_irrefl _)
      · exact le_antisymm hab hba
  exact List.inj_on_of_nodup_map hnodup (mem_ranked.mp ha) (h.mem_iff.mpr (mem_ranked.mp hb)) hname

variable {key : α → κ}

/-- `sorted(l, key=key)`. -/
def sortedBy (key : α → κ) (l : List α) : List α := l.insertionSort fun a b => key a ≤ key b

theorem perm_sortedBy (l : List α) : (sortedBy key l).Perm l := List.perm_insertionSort _ _

@[simp] theorem mem_sortedBy {l : List α} {a : α} : a ∈ sortedBy key l ↔ a ∈ l :=
  (perm_sortedBy l).mem_iff

theorem pairwise_sortedBy (l : List α) : (sortedBy key l).Pairwise fun a b => key a ≤ key b := by
  have : Std.Total fun a b : α => key a ≤ key b := ⟨fun a b => le_total (key a) (key b)⟩
  have : IsTrans α fun a b => key a ≤ key b := ⟨fun _ _ _ => le_trans⟩
  exact List.pairwise_insertionSort _ l

theorem sortedBy_congr {l l' : List α} (h : l.Perm l')
    (hkey : ∀ a ∈ l, ∀ b ∈ l, key a = key b → a = b) : sortedBy key l = sortedBy key l' := by
  apply List.Perm.eq_of_pairwise ?_ (pairwise_sortedBy l) (pairwise_sortedBy l')
    ((perm_sortedBy l).trans (h.trans (perm_sortedBy l').symm))
  intro a b ha hb hab hba
  exact hkey a (mem_sortedBy.mp ha) b (h.mem_iff.mpr (mem_sortedBy.mp hb)) (le_antisymm hab hba)

/-- Where no two keys are equal, the place of an element is the number of smaller keys. -/
theorem getElem?_sortedBy_iff {l : List α} (hnodup : (l.map key).Nodup) {a : α} {i : ℕ} :
    (sortedBy key l)[i]? = some a ↔ a ∈ l ∧ i = l.countP fun b => key b < key a := by
  have hstrict : (sortedBy key l).Pairwise fun a b => key a < key b := by
    have hkeys : ((sortedBy key l).map key).Nodup := ((perm_sortedBy l).map key).nodup_iff.mpr hnodup
    exact ((pairwise_sortedBy l).and (List.pairwise_map.mp hkeys)).imp fun h => lt_of_le_of_ne h.1 h.2
  have hplace : ∀ {b j}, (sortedBy key l)[j]? = some b → j = l.countP fun c => key c < key b := by
    intro b j hj
    obtain ⟨hlt, hb⟩ := List.getElem?_eq_some_iff.mp hj
    have hsplit : sortedBy key l = (sortedBy key l).take j ++ b :: (sortedBy key l).drop (j + 1) := by
      rw [← hb, ← List.drop_eq_getElem_cons, List.take_append_drop]
    rw [hsplit, List.pairwise_append, List.pairwise_cons] at hstrict
    have hbefore : ((sortedBy key l).take j).countP (fun c => key c < key b) = j := by
      rw [List.countP_eq_length.mpr fun c hc =>
        decide_eq_true (hstrict.2.2 c hc b List.mem_cons_self), List.length_take_of_le hlt.le]
    have hafter : ((sortedBy key l).drop (j + 1)).countP (fun c => key c < key b) = 0 := by
      rw [List.countP_eq_zero]
      exact fun c hc => by simpa using (hstrict.2.1.1 c hc).le
    have hcount := (@perm_sortedBy _ _ _ key l).countP_eq fun c => decide (key c < key b)
    rw [← hcount, hsplit, List.countP_append, List.countP_cons, hbefore, hafter]
    simp
  constructor
  · exact fun h => ⟨mem_sortedBy.mp (List.mem_of_getElem? h), hplace h⟩
  · rintro ⟨ha, rfl⟩
    have hmem : a ∈ sortedBy key l := mem_sortedBy.mpr ha
    obtain ⟨j, hj⟩ := List.mem_iff_getElem?.mp hmem
    rw [← hplace hj]
    exact hj

/-- `min(l, key=key)`, unless the list is empty. -/
def leastBy (key : α → κ) (l : List α) : Option α := (sortedBy key l).head?

theorem leastBy_congr {l l' : List α} (h : l.Perm l')
    (hkey : ∀ a ∈ l, ∀ b ∈ l, key a = key b → a = b) : leastBy key l = leastBy key l' := by
  rw [leastBy, leastBy, sortedBy_congr h hkey]

theorem least_congr {l l' : List ι} (h : l.Perm l') : leastBy id l = leastBy id l' :=
  leastBy_congr h fun _ _ _ _ heq => heq

theorem leastBy_spec {l : List α} {a : α} (h : leastBy key l = some a) :
    a ∈ l ∧ ∀ b ∈ l, key a ≤ key b := by
  obtain ⟨rest, hsorted⟩ := List.head?_eq_some_iff.mp h
  have hpairwise := @pairwise_sortedBy _ _ _ key l
  rw [hsorted, List.pairwise_cons] at hpairwise
  have ha : a ∈ sortedBy key l := by
    rw [hsorted]
    exact List.mem_cons_self
  refine ⟨mem_sortedBy.mp ha, fun b hb => ?_⟩
  have hmem : b ∈ sortedBy key l := mem_sortedBy.mpr hb
  rw [hsorted, List.mem_cons] at hmem
  rcases hmem with rfl | hrest
  · exact le_rfl
  · exact hpairwise.1 b hrest

theorem exists_leastBy {l : List α} (h : l ≠ []) : ∃ a, leastBy key l = some a := by
  obtain ⟨a, rest, rfl⟩ := List.exists_cons_of_ne_nil h
  refine Option.ne_none_iff_exists'.mp fun hnone => ?_
  have hempty := List.head?_eq_none_iff.mp hnone
  exact List.ne_nil_of_mem (mem_sortedBy.mpr List.mem_cons_self) hempty

theorem sortedBy_map {β : Type*} (f : β → α) (l : List β) :
    sortedBy key (l.map f) = (sortedBy (fun b => key (f b)) l).map f :=
  (List.map_insertionSort (fun a b => key (f a) ≤ key (f b)) (fun a b => key a ≤ key b) f l
    fun _ _ _ _ => Iff.rfl).symm

/-- `sorted(set(l))`. -/
def sortedSet (l : List ι) : List ι := sortedBy id l.dedup

@[simp] theorem mem_sortedSet {l : List ι} {a : ι} : a ∈ sortedSet l ↔ a ∈ l := by
  rw [sortedSet, mem_sortedBy, List.mem_dedup]

theorem sortedSet_congr {l l' : List ι} (h : ∀ a, a ∈ l ↔ a ∈ l') : sortedSet l = sortedSet l' := by
  refine sortedBy_congr ?_ fun _ _ _ _ heq => heq
  rw [List.perm_ext_iff_of_nodup (List.nodup_dedup l) (List.nodup_dedup l')]
  simpa using h

section Prefixes

variable {p : α → Bool} {n : ℕ} {l : List α}

theorem filter_take_prefix : (l.take n).filter p <+: (l.filter p).take n := by
  rw [List.prefix_take_iff]
  constructor
  · exact (List.take_prefix n l).filter p
  · exact (List.length_filter_le _ _).trans (List.length_take_le n l)

/-- The selected ones of the first elements are the first of the selected ones exactly if no
selected element stands behind one of the first that is not selected. -/
theorem filter_take_eq_iff : (l.take n).filter p = (l.filter p).take n ↔
    (∀ a ∈ l.take n, p a) ∨ ∀ a ∈ l.drop n, ¬ p a := by
  have hsplit : l.filter p = (l.take n).filter p ++ (l.drop n).filter p := by
    rw [← List.filter_append, List.take_append_drop]
  have hlength : ((l.take n).filter p).length ≤ n :=
    (List.length_filter_le _ _).trans (List.length_take_le n l)
  rw [hsplit, List.take_append, List.take_of_length_le hlength, List.self_eq_append_right,
    List.take_eq_nil_iff, ← List.filter_eq_self, ← List.filter_eq_nil_iff]
  constructor
  · rintro (hfull | hnil)
    · left
      apply List.filter_sublist.eq_of_length_le
      have := List.length_take_le n l
      omega
    · exact .inr hnil
  · rintro (hself | hnil)
    · rcases le_total n l.length with hle | hle
      · left
        rw [hself, List.length_take, min_eq_left hle, Nat.sub_self]
      · right
        rw [List.drop_of_length_le hle, List.filter_nil]
    · exact .inr hnil

end Prefixes

end CodeResearch
