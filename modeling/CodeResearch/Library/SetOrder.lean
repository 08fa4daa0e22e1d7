import Mathlib.Data.Finset.Sort

/-!
# Iteration orders of sets

An iteration order lists each finite set in some way. What is computed from the list of the
members with a property is the same in every order if at most one member has it; with two
members there are orders that list them in both ways.
-/
namespace CodeResearch

structure SetOrder (α : Type*) where
  list : Finset α → List α
  nodup : ∀ s, (list s).Nodup
  mem_list : ∀ s a, a ∈ list s ↔ a ∈ s

namespace SetOrder

variable {α : Type*} (order order' : SetOrder α) (s : Finset α) (p : α → Bool)

theorem perm_list : (order.list s).Perm (order'.list s) := by
  rw [List.perm_ext_iff_of_nodup (order.nodup s) (order'.nodup s)]
  intro a
  rw [order.mem_list, order'.mem_list]

theorem perm_filter : ((order.list s).filter p).Perm ((order'.list s).filter p) :=
  (perm_list order order' s).filter p

theorem mem_filter_list {a : α} : a ∈ (order.list s).filter p ↔ a ∈ s.filter fun a => p a := by
  rw [List.mem_filter, order.mem_list, Finset.mem_filter]

theorem length_filter [DecidableEq α] :
    ((order.list s).filter p).length = (s.filter fun a => p a).card := by
  rw [← List.toFinset_card_of_nodup ((order.nodup s).filter _)]
  congr 1
  ext a
  rw [List.mem_toFinset, mem_filter_list]

variable {s p}

theorem filter_congr [DecidableEq α] (h : (s.filter fun a => p a).card ≤ 1) :
    (order.list s).filter p = (order'.list s).filter p := by
  have hperm := perm_filter order order' s p
  have hlength := length_filter order s p
  cases hl : (order.list s).filter p with
  | nil => exact (List.nil_perm.mp (hl ▸ hperm)).symm
  | cons a l =>
    rw [hl, List.length_cons] at hlength
    have hnil : l = [] := List.length_eq_zero_iff.mp (by omega)
    rw [hl, hnil] at hperm
    rw [hnil]
    exact List.singleton_perm.mp hperm

section Exists

variable [LinearOrder α]

/-- The members from small to large. -/
def sorted : SetOrder α where
  list s := s.sort
  nodup s := s.sort_nodup _
  mem_list s _ := s.mem_sort _

/-- The order that lists one set from given members on, and all others from small to large. -/
def startingWith (s : Finset α) (l : List α) (hnodup : l.Nodup) (hsub : ∀ a ∈ l, a ∈ s) :
    SetOrder α where
  list t := if t = s then l ++ (s \ l.toFinset).sort else t.sort
  nodup t := by
    split_ifs
    · refine hnodup.append (Finset.sort_nodup _ _) ?_
      intro a hl hrest
      rw [Finset.mem_sort, Finset.mem_sdiff] at hrest
      exact hrest.2 (List.mem_toFinset.mpr hl)
    · exact Finset.sort_nodup _ _
  mem_list t a := by
    split_ifs with h
    · subst h
      rw [List.mem_append, Finset.mem_sort, Finset.mem_sdiff, List.mem_toFinset]
      constructor
      · rintro (hl | hrest)
        · exact hsub a hl
        · exact hrest.1
      · intro ha
        by_cases hl : a ∈ l
        · exact .inl hl
        · exact .inr ⟨ha, hl⟩
    · exact Finset.mem_sort _

theorem exists_filter_eq_append {s : Finset α} {l : List α} (hnodup : l.Nodup)
    (hsub : ∀ a ∈ l, a ∈ s) (hp : ∀ a ∈ l, p a) :
    ∃ (order : SetOrder α) (rest : List α), (order.list s).filter p = l ++ rest := by
  refine ⟨startingWith s l hnodup hsub, (s \ l.toFinset).sort.filter p, ?_⟩
  change (if s = s then l ++ (s \ l.toFinset).sort else s.sort).filter p = _
  rw [if_pos rfl, List.filter_append, List.filter_eq_self.mpr hp]

/-- What is listed in one way by all orders has at most one member. -/
theorem card_le_one_of_filter_eq {s : Finset α}
    (h : ∀ order order' : SetOrder α, (order.list s).filter p = (order'.list s).filter p) :
    (s.filter fun a => p a).card ≤ 1 := by
  rw [Finset.card_le_one]
  intro a ha b hb
  by_contra hne
  rw [Finset.mem_filter] at ha hb
  have hlist : ∀ {x y : α}, x ≠ y → x ∈ s ∧ p x → y ∈ s ∧ p y →
      ∃ (order : SetOrder α) (rest : List α), (order.list s).filter p = [x, y] ++ rest := by
    intro x y hxy hx hy
    have hnodup : [x, y].Nodup := by simpa using hxy
    have hsub : ∀ z ∈ [x, y], z ∈ s := by simp [hx.1, hy.1]
    exact exists_filter_eq_append hnodup hsub (by simp [hx.2, hy.2])
  obtain ⟨order, rest, hrest⟩ := hlist hne ha hb
  obtain ⟨order', rest', hrest'⟩ := hlist (Ne.symm hne) hb ha
  have heq := hrest.symm.trans ((h order order').trans hrest')
  exact hne (List.cons.inj heq).1

end Exists

end SetOrder
end CodeResearch
