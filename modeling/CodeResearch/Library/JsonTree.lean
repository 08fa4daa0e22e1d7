import CodeResearch.Library.Json
import Mathlib.Data.List.Nodup

/-!
# Positions in JSON values

A position is the list of the child numbers that lead to a value, a path the list of its
keys and indices. A value is read, changed and visited by position; a change at one
position leaves the values beside it as they are.
-/
namespace CodeResearch.Json

def at? : List ℕ → Json → Option Json
  | [], v => some v
  | n :: position, .list items => items[n]?.bind (at? position)
  | n :: position, .dict entries => entries[n]?.bind fun entry => at? position entry.2
  | _ :: _, _ => none

/-- The value with `f` applied at a position, if there is one. -/
def modifyAt (f : Json → Json) : List ℕ → Json → Json
  | [], v => f v
  | n :: position, .list items => .list (items.modify n (modifyAt f position))
  | n :: position, .dict entries =>
    .dict (entries.modify n fun entry => (entry.1, modifyAt f position entry.2))
  | _ :: _, v => v

def keysAt : List ℕ → Json → List String
  | [], _ => []
  | n :: position, .list items => (items[n]?.map (keysAt position)).getD []
  | n :: position, .dict entries =>
    (entries[n]?.map fun entry => entry.1 :: keysAt position entry.2).getD []
  | _ :: _, _ => []

structure Visit where
  path : List String
  position : List ℕ
  item : Json

def Visit.root (item : Json) : Visit := ⟨[], [], item⟩

def Visit.under (label : String) (index : ℕ) (visit : Visit) : Visit :=
  ⟨label :: visit.path, index :: visit.position, visit.item⟩

mutual

def visits : Json → List Visit
  | .list items => itemVisits 0 items
  | .dict entries => entryVisits 0 entries
  | _ => []

def itemVisits (index : ℕ) : List Json → List Visit
  | [] => []
  | item :: items =>
    (.root item :: visits item).map (Visit.under (toString index) index) ++
      itemVisits (index + 1) items

def entryVisits (index : ℕ) : List (String × Json) → List Visit
  | [] => []
  | (key, item) :: entries =>
    (.root item :: visits item).map (Visit.under key index) ++ entryVisits (index + 1) entries

end

variable {item v : Json} {index : ℕ} {visit : Visit}

variable {items : List Json} {n : ℕ} {position : List ℕ} {key : String}

theorem keysAt_list (h : items[n]? = some item) : keysAt (n :: position)
    (.list items) = keysAt position item := by
  rw [keysAt, h]
  rfl

theorem keysAt_dict {entries : List (String × Json)} (h : entries[n]? = some (key, item)) :
    keysAt (n :: position) (.dict entries) = key :: keysAt position item := by
  rw [keysAt, h]
  rfl

/-- A text is not below a text, so that changing one leaves the other. -/
theorem at?_modifyAt_of_ne (f : Json → Json) {p q : List ℕ} {s t : String}
    (hp : v.at? p = some (.text s)) (hq : v.at? q = some (.text t)) (hne : p ≠ q) :
    (modifyAt f p v).at? q = some (.text t) := by
  induction p generalizing v q with
  | nil =>
    obtain rfl := Option.some.inj hp
    cases q with
    | nil => exact absurd rfl hne
    | cons m q => cases hq
  | cons n p ih =>
    cases q with
    | nil =>
      obtain rfl := Option.some.inj hq
      cases hp
    | cons m q =>
      cases v with
      | list items =>
        obtain ⟨item, hitem, hat⟩ := Option.bind_eq_some_iff.mp hp
        obtain ⟨other, hother, hat'⟩ := Option.bind_eq_some_iff.mp hq
        apply Option.bind_eq_some_iff.mpr
        by_cases hnm : n = m
        · subst hnm
          obtain rfl := Option.some.inj (hitem.symm.trans hother)
          refine ⟨modifyAt f p item, by rw [List.getElem?_modify_eq, hitem]; rfl, ?_⟩
          exact ih hat hat' fun h => hne (congrArg (n :: ·) h)
        · exact ⟨other, by rw [List.getElem?_modify_ne _ _ hnm, hother], hat'⟩
      | dict entries =>
        obtain ⟨entry, hentry, hat⟩ := Option.bind_eq_some_iff.mp hp
        obtain ⟨other, hother, hat'⟩ := Option.bind_eq_some_iff.mp hq
        apply Option.bind_eq_some_iff.mpr
        by_cases hnm : n = m
        · subst hnm
          obtain rfl := Option.some.inj (hentry.symm.trans hother)
          refine ⟨(entry.1, modifyAt f p entry.2), by rw [List.getElem?_modify_eq, hentry]; rfl, ?_⟩
          exact ih hat hat' fun h => hne (congrArg (n :: ·) h)
        · exact ⟨other, by rw [List.getElem?_modify_ne _ _ hnm, hother], hat'⟩
      | _ => cases hp

theorem exists_of_mem_itemVisits
    (h : visit ∈ itemVisits index items) : ∃ (n : ℕ) (inner : Visit) (label : String) (item : Json),
      visit = inner.under label (index + n) ∧ items[n]? = some item ∧
        inner ∈ Visit.root item :: item.visits := by
  induction items generalizing index with
  | nil => cases h
  | cons item items ih =>
    rcases List.mem_append.mp h with h | h
    · obtain ⟨inner, hinner, rfl⟩ := List.mem_map.mp h
      exact ⟨0, inner, _, item, rfl, rfl, hinner⟩
    · obtain ⟨n, inner, label, found, rfl, hfound, hinner⟩ := ih h
      exact ⟨n + 1, inner, label, found, by rw [Nat.add_right_comm, Nat.add_assoc], hfound, hinner⟩

theorem exists_of_mem_entryVisits {entries : List (String × Json)}
    (h : visit ∈ entryVisits index entries) : ∃ (n : ℕ) (inner : Visit) (label : String) (item : Json),
      visit = inner.under label (index + n) ∧ entries[n]? = some (label, item) ∧
        inner ∈ Visit.root item :: item.visits := by
  induction entries generalizing index with
  | nil => cases h
  | cons entry entries ih =>
    rcases List.mem_append.mp h with h | h
    · obtain ⟨inner, hinner, rfl⟩ := List.mem_map.mp h
      exact ⟨0, inner, _, entry.2, rfl, rfl, hinner⟩
    · obtain ⟨n, inner, label, found, rfl, hfound, hinner⟩ := ih h
      exact ⟨n + 1, inner, label, found, by rw [Nat.add_right_comm, Nat.add_assoc], hfound, hinner⟩

theorem exists_of_mem_visits (h : visit ∈ v.visits) :
    ∃ (n : ℕ) (inner : Visit) (label : String) (item : Json), visit = inner.under label n ∧ inner ∈ Visit.root item :: item.visits ∧
      ((∃ items, v = .list items ∧ items[n]? = some item) ∨
        ∃ entries, v = .dict entries ∧ entries[n]? = some (label, item)) := by
  cases v with
  | list items =>
    obtain ⟨n, inner, label, item, hvisit, hitem, hinner⟩ := exists_of_mem_itemVisits h
    exact ⟨0 + n, inner, label, item, hvisit, hinner, .inl ⟨items, rfl, by rwa [Nat.zero_add]⟩⟩
  | dict entries =>
    obtain ⟨n, inner, label, item, hvisit, hitem, hinner⟩ := exists_of_mem_entryVisits h
    exact ⟨0 + n, inner, label, item, hvisit, hinner, .inr ⟨entries, rfl, by rwa [Nat.zero_add]⟩⟩
  | _ => cases h

theorem ne_nil_of_mem_visits (h : visit ∈ v.visits) : visit.position ≠ [] := by
  obtain ⟨n, inner, label, item, rfl, -⟩ := exists_of_mem_visits h
  exact List.cons_ne_nil _ _

theorem at?_of_mem_visits (h : visit ∈ v.visits) : v.at? visit.position = some visit.item := by
  induction hposition : visit.position generalizing v visit with
  | nil => exact absurd hposition (ne_nil_of_mem_visits h)
  | cons m position ih =>
    obtain ⟨n, inner, label, item, rfl, hinner, hchild⟩ := exists_of_mem_visits h
    obtain ⟨rfl, hrest⟩ := List.cons.inj hposition
    have hat : item.at? position = some inner.item := by
      cases hinner with
      | head => rw [← hrest]; rfl
      | tail _ hinner => exact ih hinner hrest
    rcases hchild with ⟨items, rfl, hitem⟩ | ⟨entries, rfl, hentry⟩
    · exact Option.bind_eq_some_iff.mpr ⟨item, hitem, hat⟩
    · exact Option.bind_eq_some_iff.mpr ⟨(label, item), hentry, hat⟩

theorem mem_path_of_mem_keysAt (h : visit ∈ v.visits)
    (hkey : key ∈ keysAt visit.position v) : key ∈ visit.path := by
  induction hposition : visit.position generalizing v visit with
  | nil => exact absurd hposition (ne_nil_of_mem_visits h)
  | cons m position ih =>
    obtain ⟨n, inner, label, item, rfl, hinner, hchild⟩ := exists_of_mem_visits h
    obtain ⟨rfl, hrest⟩ := List.cons.inj hposition
    change key ∈ keysAt (n :: inner.position) v at hkey
    have hbelow : key ∈ keysAt inner.position item → key ∈ inner.path := by
      intro hbelow
      cases hinner with
      | head => cases hbelow
      | tail _ hinner => exact ih hinner hbelow hrest
    rcases hchild with ⟨items, rfl, hitem⟩ | ⟨entries, rfl, hentry⟩
    · rw [keysAt_list hitem] at hkey
      exact List.mem_cons_of_mem _ (hbelow hkey)
    · rw [keysAt_dict hentry] at hkey
      rcases List.mem_cons.mp hkey with rfl | hkey
      · exact List.mem_cons_self
      · exact List.mem_cons_of_mem _ (hbelow hkey)

theorem map_position_under (label : String) (index : ℕ) (l : List Visit) :
    (l.map (Visit.under label index)).map Visit.position =
      (l.map Visit.position).map (index :: ·) := by
  rw [List.map_map, List.map_map]
  rfl

theorem nodup_under (h : (item.visits.map Visit.position).Nodup) (label : String) (index : ℕ) :
    (((.root item :: item.visits).map (Visit.under label index)).map Visit.position).Nodup := by
  rw [map_position_under]
  apply List.Nodup.map fun _ _ heq => (List.cons.inj heq).2
  refine List.nodup_cons.mpr ⟨?_, h⟩
  rintro hmem
  obtain ⟨visit, hvisit, hnil⟩ := List.mem_map.mp hmem
  exact ne_nil_of_mem_visits hvisit hnil

theorem disjoint_under {label : String} {l rest : List Visit}
    (h : ∀ visit ∈ rest, ∃ n position, visit.position = (index + 1 + n) :: position) :
    ((l.map (Visit.under label index)).map Visit.position).Disjoint (rest.map Visit.position) := by
  intro position hmem hrest
  rw [map_position_under] at hmem
  obtain ⟨inner, -, rfl⟩ := List.mem_map.mp hmem
  obtain ⟨visit, hvisit, heq⟩ := List.mem_map.mp hrest
  obtain ⟨n, position, hposition⟩ := h visit hvisit
  have := (List.cons.inj (heq.symm.trans hposition)).1
  omega

mutual

theorem nodup_positions (v : Json) : (v.visits.map Visit.position).Nodup := by
  match v with
  | .list items => exact nodup_itemVisits 0 items
  | .dict entries => exact nodup_entryVisits 0 entries
  | .null | .bool _ | .number _ | .text _ => exact List.nodup_nil

theorem nodup_itemVisits (index : ℕ) (items : List Json) :
    ((itemVisits index items).map Visit.position).Nodup := by
  match items with
  | [] => exact List.nodup_nil
  | item :: items =>
    rw [itemVisits, List.map_append]
    refine (nodup_under (nodup_positions item) _ _).append (nodup_itemVisits (index + 1) items) ?_
    apply disjoint_under
    intro visit hvisit
    obtain ⟨n, inner, _, _, rfl, -⟩ := exists_of_mem_itemVisits hvisit
    exact ⟨n, inner.position, rfl⟩

theorem nodup_entryVisits (index : ℕ) (entries : List (String × Json)) :
    ((entryVisits index entries).map Visit.position).Nodup := by
  match entries with
  | [] => exact List.nodup_nil
  | (key, item) :: entries =>
    rw [entryVisits, List.map_append]
    refine (nodup_under (nodup_positions item) _ _).append
      (nodup_entryVisits (index + 1) entries) ?_
    apply disjoint_under
    intro visit hvisit
    obtain ⟨n, inner, _, _, rfl, -⟩ := exists_of_mem_entryVisits hvisit
    exact ⟨n, inner.position, rfl⟩

end

end CodeResearch.Json
