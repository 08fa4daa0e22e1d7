import CodeResearch.Library.Table

/-!
# Tables whose rows are written-out records

A table is the image of another one when its rows are the rows of the other one,
each mapped by a function that keeps the keys. Lookups, insertions and point
updates of the two tables then agree.
-/
namespace CodeResearch

variable {κ ρ τ : Type*} {key : ρ → κ} {key' : τ → κ}

namespace Table

/-- The rows of `u` are those of `t`, mapped by `f`. -/
def ImageOf (f : ρ → τ) (u : Table key') (t : Table key) : Prop := u.rows = t.rows.map f

theorem ImageOf.empty (f : ρ → τ) : (empty : Table key').ImageOf f (empty : Table key) := rfl

variable {f : ρ → τ} {u : Table key'} {t : Table key}

theorem ImageOf.mem_iff (h : u.ImageOf f t) {x : τ} : x ∈ u.rows ↔ ∃ r ∈ t.rows, f r = x := by
  rw [h, List.mem_map]

theorem ImageOf.filter (h : u.ImageOf f t) (p : τ → Bool) :
    u.rows.filter p = (t.rows.filter (p ∘ f)).map f := by
  rw [h, List.filter_map]

theorem ImageOf.find?_rows (h : u.ImageOf f t) (p : τ → Bool) :
    u.rows.find? p = (t.rows.find? (p ∘ f)).map f := by
  rw [h, List.find?_map]

theorem ImageOf.any (h : u.ImageOf f t) (p : τ → Bool) :
    u.rows.any p = t.rows.any (p ∘ f) := by
  rw [h, List.any_map]

variable [DecidableEq κ]

theorem ImageOf.find? (h : u.ImageOf f t) (hf : ∀ r, key' (f r) = key r) (k : κ) : u.find? k = (t.find? k).map f := by
  rw [Table.find?, Table.find?, h, List.find?_map]
  congr 2
  funext r
  simp [hf]

/-- A record and its image are refused together or inserted together. -/
theorem ImageOf.insert (h : u.ImageOf f t) (hf : ∀ r, key' (f r) = key r) (r : ρ) :
    (t.insert r = none ∧ u.insert (f r) = none) ∨
      ∃ t' u', t.insert r = some t' ∧ u.insert (f r) = some u' ∧ u'.ImageOf f t' := by
  have hkeys : u.rows.map key' = t.rows.map key := by
    rw [h, List.map_map]
    exact List.map_congr_left fun r _ => hf r
  by_cases hk : key r ∈ t.rows.map key
  · left
    constructor
    · exact dif_pos hk
    · apply dif_pos
      rwa [hf, hkeys]
  · right
    obtain ⟨t', ht'⟩ := exists_insert hk
    have hk' : key' (f r) ∉ u.rows.map key' := by rwa [hf, hkeys]
    obtain ⟨u', hu'⟩ := exists_insert hk'
    refine ⟨t', u', ht', hu', ?_⟩
    rw [ImageOf, rows_insert hu', rows_insert ht', h, List.map_append]
    rfl

theorem ImageOf.update (h : u.ImageOf f t) (hf : ∀ r, key' (f r) = key r) {k : κ} {old r : ρ}
    (hold : t.find? k = some old) (hr : key r = k) (w : τ → τ) (hw : ∀ x, key' (w x) = key' x) (hwrite : w (f old) = f r) :
    (u.updateWhere (fun x => key' x = k) w hw).ImageOf f (t.replace r) := by
  rw [ImageOf, updateWhere, rows_mapRows, rows_replace, h, List.map_map, List.map_map]
  apply List.map_congr_left
  intro x hx
  simp only [Function.comp_apply, hf, hr, decide_eq_true_eq]
  by_cases hk : key x = k
  · have hsame : x = old := t.eq_of_key_eq hx (find?_mem hold) (hk.trans (find?_key hold).symm)
    rw [if_pos hk, if_pos hk, hsame, hwrite]
  · rw [if_neg hk, if_neg hk]

end Table

end CodeResearch
