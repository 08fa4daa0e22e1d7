import Mathlib.Data.List.Perm.Lattice

/-!
# Relational tables with a primary key

Rows are kept in insertion order and no two rows share a key. Point updates
replace the row with the new row's key, conditional updates rewrite every
matching row and keep its key, and an insertion under a taken key is refused.
-/
namespace CodeResearch

variable {κ ρ : Type*}

structure Table (key : ρ → κ) where
  rows : List ρ
  nodup : (rows.map key).Nodup

namespace Table

variable {key : ρ → κ}

variable {t u : Table key} {r : ρ} {k : κ}

@[ext] theorem ext (h : t.rows = u.rows) : t = u := by
  cases t
  cases u
  cases h
  rfl

def empty : Table key := ⟨[], by simp⟩

@[simp] theorem rows_empty : (empty : Table key).rows = [] := rfl

theorem eq_of_key_eq (t : Table key) {r' : ρ} (hr : r ∈ t.rows) (hr' : r' ∈ t.rows)
    (h : key r = key r') : r = r' :=
  List.inj_on_of_nodup_map t.nodup hr hr' h

def mapRows (t : Table key) (f : ρ → ρ) (hf : ∀ r, key (f r) = key r) : Table key :=
  ⟨t.rows.map f, by
    have he : key ∘ f = key := funext hf
    rw [List.map_map, he]
    exact t.nodup⟩

@[simp] theorem rows_mapRows (t : Table key) (f : ρ → ρ) (hf : ∀ r, key (f r) = key r) :
    (t.mapRows f hf).rows = t.rows.map f := rfl

/-- `UPDATE ... SET f WHERE p`. -/
def updateWhere (t : Table key) (p : ρ → Bool) (f : ρ → ρ) (hf : ∀ r, key (f r) = key r) :
    Table key :=
  t.mapRows (fun r => if p r then f r else r) (by intro r; split_ifs <;> simp [hf])

@[simp] theorem mem_updateWhere (t : Table key) (p : ρ → Bool) (f : ρ → ρ)
    (hf : ∀ r, key (f r) = key r) (x : ρ) :
    x ∈ (t.updateWhere p f hf).rows ↔ ∃ r ∈ t.rows, (if p r then f r else r) = x := by
  simp [updateWhere]

theorem map_updateWhere (t : Table key) (p : ρ → Bool) (f : ρ → ρ) (hf : ∀ r, key (f r) = key r)
    {γ : Type*} (g : ρ → γ) (hg : ∀ r, g (f r) = g r) :
    (t.updateWhere p f hf).rows.map g = t.rows.map g := by
  rw [updateWhere, rows_mapRows, List.map_map]
  apply List.map_congr_left
  intro r _
  by_cases hp : p r <;> simp [hp, hg]

/-- `DELETE ... WHERE p`. -/
def deleteWhere (t : Table key) (p : ρ → Bool) : Table key :=
  ⟨t.rows.filter fun r => !p r, t.nodup.sublist (List.filter_sublist.map key)⟩

@[simp] theorem rows_deleteWhere (t : Table key) (p : ρ → Bool) :
    (t.deleteWhere p).rows = t.rows.filter fun r => !p r := rfl

variable [DecidableEq κ]

/-- `SELECT ... WHERE key = k`. -/
def find? (t : Table key) (k : κ) : Option ρ := t.rows.find? fun r => decide (key r = k)

/-- `INSERT`, refused when the key is taken. -/
def insert (t : Table key) (r : ρ) : Option (Table key) :=
  if h : key r ∈ t.rows.map key then none
  else some ⟨t.rows ++ [r], by
    rw [List.map_append, List.nodup_append]
    refine ⟨t.nodup, by simp, ?_⟩
    rintro a ha b hb rfl
    rw [List.map_singleton, List.mem_singleton] at hb
    exact h (hb ▸ ha)⟩

/-- `executemany` of an `INSERT`, refused as a whole when one of its keys is taken. -/
def insertAll (t : Table key) : List ρ → Option (Table key)
  | [] => some t
  | r :: rs => (t.insert r).bind fun u => u.insertAll rs

/-- `INSERT ... ON CONFLICT DO UPDATE SET f`. -/
def upsert (t : Table key) (r : ρ) (f : ρ → ρ) (hf : ∀ r, key (f r) = key r) : Table key :=
  match t.insert r with
  | some u => u
  | none => t.updateWhere (fun x => key x = key r) f hf

/-- `UPDATE ... WHERE key = key r`, writing every column from `r`. -/
def replace (t : Table key) (r : ρ) : Table key :=
  t.mapRows (fun x => if key x = key r then r else x) (by intro x; split_ifs with h <;> simp [h])

@[simp] theorem find?_empty (k : κ) : (empty : Table key).find? k = none := rfl

theorem find?_eq_some_iff (t : Table key) : t.find? k = some r ↔ r ∈ t.rows ∧ key r = k := by
  constructor
  · intro h
    exact ⟨List.mem_of_find?_eq_some h, by simpa using List.find?_some h⟩
  · rintro ⟨hr, rfl⟩
    cases hf : t.find? (key r) with
    | none =>
      have := List.find?_eq_none.mp hf r hr
      simp at this
    | some x =>
      have hx := List.mem_of_find?_eq_some hf
      have hk : key x = key r := by simpa using List.find?_some hf
      rw [t.eq_of_key_eq hx hr hk]

theorem find?_mem (h : t.find? k = some r) : r ∈ t.rows :=
  (t.find?_eq_some_iff.mp h).1

theorem find?_key (h : t.find? k = some r) : key r = k :=
  (t.find?_eq_some_iff.mp h).2

theorem find?_of_mem (h : r ∈ t.rows) : t.find? (key r) = some r :=
  t.find?_eq_some_iff.mpr ⟨h, rfl⟩

theorem find?_eq_none_iff (t : Table key) : t.find? k = none ↔ k ∉ t.rows.map key := by
  simp [find?, List.find?_eq_none]

theorem rows_insert (h : t.insert r = some u) : u.rows = t.rows ++ [r] := by
  unfold insert at h
  split_ifs at h
  cases h
  rfl

theorem insert_fresh (h : t.insert r = some u) : key r ∉ t.rows.map key := by
  unfold insert at h
  split_ifs at h with hk
  exact hk

theorem exists_insert (h : key r ∉ t.rows.map key) : ∃ u, t.insert r = some u :=
  ⟨_, dif_neg h⟩

theorem exists_insert_iff : (∃ u, t.insert r = some u) ↔ t.find? (key r) = none := by
  rw [find?_eq_none_iff]
  exact ⟨fun ⟨_, hu⟩ => insert_fresh hu, exists_insert⟩

theorem mem_insert (h : t.insert r = some u) (x : ρ) : x ∈ u.rows ↔ x ∈ t.rows ∨ x = r := by
  rw [rows_insert h]
  simp

theorem rows_insertAll {rs : List ρ} (h : t.insertAll rs = some u) : u.rows = t.rows ++ rs := by
  induction rs generalizing t with
  | nil =>
    cases h
    rw [List.append_nil]
  | cons r rs ih =>
    obtain ⟨v, hv, hrest⟩ := Option.bind_eq_some_iff.mp h
    rw [ih hrest, rows_insert hv, List.append_assoc, List.singleton_append]

/-- Rows with new and distinct keys can be inserted. -/
theorem exists_insertAll {rs : List ρ}
    (h : (t.rows.map key ++ rs.map key).Nodup) : ∃ u, t.insertAll rs = some u := by
  induction rs generalizing t with
  | nil => exact ⟨t, rfl⟩
  | cons r rs ih =>
    rw [List.map_cons, List.nodup_append] at h
    obtain ⟨u, hu⟩ : ∃ u, t.insert r = some u := by
      apply exists_insert
      intro hr
      exact h.2.2 _ hr _ List.mem_cons_self rfl
    obtain ⟨v, hv⟩ : ∃ v, u.insertAll rs = some v := by
      apply ih
      rw [rows_insert hu, List.map_append, List.append_assoc, List.nodup_append]
      exact h
    exact ⟨v, by rw [insertAll, hu, Option.bind_some, hv]⟩

theorem find?_insert_self (h : t.insert r = some u) : u.find? (key r) = some r :=
  u.find?_eq_some_iff.mpr ⟨(mem_insert h r).mpr (.inr rfl), rfl⟩

theorem find?_insert_of_ne (h : t.insert r = some u) (hk : k ≠ key r) : u.find? k = t.find? k := by
  rw [find?, find?, rows_insert h, List.find?_append]
  simp [Ne.symm hk]

theorem find?_insert_of_some {x : ρ} (h : t.insert r = some u)
    (hx : t.find? k = some x) : u.find? k = some x := by
  rw [find?_insert_of_ne h, hx]
  rintro rfl
  exact insert_fresh h (List.mem_map.mpr ⟨x, find?_mem hx, find?_key hx⟩)

@[simp] theorem rows_replace (t : Table key) (r : ρ) :
    (t.replace r).rows = t.rows.map fun x => if key x = key r then r else x := rfl

theorem mem_replace (hr : (t.find? (key r)).isSome) (x : ρ) :
    x ∈ (t.replace r).rows ↔ x = r ∨ (x ∈ t.rows ∧ key x ≠ key r) := by
  obtain ⟨old, hold⟩ := Option.isSome_iff_exists.mp hr
  simp only [rows_replace, List.mem_map]
  constructor
  · rintro ⟨y, hy, rfl⟩
    by_cases hk : key y = key r
    · simp [hk]
    · simp [hk, hy]
  · rintro (rfl | ⟨hx, hk⟩)
    · exact ⟨old, find?_mem hold, by simp [find?_key hold]⟩
    · exact ⟨x, hx, by simp [hk]⟩

theorem find?_replace_self (hr : (t.find? (key r)).isSome) : (t.replace r).find? (key r) = some r :=
  (t.replace r).find?_eq_some_iff.mpr ⟨(mem_replace hr r).mpr (.inl rfl), rfl⟩

theorem find?_replace_of_key (hk : key r = k)
    (hr : (t.find? k).isSome) : (t.replace r).find? k = some r := by
  subst hk
  exact find?_replace_self hr

theorem find?_replace_of_ne (t : Table key) (hk : k ≠ key r) :
    (t.replace r).find? k = t.find? k := by
  simp only [find?, rows_replace, List.find?_map]
  have hp : ((fun x => decide (key x = k)) ∘ fun x => if key x = key r then r else x) =
      fun x => decide (key x = k) := by
    funext x
    by_cases hx : key x = key r <;> simp [hx, Ne.symm hk]
  rw [hp]
  cases hf : t.rows.find? (fun x => decide (key x = k)) with
  | none => rfl
  | some x =>
    have hx : key x = k := by simpa using List.find?_some hf
    simp [hx, hk]

theorem replace_of_mem (hr : r ∈ t.rows) : t.replace r = t := by
  apply Table.ext
  rw [rows_replace]
  conv_rhs => rw [← List.map_id t.rows]
  apply List.map_congr_left
  intro x hx
  by_cases hk : key x = key r
  · rw [if_pos hk, t.eq_of_key_eq hx hr hk, id]
  · rw [if_neg hk, id]

/-- A row that was just inserted is rewritten as if it was inserted only now. -/
theorem replace_insert {v : Table key} {r' : ρ} (h : t.insert r = some u)
    (h' : t.insert r' = some v) (hk : key r' = key r) : u.replace r' = v := by
  apply Table.ext
  rw [rows_replace, rows_insert h, rows_insert h', List.map_append]
  have hold : (t.rows.map fun x => if key x = key r' then r' else x) = t.rows := by
    conv_rhs => rw [← List.map_id t.rows]
    apply List.map_congr_left
    intro x hx
    have hne : key x ≠ key r' := by
      intro hid
      exact insert_fresh h (List.mem_map.mpr ⟨x, hx, hid.trans hk⟩)
    simp [hne]
  rw [hold]
  simp [hk]

@[simp] theorem keys_replace (t : Table key) (r : ρ) :
    (t.replace r).rows.map key = t.rows.map key := by
  rw [rows_replace, List.map_map]
  apply List.map_congr_left
  intro x _
  by_cases hx : key x = key r <;> simp [hx]

theorem map_replace {old : ρ} (hold : t.find? (key r) = some old)
    {γ : Type*} (f : ρ → γ) (hf : f r = f old) : (t.replace r).rows.map f = t.rows.map f := by
  rw [rows_replace, List.map_map]
  apply List.map_congr_left
  intro x hx
  by_cases hk : key x = key r
  · have : x = old := t.eq_of_key_eq hx (find?_mem hold) (hk.trans (find?_key hold).symm)
    rw [Function.comp_apply, if_pos hk, hf, this]
  · simp [hk]

theorem find?_mapRows (t : Table key) (f : ρ → ρ) (hf : ∀ r, key (f r) = key r) (k : κ) :
    (t.mapRows f hf).find? k = (t.find? k).map f := by
  rw [find?, find?, rows_mapRows, List.find?_map]
  congr 2
  funext r
  simp [hf]

theorem find?_updateWhere (t : Table key) (p : ρ → Bool) (f : ρ → ρ)
    (hf : ∀ r, key (f r) = key r) (k : κ) :
    (t.updateWhere p f hf).find? k = (t.find? k).map fun r => if p r then f r else r :=
  find?_mapRows t _ _ k

theorem find?_upsert_self (t : Table key) (r : ρ) (f : ρ → ρ) (hf : ∀ r, key (f r) = key r) :
    (t.upsert r f hf).find? (key r) = some (((t.find? (key r)).map f).getD r) := by
  unfold upsert
  cases hins : t.insert r with
  | some u =>
    have hnone : t.find? (key r) = none := exists_insert_iff.mp ⟨u, hins⟩
    dsimp only
    rw [find?_insert_self hins, hnone]
    rfl
  | none =>
    have hmem : key r ∈ t.rows.map key := by
      by_contra hk
      obtain ⟨u, hu⟩ := exists_insert hk
      rw [hins] at hu
      cases hu
    cases hfind : t.find? (key r) with
    | none => exact absurd hmem (t.find?_eq_none_iff.mp hfind)
    | some x =>
      dsimp only
      rw [find?_updateWhere, hfind, Option.map_some, Option.map_some, Option.getD_some,
        if_pos (by simpa using find?_key hfind)]

theorem find?_upsert_of_ne (t : Table key) (r : ρ) (f : ρ → ρ) (hf : ∀ r, key (f r) = key r)
    (hk : k ≠ key r) : (t.upsert r f hf).find? k = t.find? k := by
  unfold upsert
  cases hins : t.insert r with
  | some u => exact find?_insert_of_ne hins hk
  | none =>
    dsimp only
    rw [find?_updateWhere]
    cases hfind : t.find? k with
    | none => rfl
    | some x =>
      rw [Option.map_some, if_neg]
      rw [decide_eq_true_eq, find?_key hfind]
      exact hk

theorem find?_of_rows_map {f : ρ → ρ} (h : u.rows = t.rows.map f)
    (hf : ∀ r ∈ t.rows, key (f r) = key r) (hr : t.find? k = some r) :
    u.find? k = some (f r) := by
  apply (find?_eq_some_iff u).mpr
  constructor
  · rw [h]
    exact List.mem_map_of_mem (find?_mem hr)
  · rw [hf r (find?_mem hr), find?_key hr]

/-- An update of the row with one key changes that row alone. -/
theorem rows_updateKey (h : t.find? k = some r) (f : ρ → ρ) (hf : ∀ r, key (f r) = key r) :
    ∃ before after, t.rows = before ++ r :: after ∧
      (t.updateWhere (fun x => key x = k) f hf).rows = before ++ f r :: after := by
  obtain ⟨before, after, heq⟩ := List.append_of_mem (find?_mem h)
  refine ⟨before, after, heq, ?_⟩
  have hk : key r = k := find?_key h
  have hnodup := t.nodup
  rw [heq, List.map_append, List.map_cons, List.nodup_append, List.nodup_cons] at hnodup
  obtain ⟨_, ⟨hafter, _⟩, hbefore⟩ := hnodup
  have hother : ∀ x ∈ before ++ after, (if key x = k then f x else x) = x := by
    intro x hx
    rw [if_neg]
    rintro rfl
    rcases List.mem_append.mp hx with hx | hx
    · exact hbefore _ (List.mem_map_of_mem hx) _ List.mem_cons_self hk.symm
    · exact hafter (hk ▸ List.mem_map_of_mem hx)
  simp only [updateWhere, rows_mapRows, heq, List.map_append, List.map_cons, decide_eq_true_eq,
    if_pos hk]
  rw [List.map_congr_left fun x hx => hother x (List.mem_append_left _ hx), List.map_id',
    List.map_congr_left fun x hx => hother x (List.mem_append_right _ hx), List.map_id']

end Table
end CodeResearch

namespace CodeResearch.Table

variable {ρ κ : Type*} {key : ρ → κ} [DecidableEq κ] {t : Table key} {r : ρ} {rs : List ρ}

def put (t : Table key) (r : ρ) : Table key := (t.insert r).getD (t.replace r)

def putAll (t : Table key) (rs : List ρ) : Table key := rs.foldl put t

theorem mem_put (t : Table key) (r x : ρ) :
    x ∈ (t.put r).rows ↔ x = r ∨ x ∈ t.rows ∧ key x ≠ key r := by
  unfold put
  cases hinsert : t.insert r with
  | some u =>
    rw [Option.getD_some, mem_insert hinsert]
    constructor
    · rintro (hx | rfl)
      · refine .inr ⟨hx, fun hkey => insert_fresh hinsert ?_⟩
        exact hkey ▸ List.mem_map_of_mem hx
      · exact .inl rfl
    · rintro (rfl | ⟨hx, _⟩)
      · exact .inr rfl
      · exact .inl hx
  | none =>
    have hfound : (t.find? (key r)).isSome := by
      rw [← Option.ne_none_iff_isSome, ne_eq, find?_eq_none_iff]
      intro hfresh
      obtain ⟨u, hu⟩ := exists_insert hfresh
      exact nomatch hinsert.symm.trans hu
    rw [Option.getD_none, mem_replace hfound]

theorem find?_put_self (t : Table key) (r : ρ) : (t.put r).find? (key r) = some r :=
  ((t.put r).find?_eq_some_iff).mpr ⟨(mem_put t r r).mpr (.inl rfl), rfl⟩

theorem find?_put_of_ne (t : Table key) {r : ρ} {k : κ} (hk : k ≠ key r) :
    (t.put r).find? k = t.find? k := by
  apply Option.ext
  intro x
  rw [find?_eq_some_iff, find?_eq_some_iff, mem_put]
  constructor
  · rintro ⟨rfl | ⟨hx, _⟩, hkey⟩
    · exact absurd hkey.symm hk
    · exact ⟨hx, hkey⟩
  · rintro ⟨hx, rfl⟩
    exact ⟨.inr ⟨hx, hk⟩, rfl⟩

omit [DecidableEq κ] in
theorem nodup_rows (t : Table key) : t.rows.Nodup := t.nodup.of_map

theorem perm_put (t : Table key) (r : ρ) :
    (t.put r).rows.Perm (r :: t.rows.filter fun x => key x ≠ key r) := by
  apply (List.perm_ext_iff_of_nodup (nodup_rows _) ?_).mpr fun x => ?_
  · refine List.nodup_cons.mpr ⟨fun hr => ?_, (nodup_rows t).filter _⟩
    simp at hr
  · rw [mem_put, List.mem_cons, List.mem_filter, decide_eq_true_eq]

/-- Upserts of rows with distinct keys leave them and the old rows with other keys. -/
theorem perm_putAll (t : Table key) (h : (rs.map key).Nodup) :
    (t.putAll rs).rows.Perm (rs ++ t.rows.filter fun x => key x ∉ rs.map key) := by
  induction rs generalizing t with
  | nil => simp [putAll]
  | cons r rs ih =>
    obtain ⟨hr, hrs⟩ := List.nodup_cons.mp h
    have hrow : [r].filter (fun x => key x ∉ rs.map key) = [r] := by simpa using hr
    have hold : ((r :: t.rows.filter fun x => key x ≠ key r).filter fun x => key x ∉ rs.map key) =
        r :: t.rows.filter fun x => key x ∉ (r :: rs).map key := by
      rw [← List.singleton_append, List.filter_append, hrow, List.filter_filter,
        List.singleton_append]
      congr 2
      funext x
      rw [Bool.eq_iff_iff]
      simp only [Bool.and_eq_true, decide_eq_true_eq, List.map_cons, List.mem_cons, not_or]
      exact and_comm
    calc (t.putAll (r :: rs)).rows
        |>.Perm (rs ++ (t.put r).rows.filter fun x => key x ∉ rs.map key) := ih (t.put r) hrs
      _ |>.Perm (rs ++ r :: t.rows.filter fun x => key x ∉ (r :: rs).map key) :=
          .append_left rs (hold ▸ (perm_put t r).filter _)
      _ |>.Perm (r :: rs ++ t.rows.filter fun x => key x ∉ (r :: rs).map key) :=
          List.perm_middle

end CodeResearch.Table
