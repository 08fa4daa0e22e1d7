import CodeResearch.Library.Result
import CodeResearch.Library.Table

/-!
# Reading through a view

A computation on a state depends on a part of it only if it factors through the view
of that part. Such computations may be put in sequence, and searches among the rows of
a part are determined by the part.
-/
namespace CodeResearch

open Function (FactorsThrough)

section Sequence

variable {σ τ ε α β : Type} {view : σ → τ} {f : α → σ → Except ε β}

theorem factorsThrough_const (a : α) : FactorsThrough (fun _ : σ => a) view := fun _ _ _ => rfl

theorem factorsThrough_bind_of_ok {x : σ → Except ε α} (hx : FactorsThrough x view)
    (hf : ∀ a s t, view s = view t → x s = .ok a → x t = .ok a → f a s = f a t) :
    FactorsThrough (fun s => x s >>= fun a => f a s) view := by
  intro s t h
  dsimp only
  have hsame := hx h
  cases ht : x t with
  | error e => simp [hsame, ht]
  | ok a =>
    rw [ht] at hsame
    simpa [hsame] using hf a s t h hsame ht

theorem factorsThrough_bind {x : σ → Except ε α} (hx : FactorsThrough x view)
    (hf : ∀ a, FactorsThrough (f a) view) :
    FactorsThrough (fun s => x s >>= fun a => f a s) view :=
  factorsThrough_bind_of_ok hx fun a _ _ h _ _ => hf a h

end Sequence

section Rows

variable {ρ : Type} {l l' : List ρ} {p q : ρ → Bool}

theorem filter_eq_of_part (h : l.filter p = l'.filter p) (hq : ∀ r, q r → p r) :
    l.filter q = l'.filter q := by
  have hpart : ∀ rows : List ρ, (rows.filter p).filter q = rows.filter q := by
    intro rows
    rw [List.filter_filter]
    apply List.filter_congr
    intro r _
    have hr := hq r
    cases hqr : q r with
    | false => simp
    | true => simpa [hqr] using hr
  rw [← hpart l, ← hpart l', h]

theorem find?_eq_of_part (h : l.filter p = l'.filter p) (hq : ∀ r, q r → p r) :
    l.find? q = l'.find? q := by
  rw [← List.head?_filter, ← List.head?_filter, filter_eq_of_part h hq]

variable {κ : Type} [DecidableEq κ] {key : ρ → κ}

/-- A row that is found and then checked is found among the rows that pass. -/
theorem Table.filter_find? (t : Table key) (k : κ) (p : ρ → Bool) :
    (t.find? k).filter p = t.rows.find? fun r => decide (key r = k) && p r := by
  cases hk : t.find? k with
  | none =>
    rw [Table.find?_eq_none_iff] at hk
    symm
    rw [Option.filter_none, List.find?_eq_none]
    intro r hr
    simp only [Bool.and_eq_true, decide_eq_true_eq, not_and]
    intro hkey
    exact absurd (hkey ▸ List.mem_map_of_mem hr) hk
  | some r =>
    have hmem := Table.find?_mem hk
    have hkey := Table.find?_key hk
    cases hp : p r with
    | true =>
      rw [Option.filter_some, if_pos hp]
      cases hfound : t.rows.find? fun r => decide (key r = k) && p r with
      | none =>
        have hnone := List.find?_eq_none.mp hfound r hmem
        simp [hkey, hp] at hnone
      | some r' =>
        have hr' := List.find?_some hfound
        simp only [Bool.and_eq_true, decide_eq_true_eq] at hr'
        rw [t.eq_of_key_eq hmem (List.mem_of_find?_eq_some hfound) (hkey.trans hr'.1.symm)]
    | false =>
      symm
      rw [Option.filter_some, if_neg (by simp [hp]), List.find?_eq_none]
      intro r' hr'
      simp only [Bool.and_eq_true, decide_eq_true_eq, not_and]
      intro hkey' hpr'
      rw [t.eq_of_key_eq hr' hmem (hkey'.trans hkey.symm), hp] at hpr'
      cases hpr'

theorem Table.filter_find?_eq_of_part {t u : Table key} (h : t.rows.filter p = u.rows.filter p)
    (hq : ∀ r, q r → p r) (k : κ) : (t.find? k).filter q = (u.find? k).filter q := by
  rw [t.filter_find?, u.filter_find?]
  apply find?_eq_of_part h
  intro r hr
  simp only [Bool.and_eq_true] at hr
  exact hq r hr.2

/-- A missing value and one that fails the check raise the same. -/
theorem orError_ensure {ε α β : Type} (o : Option α) (p : α → Prop) [DecidablePred p] (e : ε)
    (f : α → Except ε β) :
    (do
      let a ← orError e o
      ensure (p a) e
      f a) = orError e (o.filter p) >>= f := by
  cases o with
  | none => rfl
  | some a =>
    rw [orError_some, except_bind_ok]
    by_cases hp : p a
    · rw [ensure_pos hp, except_bind_ok, Option.filter_some, if_pos (decide_eq_true hp)]
      rfl
    · rw [ensure_neg hp, except_bind_error, Option.filter_some,
        if_neg (by simpa using hp)]
      rfl

end Rows

end CodeResearch
