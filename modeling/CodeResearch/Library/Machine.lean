import Mathlib.Logic.Relation
import Mathlib.Data.List.Basic

/-!
# Deterministic labelled machines and guarded runs

A machine moves from a state along a label, or refuses the label. A run carries
a guard that each of its steps has to meet at the state it starts from, so that
one rule covers unrestricted runs and runs whose environment is restricted.
-/
namespace CodeResearch

variable {σ α τ β : Type*}

/-- `step s a = none` means that `a` is not enabled in `s`. -/
structure Machine (σ α : Type*) where
  step : σ → α → Option σ

namespace Machine

variable (M : Machine σ α) {G H : σ → α → Prop}

/-- Runs whose every step meets the guard `G` at its source state. -/
inductive Run (G : σ → α → Prop) : σ → List α → σ → Prop
  | nil (s : σ) : Run G s [] s
  | cons {s t u : σ} {a : α} {as : List α} :
      G s a → M.step s a = some t → Run G t as u → Run G s (a :: as) u

/-- No restriction on the steps. -/
abbrev Free : σ → α → Prop := fun _ _ => True

/-- The executable form of a guarded run. -/
def exec (G : σ → α → Prop) [∀ s a, Decidable (G s a)] (s : σ) : List α → Option σ
  | [] => some s
  | a :: as => if G s a then (M.step s a).bind fun t => exec G t as else none

variable {M}

variable {as : List α} {s t : σ}

theorem Run.mono (hGH : ∀ s a, G s a → H s a) (h : M.Run G s as t) : M.Run H s as t := by
  induction h with
  | nil s => exact .nil s
  | cons hg hs _ ih => exact .cons (hGH _ _ hg) hs ih

theorem Run.free (h : M.Run G s as t) : M.Run Free s as t :=
  h.mono fun _ _ _ => trivial

theorem Run.append {u : σ} {bs : List α} (h : M.Run G s as t)
    (h' : M.Run G t bs u) : M.Run G s (as ++ bs) u := by
  induction h with
  | nil s => exact h'
  | cons hg hs _ ih => exact .cons hg hs (ih h')

theorem Run.snoc {u : σ} {a : α} (h : M.Run G s as t)
    (hg : G t a) (hs : M.step t a = some u) : M.Run G s (as ++ [a]) u :=
  h.append (.cons hg hs (.nil u))

theorem Run.invariant (Inv : σ → Prop)
    (hstep : ∀ s a t, Inv s → G s a → M.step s a = some t → Inv t) (h : M.Run G s as t) (hs : Inv s) : Inv t := by
  induction h with
  | nil s => exact hs
  | cons hg hst _ ih => exact ih (hstep _ _ _ hs hg hst)

theorem Run.evolves (Inv : σ → Prop) (R : σ → σ → Prop)
    (hrefl : ∀ s, R s s) (htrans : ∀ s t u, R s t → R t u → R s u)
    (hinv : ∀ s a t, Inv s → G s a → M.step s a = some t → Inv t)
    (hstep : ∀ s a t, Inv s → G s a → M.step s a = some t → R s t) (h : M.Run G s as t) (hs : Inv s) : R s t := by
  induction h with
  | nil s => exact hrefl s
  | cons hg hst _ ih =>
    exact htrans _ _ _ (hstep _ _ _ hs hg hst) (ih (hinv _ _ _ hs hg hst))

theorem Run.countP_add_rank_le (Inv : σ → Prop) (rank : σ → ℕ) (p : α → Bool)
    (hinv : ∀ s a t, Inv s → G s a → M.step s a = some t → Inv t)
    (hstep : ∀ s a t, Inv s → G s a → M.step s a = some t →
      rank t + (if p a then 1 else 0) ≤ rank s) (h : M.Run G s as t) (hs : Inv s) : as.countP p + rank t ≤ rank s := by
  induction h with
  | nil s => simp
  | cons hg hst _ ih =>
    have hle := hstep _ _ _ hs hg hst
    have htail := ih (hinv _ _ _ hs hg hst)
    rw [List.countP_cons]
    omega

theorem Run.length_add_rank_le (Inv : σ → Prop) (rank : σ → ℕ)
    (hinv : ∀ s a t, Inv s → G s a → M.step s a = some t → Inv t)
    (hstep : ∀ s a t, Inv s → G s a → M.step s a = some t → rank t < rank s) (h : M.Run G s as t) (hs : Inv s) : as.length + rank t ≤ rank s := by
  have hcount := h.countP_add_rank_le Inv rank (fun _ => true) hinv
    (fun s a t hs hg hst => hstep s a t hs hg hst) hs
  rwa [List.countP_true] at hcount

theorem Run.forall_step (Inv : σ → Prop) (P : σ → α → Prop)
    (hinv : ∀ s a t, Inv s → G s a → M.step s a = some t → Inv t)
    (hstep : ∀ s a t, Inv s → G s a → M.step s a = some t → P s a) (h : M.Run G s as t) (hs : Inv s) :
    M.Run (fun s a => G s a ∧ P s a) s as t := by
  induction h with
  | nil s => exact .nil s
  | cons hg hst _ ih =>
    exact .cons ⟨hg, hstep _ _ _ hs hg hst⟩ hst (ih (hinv _ _ _ hs hg hst))

theorem run_of_exec [∀ s a, Decidable (G s a)] (h : M.exec G s as = some t) : M.Run G s as t := by
  induction as generalizing s with
  | nil =>
    cases Option.some.inj h
    exact .nil _
  | cons a as ih =>
    rw [exec] at h
    split_ifs at h with hg
    obtain ⟨u, hu, ht⟩ := Option.bind_eq_some_iff.mp h
    exact .cons hg hu (ih ht)

theorem exec_append [∀ s a, Decidable (G s a)] (s : σ) (as bs : List α) :
    M.exec G s (as ++ bs) = (M.exec G s as).bind fun t => M.exec G t bs := by
  induction as generalizing s with
  | nil => rfl
  | cons a as ih =>
    simp only [List.cons_append, exec]
    split_ifs
    · cases M.step s a with
      | none => rfl
      | some t => exact ih t
    · rfl

/-- A total machine, for systems in which every label is always accepted. -/
def total (f : σ → α → σ) : Machine σ α := ⟨fun s a => some (f s a)⟩

@[simp] theorem total_step (f : σ → α → σ) (s : σ) (a : α) :
    (total f).step s a = some (f s a) := rfl

theorem run_total (f : σ → α → σ) [∀ s a, Decidable (G s a)]
    (h : ((total f).exec G s as).isSome) : (total f).Run G s as (as.foldl f s) := by
  induction as generalizing s with
  | nil => exact .nil s
  | cons a as ih =>
    rw [exec] at h
    split_ifs at h with hg
    · exact .cons hg rfl (ih h)
    · cases h

theorem run_total_of_forall (f : σ → α → σ) (h : ∀ a ∈ as, ∀ s, G s a) (s : σ) :
    (total f).Run G s as (as.foldl f s) := by
  induction as generalizing s with
  | nil => exact .nil s
  | cons a as ih =>
    exact .cons (h a List.mem_cons_self s) rfl (ih (fun b hb => h b (List.mem_cons_of_mem _ hb)) _)

/-- The exactness rule: a property that a step keeps exactly when it meets the guard
holds along a whole run exactly when all of its steps do. -/
theorem forall_prefix_iff (f : σ → α → σ) (Inv P : σ → Prop)
    (hinv : ∀ s a, Inv s → Inv (f s a)) (hstep : ∀ s a, Inv s → P s → (P (f s a) ↔ G s a)) (hs : Inv s) (hP : P s) (as : List α) :
    (∀ before after, as = before ++ after → P (before.foldl f s)) ↔
      ∀ before a after, as = before ++ a :: after → G (before.foldl f s) a := by
  induction as generalizing s with
  | nil =>
    constructor
    · intro _ before a after h
      simp at h
    · intro _ before after h
      obtain ⟨rfl, _⟩ := List.nil_eq_append_iff.mp h
      exact hP
  | cons a as ih =>
    constructor
    · intro h
      have hfirst : P (f s a) := h [a] as rfl
      have hrest := (ih (hinv s a hs) hfirst).mp fun before after hsplit =>
        h (a :: before) after (by rw [hsplit]; rfl)
      intro before b after hsplit
      cases before with
      | nil =>
        obtain ⟨rfl, _⟩ := List.cons.inj hsplit
        exact (hstep s a hs hP).mp hfirst
      | cons c before =>
        obtain ⟨rfl, htail⟩ := List.cons.inj hsplit
        exact hrest before b after htail
    · intro h
      have hfirst : P (f s a) := (hstep s a hs hP).mpr (h [] a as rfl)
      have hrest := (ih (hinv s a hs) hfirst).mpr fun before b after hsplit =>
        h (a :: before) b after (by rw [hsplit]; rfl)
      intro before after hsplit
      cases before with
      | nil => exact hP
      | cons c before =>
        obtain ⟨rfl, htail⟩ := List.cons.inj hsplit
        exact hrest before after htail

/-- Every step of a run meets `P` at the state it starts from. -/
def EachStep (f : σ → α → σ) (P : σ → α → Prop) : σ → List α → Prop
  | _, [] => True
  | s, a :: as => P s a ∧ EachStep f P (f s a) as

theorem eachStep_append (f : σ → α → σ) (P : σ → α → Prop) (s : σ) (as bs : List α) :
    EachStep f P s (as ++ bs) ↔ EachStep f P s as ∧ EachStep f P (as.foldl f s) bs := by
  induction as generalizing s with
  | nil => simp [EachStep]
  | cons a as ih => simp only [List.cons_append, EachStep, List.foldl_cons, ih, and_assoc]

theorem eachStep_iff (f : σ → α → σ) (Inv : σ → Prop) {P G : σ → α → Prop}
    (hinv : ∀ s a, Inv s → P s a → Inv (f s a)) (hstep : ∀ s a, Inv s → (P s a ↔ G s a)) (hs : Inv s) (as : List α) : EachStep f P s as ↔ EachStep f G s as := by
  induction as generalizing s with
  | nil => exact Iff.rfl
  | cons a as ih =>
    constructor
    · rintro ⟨ha, has⟩
      exact ⟨(hstep s a hs).mp ha, (ih (hinv s a hs ha)).mp has⟩
    · rintro ⟨ha, has⟩
      have hP := (hstep s a hs).mpr ha
      exact ⟨hP, (ih (hinv s a hs hP)).mpr has⟩

end Machine

end CodeResearch
