import Mathlib.Tactic.Common

/-!
# Computations that may raise

Inversion rules for `Except` computations written as a sequence of lookups,
checks and writes: a sequence returns only if each of its parts returned.
-/
namespace CodeResearch

universe u v w

variable {ε : Type u} {α β : Type v}

/-- `if not c: raise e`. -/
def ensure (c : Prop) [Decidable c] (e : ε) : Except ε Unit :=
  if c then .ok () else .error e

/-- A missing value raises `e`. -/
def orError (e : ε) : Option α → Except ε α
  | some a => .ok a
  | none => .error e

variable {c : Prop} {a : α} {x : Except ε α}

@[simp] theorem ensure_eq_ok_iff [Decidable c] {e : ε} {u : Unit} :
    ensure c e = .ok u ↔ c := by
  unfold ensure
  split_ifs <;> simp_all

@[simp] theorem orError_eq_ok_iff {e : ε} {o : Option α} :
    orError e o = .ok a ↔ o = some a := by
  cases o <;> simp [orError]

theorem ensure_pos [Decidable c] (h : c) (e : ε) : ensure c e = .ok () :=
  if_pos h

theorem ensure_neg [Decidable c] (h : ¬ c) (e : ε) : ensure c e = .error e :=
  if_neg h

@[simp] theorem orError_some (e : ε) (a : α) : orError e (some a) = .ok a := rfl

@[simp] theorem orError_none (e : ε) : (orError e none : Except ε α) = .error e := rfl

@[simp] theorem except_bind_ok (a : α) (f : α → Except ε β) :
    (Except.ok a >>= f) = f a := rfl

@[simp] theorem except_pure_bind (a : α) (f : α → Except ε β) :
    ((pure a : Except ε α) >>= f) = f a := rfl

@[simp] theorem except_bind_error (e : ε) (f : α → Except ε β) :
    ((Except.error e : Except ε α) >>= f) = .error e := rfl

theorem except_bind_eq_ok_iff {f : α → Except ε β} {b : β} :
    (x >>= f) = .ok b ↔ ∃ a, x = .ok a ∧ f a = .ok b := by
  cases x <;> simp

theorem except_bind_eq_error_iff {f : α → Except ε β} {e : ε} :
    (x >>= f) = .error e ↔ x = .error e ∨ ∃ a, x = .ok a ∧ f a = .error e := by
  cases x <;> simp

@[simp] theorem ensure_eq_error_iff [Decidable c] {e e' : ε} :
    ensure c e = .error e' ↔ ¬ c ∧ e = e' := by
  unfold ensure
  split_ifs <;> simp_all

@[simp] theorem orError_eq_error_iff {e e' : ε} {o : Option α} :
    orError e o = .error e' ↔ o = none ∧ e = e' := by
  cases o <;> simp [orError]

@[simp] theorem except_map_eq_ok_iff {f : α → β} {b : β} :
    x.map f = .ok b ↔ ∃ a, x = .ok a ∧ f a = b := by
  cases x <;> simp [Except.map]

@[simp] theorem except_map_eq_error_iff {f : α → β} {e : ε} :
    x.map f = .error e ↔ x = .error e := by
  cases x <;> simp [Except.map]

theorem except_toOption_eq_some_iff : x.toOption = some a ↔ x = .ok a := by
  cases x <;> simp [Except.toOption]

@[simp] theorem except_pure_eq_ok_iff {b : α} : (pure a : Except ε α) = .ok b ↔ a = b := by
  simp [pure, Except.pure]

theorem except_forM_eq_ok_iff {ι : Type*} {ε : Type*} {l : List ι} {f : ι → Except ε PUnit} :
    l.forM f = .ok ⟨⟩ ↔ ∀ a ∈ l, f a = .ok ⟨⟩ := by
  induction l with
  | nil => exact iff_of_true rfl (by simp)
  | cons a l ih =>
    change (f a >>= fun _ => l.forM f) = .ok ⟨⟩ ↔ _
    rw [except_bind_eq_ok_iff, List.forall_mem_cons, ← ih]
    constructor
    · rintro ⟨_, ha, hl⟩
      exact ⟨ha, hl⟩
    · rintro ⟨ha, hl⟩
      exact ⟨_, ha, hl⟩

/-- A loop raises what its first raising round raises. -/
theorem except_forM_error {ι : Type*} {ε : Type*} {l : List ι} {f : ι → Except ε PUnit} {e : ε}
    (h : l.forM f = .error e) :
    ∃ before a after, l = before ++ a :: after ∧ (∀ b ∈ before, f b = .ok ⟨⟩) ∧
      f a = .error e := by
  induction l with
  | nil => cases h
  | cons a l ih =>
    change (f a >>= fun _ => l.forM f) = .error e at h
    rw [except_bind_eq_error_iff] at h
    rcases h with h | ⟨_, ha, hl⟩
    · exact ⟨[], a, l, rfl, by simp, h⟩
    · obtain ⟨before, b, after, rfl, hbefore, hb⟩ := ih hl
      refine ⟨a :: before, b, after, rfl, ?_, hb⟩
      exact List.forall_mem_cons.mpr ⟨ha, hbefore⟩

theorem exists_except_mapM {ι : Type*} {ε β : Type*} {l : List ι} {f : ι → Except ε β}
    (h : ∀ a ∈ l, ∃ b, f a = .ok b) : ∃ bs, l.mapM f = .ok bs := by
  induction l with
  | nil => exact ⟨[], rfl⟩
  | cons a l ih =>
    obtain ⟨b, hb⟩ := h a List.mem_cons_self
    obtain ⟨bs, hbs⟩ := ih fun c hc => h c (List.mem_cons_of_mem a hc)
    exact ⟨b :: bs, by rw [List.mapM_cons, hb, except_bind_ok, hbs, except_bind_ok]; rfl⟩

/-- Two computations raise the same error, or return related values. -/
inductive Agree {β : Type w} (R : α → β → Prop) : Except ε α → Except ε β → Prop
  | error (e : ε) : Agree R (.error e) (.error e)
  | ok {a : α} {b : β} (h : R a b) : Agree R (.ok a) (.ok b)

theorem Agree.bind {α' : Type v} {β β' : Type w} {R : α → β → Prop} {S : α' → β' → Prop}
    {y : Except ε β} {f : α → Except ε α'} {g : β → Except ε β'}
    (h : Agree R x y) (hrest : ∀ a b, y = .ok b → R a b → Agree S (f a) (g b)) :
    Agree S (x >>= f) (y >>= g) := by
  cases h with
  | error e => exact .error e
  | ok h => exact hrest _ _ rfl h

theorem Agree.bind_same {α' β' : Type v} {S : α' → β' → Prop}
    {f : α → Except ε α'} {g : α → Except ε β'}
    (hrest : ∀ a, x = .ok a → Agree S (f a) (g a)) : Agree S (x >>= f) (x >>= g) := by
  cases x with
  | error e => exact .error e
  | ok a => exact hrest a rfl

def transact {σ : Type v} (s : σ) : Except ε (α × σ) → Except ε α × σ
  | .ok (a, t) => (.ok a, t)
  | .error e => (.error e, s)

theorem transact_cases {σ : Type v} (s : σ) (x : Except ε (α × σ)) :
    (∃ e, x = .error e ∧ transact s x = (.error e, s)) ∨
      ∃ a t, x = .ok (a, t) ∧ transact s x = (.ok a, t) := by
  rcases x with e | ⟨a, t⟩
  · exact .inl ⟨e, rfl, rfl⟩
  · exact .inr ⟨a, t, rfl, rfl⟩

end CodeResearch

namespace CodeResearch

/-! ### Postconditions

A computation ensures a postcondition when every value it returns satisfies it; what it
raises does not matter. The rules follow the shape of the computation.
-/

universe u v

variable {ε : Type u} {α β : Type v} {P : β → Prop} {x : Except ε α} {f : α → Except ε β}

def Ensures (P : α → Prop) (x : Except ε α) : Prop := ∀ a, x = .ok a → P a

variable {b : β}

theorem Ensures.ok (h : P b) : Ensures P (.ok b : Except ε β) := by
  intro _ heq
  cases heq
  exact h

theorem Ensures.pure (h : P b) : Ensures P (pure b : Except ε β) := .ok h

theorem Ensures.bind {Q : α → Prop} (h : Ensures Q x) (hrest : ∀ a, Q a → Ensures P (f a)) :
    Ensures P (x >>= f) := by
  intro b hb
  obtain ⟨a, ha, hb⟩ := except_bind_eq_ok_iff.mp hb
  exact hrest a (h a ha) b hb

theorem Ensures.after (hrest : ∀ a, Ensures P (f a)) : Ensures P (x >>= f) :=
  .bind (Q := fun _ => True) (fun _ _ => trivial) fun a _ => hrest a

theorem Ensures.mono {Q : β → Prop} {y : Except ε β} (hy : Ensures Q y)
    (h : ∀ b, Q b → P b) : Ensures P y :=
  fun b hb => h b (hy b hb)

theorem Ensures.foldlM {ι : Type v} {step : β → ι → Except ε β} {l : List ι} (h : P b)
    (hstep : ∀ b, P b → ∀ i ∈ l, Ensures P (step b i)) : Ensures P (l.foldlM step b) := by
  induction l generalizing b with
  | nil => exact .pure h
  | cons i l ih =>
    rw [List.foldlM_cons]
    refine .bind (hstep b h i List.mem_cons_self) fun b' hb' => ?_
    exact ih hb' fun c hc j hj => hstep c hc j (List.mem_cons_of_mem i hj)

end CodeResearch
