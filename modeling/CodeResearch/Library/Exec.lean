import Mathlib.Tactic.Common

/-!
# Stateful computations that may raise

An exception does not roll the state back, so a handler continues from the state
that the raising step left. `Emits` bounds a computation by the state changes it
can make: a finite sequence of permitted commands, whatever its control flow.
-/
namespace CodeResearch

abbrev Exec (ε σ α : Type) := ExceptT ε (StateM σ) α

namespace Exec

variable {ε σ α β κ : Type}

/-- The result and the final state of a computation. -/
def runOn (x : Exec ε σ α) (s : σ) : Except ε α × σ := x.run.run s

/-- A primitive computation. -/
def prim (f : σ → Except ε α × σ) : Exec ε σ α := ExceptT.mk f

@[simp] theorem runOn_prim (f : σ → Except ε α × σ) (s : σ) : (prim f).runOn s = f s := rfl

@[simp] theorem runOn_pure (a : α) (s : σ) : (pure a : Exec ε σ α).runOn s = (.ok a, s) := rfl

@[simp] theorem runOn_throw (e : ε) (s : σ) :
    (throw e : Exec ε σ α).runOn s = (.error e, s) := rfl

theorem runOn_bind (x : Exec ε σ α) (f : α → Exec ε σ β) (s : σ) :
    (x >>= f).runOn s = match x.runOn s with
      | (.ok a, t) => (f a).runOn t
      | (.error e, t) => (.error e, t) := by
  show (ExceptT.bindCont f (x.runOn s).1).run (x.runOn s).2 = _
  rcases x.runOn s with ⟨_ | _, _⟩ <;> rfl

variable {s t : σ} {x : Exec ε σ α} {e : ε} {f : α → Exec ε σ β}

theorem runOn_bind_ok {a : α} (h : x.runOn s = (.ok a, t))
    (f : α → Exec ε σ β) : (x >>= f).runOn s = (f a).runOn t := by
  rw [runOn_bind, h]

theorem runOn_bind_error (h : x.runOn s = (.error e, t))
    (f : α → Exec ε σ β) : (x >>= f).runOn s = (.error e, t) := by
  rw [runOn_bind, h]

theorem runOn_bind_eq_ok_iff {u : σ} {b : β} : (x >>= f).runOn s = (.ok b, u) ↔
      ∃ a t, x.runOn s = (.ok a, t) ∧ (f a).runOn t = (.ok b, u) := by
  rw [runOn_bind]
  rcases x.runOn s with ⟨_ | _, _⟩ <;> simp

theorem runOn_tryCatch (x : Exec ε σ α) (f : ε → Exec ε σ α) (s : σ) :
    (tryCatch x f).runOn s = match x.runOn s with
      | (.ok a, t) => (.ok a, t)
      | (.error e, t) => (f e).runOn t := by
  show (StateT.bind (m := Id) x.run (fun r => match r with
    | .ok a => (pure (.ok a) : StateM σ (Except ε α))
    | .error e => (f e).run) s) = _
  have h : ∀ p : Except ε α × σ, x.run s = p → (StateT.bind (m := Id) x.run (fun r => match r with
      | .ok a => (pure (.ok a) : StateM σ (Except ε α))
      | .error e => (f e).run) s) = match p with
        | (.ok a, t) => (.ok a, t)
        | (.error e, t) => (f e).runOn t := by
    rintro ⟨_ | _, t⟩ hp <;>
    · simp only [StateT.bind, hp]
      rfl
  exact h (x.runOn s) rfl

theorem runOn_tryCatch_ok {a : α} (h : x.runOn s = (.ok a, t))
    (f : ε → Exec ε σ α) : (tryCatch x f).runOn s = (.ok a, t) := by
  rw [runOn_tryCatch, h]

theorem runOn_tryCatch_error (h : x.runOn s = (.error e, t))
    (f : ε → Exec ε σ α) : (tryCatch x f).runOn s = (f e).runOn t := by
  rw [runOn_tryCatch, h]

/-- A call that raises its fault instead of being performed. -/
def faulting (fault : Option ε) (x : Exec ε σ α) : Exec ε σ α :=
  match fault with
  | some e => throw e
  | none => x

/-- Every exception of `x` is handled by `f`, and may change its type. -/
def handle {ε' : Type} (x : Exec ε σ α) (f : ε → Exec ε' σ α) : Exec ε' σ α :=
  prim fun s =>
    match x.runOn s with
    | (.ok a, t) => (.ok a, t)
    | (.error e, t) => (f e).runOn t

/-- A reading, which changes nothing. -/
def query (f : σ → Except ε α) : Exec ε σ α := prim fun s => (f s, s)

def command (f : σ → Except ε σ) : Exec ε σ Unit := prim fun s =>
  match f s with
  | .ok t => (.ok (), t)
  | .error e => (.error e, s)

/-- `if not c: raise e`. -/
def check (c : Prop) [Decidable c] (e : ε) : Exec ε σ Unit := if c then pure () else throw e

@[simp] theorem runOn_query (f : σ → Except ε α) (s : σ) : (query f).runOn s = (f s, s) := rfl

theorem runOn_command_ok {f : σ → Except ε σ} (h : f s = .ok t) :
    (command f).runOn s = (.ok (), t) := by
  rw [command, runOn_prim, h]

theorem runOn_command_error {f : σ → Except ε σ} (h : f s = .error e) :
    (command f).runOn s = (.error e, s) := by
  rw [command, runOn_prim, h]

theorem runOn_check_pos {c : Prop} [Decidable c] (h : c) (e : ε) (s : σ) :
    (check c e).runOn s = (.ok (), s) := by
  rw [check, if_pos h, runOn_pure]

theorem runOn_check_neg {c : Prop} [Decidable c] (h : ¬ c) (e : ε) (s : σ) :
    (check c e).runOn s = (.error e, s) := by
  rw [check, if_neg h, runOn_throw]

/-- From `s` the computation returns with `Q`, or raises with `R`. -/
def Ends (x : Exec ε σ α) (s : σ) (Q : α → σ → Prop) (R : ε → σ → Prop) : Prop :=
  match x.runOn s with
  | (.ok a, t) => Q a t
  | (.error e, t) => R e t

section Ends

variable {s : σ} {Q Q' : α → σ → Prop} {R R' : ε → σ → Prop}

variable {x : Exec ε σ α}

theorem ends_of_ok {a : α} {t : σ} (h : x.runOn s = (.ok a, t)) (hQ : Q a t) : x.Ends s Q R := by
  rw [Ends, h]
  exact hQ

theorem ends_of_error {e : ε} {t : σ} (h : x.runOn s = (.error e, t))
    (hR : R e t) : x.Ends s Q R := by
  rw [Ends, h]
  exact hR

theorem ends_pure {a : α} (h : Q a s) : (pure a : Exec ε σ α).Ends s Q R := h

theorem ends_throw {e : ε} (h : R e s) : (throw e : Exec ε σ α).Ends s Q R := h

theorem Ends.bind {P : β → σ → Prop} (hx : x.Ends s Q R) (hf : ∀ a t, Q a t → (f a).Ends t P R) :
    (x >>= f).Ends s P R := by
  unfold Ends at hx
  split at hx <;> rename_i hrun
  · rw [Ends, runOn_bind_ok hrun]
    exact hf _ _ hx
  · exact ends_of_error (runOn_bind_error hrun f) hx

theorem Ends.tryCatch {f : ε → Exec ε σ α} (hx : x.Ends s Q R)
    (hf : ∀ e t, R e t → (f e).Ends t Q R') : (tryCatch x f).Ends s Q R' := by
  unfold Ends at hx
  split at hx <;> rename_i hrun
  · exact ends_of_ok (runOn_tryCatch_ok hrun f) hx
  · rw [Ends, runOn_tryCatch_error hrun]
    exact hf _ _ hx

theorem Ends.final (hx : x.Ends s Q R) : (∃ a, Q a (x.runOn s).2) ∨ ∃ e, R e (x.runOn s).2 := by
  unfold Ends at hx
  rcases hrun : x.runOn s with ⟨e | a, t⟩
  · rw [hrun] at hx
    exact .inr ⟨e, hx⟩
  · rw [hrun] at hx
    exact .inl ⟨a, hx⟩

theorem ends_faulting {fault : Option ε} (hfault : ∀ e, fault = some e → R e s)
    (hx : fault = none → x.Ends s Q R) : (faulting fault x).Ends s Q R := by
  cases fault with
  | some e => exact hfault e rfl
  | none => exact hx rfl

theorem Ends.handle {ε' : Type} {R' : ε' → σ → Prop} {f : ε → Exec ε' σ α}
    (hx : x.Ends s Q R) (hf : ∀ e t, R e t → (f e).Ends t Q R') : (x.handle f).Ends s Q R' := by
  unfold Ends at hx ⊢
  rw [Exec.handle, runOn_prim]
  split at hx
  · exact hx
  · exact hf _ _ hx

theorem Ends.mono (hx : x.Ends s Q R) (hQ : ∀ a t, Q a t → Q' a t)
    (hR : ∀ e t, R e t → R' e t) : x.Ends s Q' R' := by
  unfold Ends at hx ⊢
  split at hx
  · exact hQ _ _ hx
  · exact hR _ _ hx

theorem ends_raise (x : Exec ε σ β) (e : ε) :
    (do let _ ← x; throw e : Exec ε σ α).Ends s Q fun _ _ => True := by
  apply Ends.bind (Q := fun _ _ => True)
  · unfold Ends
    split <;> trivial
  · intro _ _ _
    exact ends_throw trivial

end Ends

/-- From states with `I` the computation ends in states with `I`. -/
def Keeps (I : σ → Prop) (x : Exec ε σ α) : Prop := ∀ s, I s → x.Ends s (fun _ => I) fun _ => I

section Keeps

variable {I : σ → Prop}

theorem keeps_pure (a : α) : (pure a : Exec ε σ α).Keeps I := fun _ hs => ends_pure hs

theorem keeps_throw (e : ε) : (throw e : Exec ε σ α).Keeps I := fun _ hs => ends_throw hs

theorem keeps_prim {f : σ → Except ε α × σ} (h : ∀ s, I s → I (f s).2) :
    (prim f : Exec ε σ α).Keeps I := by
  intro s hs
  have hI := h s hs
  unfold Ends
  rw [runOn_prim]
  split <;> rename_i heq <;> rwa [heq] at hI

variable {x : Exec ε σ α}

theorem Keeps.bind (hx : x.Keeps I) (hf : ∀ a, (f a).Keeps I) : (x >>= f).Keeps I :=
  fun s hs => (hx s hs).bind fun a t ht => hf a t ht

theorem Keeps.handle {ε' : Type} {f : ε → Exec ε' σ α} (hx : x.Keeps I)
    (hf : ∀ e, (f e).Keeps I) : (x.handle f).Keeps I :=
  fun s hs => (hx s hs).handle fun e t ht => hf e t ht

theorem Keeps.faulting (hx : x.Keeps I) (fault : Option ε) : (faulting fault x).Keeps I :=
  fun s hs => ends_faulting (fun _ _ => hs) fun _ => hx s hs

end Keeps

/-- All state changes of `x` are commands that meet `P`, applied by `step`. -/
def Emits (step : σ → κ → σ) (P : κ → Prop) (x : Exec ε σ α) : Prop :=
  ∀ s, ∃ cs : List κ, (∀ c ∈ cs, P c) ∧ (x.runOn s).2 = cs.foldl step s

section Emits

variable {step : σ → κ → σ} {P Q : κ → Prop}

variable {x : Exec ε σ α}

theorem Emits.mono (h : x.Emits step P) (hPQ : ∀ c, P c → Q c) : x.Emits step Q := by
  intro s
  obtain ⟨cs, hcs, hs⟩ := h s
  exact ⟨cs, fun c hc => hPQ c (hcs c hc), hs⟩

theorem emits_pure (a : α) : (pure a : Exec ε σ α).Emits step P :=
  fun _ => ⟨[], by simp, rfl⟩

theorem emits_throw (e : ε) : (throw e : Exec ε σ α).Emits step P :=
  fun _ => ⟨[], by simp, rfl⟩

theorem Emits.bind (hx : x.Emits step P) (hf : ∀ a, (f a).Emits step P) :
    (x >>= f).Emits step P := by
  intro s
  obtain ⟨cs, hcs, hs⟩ := hx s
  rcases hrun : x.runOn s with ⟨e | a, t⟩
  · rw [runOn_bind_error hrun]
    rw [hrun] at hs
    exact ⟨cs, hcs, hs⟩
  · rw [runOn_bind_ok hrun]
    rw [hrun] at hs
    obtain ⟨ds, hds, ht⟩ := hf a t
    refine ⟨cs ++ ds, fun c hc => ?_, ?_⟩
    · rcases List.mem_append.mp hc with hc | hc
      · exact hcs c hc
      · exact hds c hc
    · rw [List.foldl_append, ← hs, ht]

theorem Emits.tryCatch {f : ε → Exec ε σ α} (hx : x.Emits step P)
    (hf : ∀ e, (f e).Emits step P) : (tryCatch x f).Emits step P := by
  intro s
  obtain ⟨cs, hcs, hs⟩ := hx s
  rcases hrun : x.runOn s with ⟨e | a, t⟩
  · rw [runOn_tryCatch_error hrun]
    rw [hrun] at hs
    obtain ⟨ds, hds, ht⟩ := hf e t
    refine ⟨cs ++ ds, fun c hc => ?_, ?_⟩
    · rcases List.mem_append.mp hc with hc | hc
      · exact hcs c hc
      · exact hds c hc
    · rw [List.foldl_append, ← hs, ht]
  · rw [runOn_tryCatch_ok hrun]
    rw [hrun] at hs
    exact ⟨cs, hcs, hs⟩

theorem Emits.invariant (hx : x.Emits step P) (Inv : σ → Prop)
    (hstep : ∀ s c, Inv s → P c → Inv (step s c)) {s : σ} (hs : Inv s) : Inv (x.runOn s).2 := by
  obtain ⟨cs, hcs, heq⟩ := hx s
  rw [heq]
  clear heq
  induction cs generalizing s with
  | nil => exact hs
  | cons c cs ih =>
    exact ih (hstep s c hs (hcs c List.mem_cons_self))
      (fun d hd => hcs d (List.mem_cons_of_mem _ hd))

theorem Emits.ends (hx : x.Emits step P) (Inv : σ → Prop)
    (hstep : ∀ s c, Inv s → P c → Inv (step s c)) {s : σ} (hs : Inv s) :
    x.Ends s (fun _ t => Inv t) fun _ t => Inv t := by
  have hfinal := hx.invariant Inv hstep hs
  unfold Ends
  rcases hrun : x.runOn s with ⟨e | a, t⟩ <;>
  · rw [hrun] at hfinal
    exact hfinal

end Emits

end Exec

end CodeResearch
