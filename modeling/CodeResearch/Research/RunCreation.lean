import CodeResearch.Alignment.RunCreation

/-!
# Creation of research runs

`create_run` looks for a recorded key, inserts, and looks again when the insertion fails, in a
transaction of its own each time. After a failed insertion it asks only for the key, not for the
constraint that failed. A digest stands for what it is computed from.
-/
namespace CodeResearch.Research.Creation

open Alignment.Creation (scopeOf)

/-- What `request_hash` reads; `content` is the canonical JSON of the other fields. -/
structure RunRequest where
  repoId : String
  indexVersionId : String
  parentRunId : Option String := none
  continuedFromRunId : Option String := none
  content : String := "{}"
  deriving DecidableEq

structure ResearchRunRow where
  runId : String
  request : RunRequest
  callerScope : String
  idempotencyKey : Option String
  deriving DecidableEq

abbrev RunTable := Table ResearchRunRow.runId

def ResearchRunRow.key (r : ResearchRunRow) : Option (String × String) :=
  r.idempotencyKey.map fun key => (r.callerScope, key)

structure CreateCall where
  request : RunRequest
  callerScope : String
  idempotencyKey : Option String
  runId : String
  deriving DecidableEq

def CreateCall.newRun (c : CreateCall) : ResearchRunRow where
  runId := c.runId
  request := c.request
  callerScope := scopeOf c.callerScope
  idempotencyKey := c.idempotencyKey.filter (· ≠ "")

inductive CreateOutcome
  | returned (run : ResearchRunRow) (existing : Bool)
  | idempotencyKeyConflict
  /-- `sqlite3.IntegrityError` -/
  | integrity
  deriving DecidableEq

/-- Where a call stands. -/
inductive CreatePoint
  | started | unrecorded | refused
  | ended (outcome : CreateOutcome)
  deriving DecidableEq

section Calls

variable (runs : RunTable) (c : CreateCall)

/-- `_find_idempotent`. -/
def findIdempotent : Option ResearchRunRow :=
  c.newRun.key.bind fun key => runs.rows.find? fun r => r.key = some key

/-- The id that was drawn is new and the runs that the request refers to exist (a run may refer
to itself). -/
def ReferencesHold : Prop :=
  runs.find? c.runId = none ∧ ∀ id, some id ∈ [c.request.parentRunId, c.request.continuedFromRunId] →
    id = c.runId ∨ (runs.find? id).isSome

instance : Decidable (ReferencesHold runs c) :=
  decidable_of_iff (runs.find? c.runId = none ∧
    ∀ o ∈ [c.request.parentRunId, c.request.continuedFromRunId], ∀ id ∈ o,
      id = c.runId ∨ (runs.find? id).isSome)
    (and_congr_right' ⟨fun h id hid => h _ hid id rfl, fun h _ ho id hid => h id (hid ▸ ho)⟩)

/-- The insertion, unless a constraint fails. -/
def insertRun : Option RunTable :=
  if ReferencesHold runs c ∧ findIdempotent runs c = none then runs.insert c.newRun else none

def answer (row : ResearchRunRow) : CreateOutcome :=
  if row.request = c.request then .returned row true else .idempotencyKeyConflict

def CreateCall.next : CreatePoint → RunTable × CreatePoint
  | .started => (runs, match findIdempotent runs c with
    | some row => .ended (answer c row)
    | none => .unrecorded)
  | .unrecorded => match insertRun runs c with
    | some inserted => (inserted, .ended (.returned c.newRun false))
    | none => (runs, if c.newRun.key = none then .ended .integrity else .refused)
  | .refused => (runs, .ended (((findIdempotent runs c).map (answer c)).getD
      .idempotencyKeyConflict))
  | .ended outcome => (runs, .ended outcome)

end Calls

/-- The table and the calls, which take their transactions in any order. -/
structure CreationState (ι : Type) where
  runs : RunTable
  points : ι → CreatePoint

section Runs

variable {ι : Type} [DecidableEq ι] (calls : ι → CreateCall)

def machine : Machine (CreationState ι) ι :=
  .total fun s i => ⟨((calls i).next s.runs (s.points i)).1,
    Function.update s.points i ((calls i).next s.runs (s.points i)).2⟩

/-- The unique index on idempotency keys. -/
def OneKey (runs : RunTable) : Prop :=
  ∀ r ∈ runs.rows, ∀ r' ∈ runs.rows, r.key ≠ none → r.key = r'.key → r = r'

/-- A key has one run at most, the run that one call returns goes to every call that ends with
its key and its request, and the calls that end with a conflict are those whose key a run with
another request has. -/
structure Truthful (s : CreationState ι) : Prop where
  oneRun : OneKey s.runs
  sameRun : ∀ i j run existing outcome, (calls i).newRun.key ≠ none →
    (calls i).newRun.key = (calls j).newRun.key → (calls i).request = (calls j).request →
    s.points i = .ended (.returned run existing) → s.points j = .ended outcome →
    ∃ existing', outcome = .returned run existing'
  conflict : ∀ i outcome, s.points i = .ended outcome → (outcome = .idempotencyKeyConflict ↔
    ∃ run ∈ s.runs.rows, run.key ≠ none ∧ run.key = (calls i).newRun.key ∧
      run.request ≠ (calls i).request)

def Referenced (s : CreationState ι) (i : ι) : Prop :=
  s.points i = .unrecorded → (calls i).newRun.key ≠ none →
    ReferencesHold s.runs (calls i) ∨ (findIdempotent s.runs (calls i)).isSome

def Holds (runs : RunTable) (c : CreateCall) : CreatePoint → Prop
  | .started | .unrecorded => True
  | .refused => ∃ run ∈ runs.rows, run.key ≠ none ∧ run.key = c.newRun.key
  | .ended (.returned run _) => run ∈ runs.rows ∧ run.key = c.newRun.key ∧ run.request = c.request
  | .ended .idempotencyKeyConflict => ∃ run ∈ runs.rows, run.key ≠ none ∧
      run.key = c.newRun.key ∧ run.request ≠ c.request
  | .ended .integrity => c.newRun.key = none

structure Sound (s : CreationState ι) : Prop where
  oneKey : OneKey s.runs
  holds : ∀ i, Holds s.runs (calls i) (s.points i)

variable {calls} {s : CreationState ι} {runs runs' : RunTable} {c : CreateCall}
  {row : ResearchRunRow}

theorem Holds.mono {point : CreatePoint} (hsub : ∀ r ∈ runs.rows, r ∈ runs'.rows)
    (h : Holds runs c point) : Holds runs' c point := by
  match point, h with
  | .started, _ | .unrecorded, _ => exact trivial
  | .refused, ⟨run, hrun, hkey⟩ => exact ⟨run, hsub run hrun, hkey⟩
  | .ended (.returned run _), ⟨hrun, hrest⟩ => exact ⟨hsub run hrun, hrest⟩
  | .ended .idempotencyKeyConflict, ⟨run, hrun, hrest⟩ => exact ⟨run, hsub run hrun, hrest⟩
  | .ended .integrity, h => exact h

theorem findIdempotent_some (h : findIdempotent runs c = some row) :
    row ∈ runs.rows ∧ row.key ≠ none ∧ row.key = c.newRun.key := by
  obtain ⟨key, hkey, hfind⟩ := Option.bind_eq_some_iff.mp h
  have hrow : row.key = some key := by simpa using List.find?_some hfind
  exact ⟨List.mem_of_find?_eq_some hfind, by simp [hrow], hrow.trans hkey.symm⟩

theorem holds_answer (h : findIdempotent runs c = some row) :
    Holds runs c (.ended (answer c row)) := by
  obtain ⟨hmem, hsome, hkey⟩ := findIdempotent_some h
  unfold answer
  split_ifs with hrequest
  · exact ⟨hmem, hkey, hrequest⟩
  · exact ⟨row, hmem, hsome, hkey, hrequest⟩

theorem findIdempotent_of_mem (hmem : row ∈ runs.rows) (hsome : row.key ≠ none)
    (hkey : row.key = c.newRun.key) : (findIdempotent runs c).isSome := by
  obtain ⟨key, hk⟩ := Option.ne_none_iff_exists'.mp hsome
  rw [findIdempotent, ← hkey, hk, Option.bind_some, List.find?_isSome]
  exact ⟨row, hmem, by simp [hk]⟩

/-- One transaction keeps the index and adds rows only, and its point says what holds. -/
theorem next_sound (hone : OneKey runs) {point : CreatePoint} (h : Holds runs c point)
    (href : point = .unrecorded → c.newRun.key ≠ none →
      ReferencesHold runs c ∨ (findIdempotent runs c).isSome) :
    OneKey (c.next runs point).1 ∧ (∀ r ∈ runs.rows, r ∈ (c.next runs point).1.rows) ∧
      Holds (c.next runs point).1 c (c.next runs point).2 := by
  cases point with
  | started =>
    refine ⟨hone, fun _ hr => hr, ?_⟩
    simp only [CreateCall.next]
    split
    · rename_i row hrow
      exact holds_answer hrow
    · trivial
  | unrecorded =>
    simp only [CreateCall.next]
    cases hinsert : insertRun runs c with
    | some inserted =>
      unfold insertRun at hinsert
      split_ifs at hinsert with hok
      have hmem := Table.mem_insert hinsert
      refine ⟨?_, fun r hr => (hmem r).mpr (.inl hr), (hmem _).mpr (.inr rfl), rfl, rfl⟩
      have hnew : ∀ r ∈ runs.rows, r.key ≠ none → r.key ≠ c.newRun.key := by
        intro r hr hsome hkey
        have hfound := findIdempotent_of_mem hr hsome hkey
        rw [hok.2] at hfound
        cases hfound
      intro r hr r' hr' hsome hkey
      rcases (hmem r).mp hr with hr | rfl
      · rcases (hmem r').mp hr' with hr' | rfl
        · exact hone r hr r' hr' hsome hkey
        · exact absurd hkey (hnew r hr hsome)
      · rcases (hmem r').mp hr' with hr' | rfl
        · exact absurd hkey.symm (hnew r' hr' (hkey ▸ hsome))
        · rfl
    | none =>
      refine ⟨hone, fun _ hr => hr, ?_⟩
      dsimp only
      split_ifs with hkey
      · exact hkey
      · -- the references hold, so that a run has the key
        have hfound : (findIdempotent runs c).isSome := by
          refine (href rfl hkey).elim (fun hrefs => ?_) id
          by_contra hnone
          rw [insertRun, if_pos ⟨hrefs, by simpa using hnone⟩] at hinsert
          obtain ⟨inserted, hsome⟩ := Table.exists_insert_iff (r := c.newRun) |>.mpr hrefs.1
          rw [hsome] at hinsert
          cases hinsert
        obtain ⟨row, hrow⟩ := Option.isSome_iff_exists.mp hfound
        obtain ⟨hmem, hrest⟩ := findIdempotent_some hrow
        exact ⟨row, hmem, hrest⟩
  | refused =>
    refine ⟨hone, fun _ hr => hr, ?_⟩
    obtain ⟨run, hrun, hsome, hkey⟩ := h
    obtain ⟨row, hrow⟩ := Option.isSome_iff_exists.mp (findIdempotent_of_mem hrun hsome hkey)
    simp only [CreateCall.next, hrow, Option.map_some, Option.getD_some]
    exact holds_answer hrow
  | ended outcome => exact ⟨hone, fun _ hr => hr, h⟩

theorem Sound.step {i : ι} (h : Sound calls s) (href : Referenced calls s i) :
    Sound calls ⟨((calls i).next s.runs (s.points i)).1,
      Function.update s.points i ((calls i).next s.runs (s.points i)).2⟩ := by
  obtain ⟨hone, hsub, hholds⟩ := next_sound h.oneKey (h.holds i) href
  refine ⟨hone, fun j => ?_⟩
  by_cases hj : j = i
  · subst hj
    dsimp only
    rw [Function.update_self]
    exact hholds
  · dsimp only
    rw [Function.update_of_ne hj]
    exact (h.holds j).mono hsub

omit [DecidableEq ι] in
theorem Sound.truthful (h : Sound calls s) : Truthful calls s := by
  refine ⟨h.oneKey, ?_, ?_⟩
  · intro i j run existing outcome hsome hkey hrequest hi hj
    have hrun := h.holds i
    have hpoint := h.holds j
    rw [hi] at hrun
    rw [hj] at hpoint
    obtain ⟨hmem, hown, hasked⟩ := hrun
    have hsame : ∀ other ∈ s.runs.rows, other.key = (calls j).newRun.key → other = run :=
      fun other hother hk => (h.oneKey run hmem other hother (hown ▸ hsome)
        (hown.trans (hkey.trans hk.symm))).symm
    match outcome, hpoint with
    | .returned run' existing', ⟨hrun', hk, _⟩ => exact ⟨existing', by rw [hsame run' hrun' hk]⟩
    | .idempotencyKeyConflict, ⟨other, hother, _, hk, hne⟩ =>
      rw [hsame other hother hk] at hne
      exact absurd (hasked.trans hrequest) hne
    | .integrity, hnone => exact absurd (hkey.trans hnone) hsome
  · intro i outcome hi
    have hpoint := h.holds i
    rw [hi] at hpoint
    match outcome, hpoint with
    | .idempotencyKeyConflict, hconflict => exact iff_of_true rfl hconflict
    | .returned run _, ⟨hrun, hkey, hrequest⟩ =>
      refine iff_of_false nofun ?_
      rintro ⟨other, hother, hsome, hsame, hne⟩
      rw [h.oneKey other hother run hrun hsome (hsame.trans hkey.symm)] at hne
      exact hne hrequest
    | .integrity, hkey =>
      refine iff_of_false nofun ?_
      rintro ⟨other, -, hsome, hsame, -⟩
      exact hsome (hsame.trans hkey)

/-- Calls whose references hold when they insert leave a truthful state behind, whatever their
order. -/
theorem truthful_of_referenced {runs : RunTable} {order : List ι} (hone : OneKey runs)
    (hrun : (machine calls).Run (Referenced calls) ⟨runs, fun _ => .started⟩ order s) :
    Truthful calls s := by
  have hsound : Sound calls s := by
    refine hrun.invariant (Sound calls) ?_ ⟨hone, fun _ => trivial⟩
    rintro s i t hs href hstep
    cases hstep
    exact hs.step href
  exact hsound.truthful

end Runs

def sampleCalls : Fin 3 → CreateCall
  | 0 => ⟨{ repoId := "repo", indexVersionId := "v1" }, "caller", some "key", "run_0"⟩
  | 1 => ⟨{ repoId := "repo", indexVersionId := "v2" }, "caller", some "key", "run_1"⟩
  | 2 => ⟨{ repoId := "repo", indexVersionId := "v1", continuedFromRunId := some "missing" },
    "caller", some "other", "run_2"⟩

instance (runs : RunTable) : Decidable (OneKey runs) :=
  inferInstanceAs (Decidable (∀ r ∈ runs.rows, ∀ r' ∈ runs.rows, _ → _ → _))

instance (s : CreationState (Fin 3)) (i : Fin 3) : Decidable (Referenced sampleCalls s i) :=
  inferInstanceAs (Decidable (_ → _ → _ ∨ _))

theorem truthful_rivals :
    ∃ s, Truthful sampleCalls s ∧ s.points 1 = .ended .idempotencyKeyConflict := by
  have hone : OneKey Table.empty := by decide
  have hrun : (machine sampleCalls).Run (Referenced sampleCalls) ⟨.empty, fun _ => .started⟩
      [0, 1, 0, 1, 1] _ := Machine.run_total _ (by decide +kernel)
  exact ⟨_, truthful_of_referenced hone hrun, by decide +kernel⟩

/-- A call that continues an unknown run ends with a conflict about its key, which no run has. -/
theorem not_truthful_unknown_run :
    ∃ order s, (machine sampleCalls).Run Machine.Free ⟨.empty, fun _ => .started⟩ order s ∧
      ¬ Truthful sampleCalls s := by
  refine ⟨[2, 2, 2], _, Machine.run_total _ rfl, fun h => ?_⟩
  obtain ⟨run, hrun, -⟩ := (h.conflict 2 .idempotencyKeyConflict (by decide +kernel)).mp rfl
  exact List.not_mem_nil (show run ∈ [] from hrun)

end CodeResearch.Research.Creation
