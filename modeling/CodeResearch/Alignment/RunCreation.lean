import CodeResearch.Alignment.Schemas

/-!
# Creation of alignment runs

`create_run` looks for a recorded key, for a run to reuse and for the run it retries in reads
of its own, and inserts last, so that other calls and the processing of runs fall between
them. A digest stands for what it is computed from.
-/
namespace CodeResearch.Alignment.Creation

open DomainJobs (AlignmentStatus)

structure RunIdentity where
  repoId : String
  indexVersionId : String
  paperId : String
  inputHash : String
  modelProfileId : String
  deriving DecidableEq

/-- `run_id`, which does not read the model profile. -/
structure RunId where
  repoId : String
  indexVersionId : String
  paperId : String
  inputHash : String
  attempt : ℕ
  deriving DecidableEq

def RunIdentity.runId (i : RunIdentity) (attempt : ℕ) : RunId :=
  ⟨i.repoId, i.indexVersionId, i.paperId, i.inputHash, attempt⟩

structure AlignmentRunRow where
  runId : RunId
  identity : RunIdentity
  attemptNumber : ℕ
  retryOfRunId : Option RunId
  request : String
  callerScope : String
  idempotencyKey : Option String
  status : AlignmentStatus
  deriving DecidableEq

abbrev RunTable := Table AlignmentRunRow.runId

def AlignmentRunRow.key (r : AlignmentRunRow) : Option (String × String) :=
  r.idempotencyKey.map fun key => (r.callerScope, key)

def AlignmentRunRow.Live (r : AlignmentRunRow) : Prop :=
  r.status ∉ [AlignmentStatus.failed, .cancelled]

instance (r : AlignmentRunRow) : Decidable r.Live := inferInstanceAs (Decidable (¬ _))

structure CreateCall where
  identity : RunIdentity
  request : String
  callerScope : String
  idempotencyKey : Option String := none
  retryOfRunId : Option RunId := none
  deriving DecidableEq

/-- `str.strip`. -/
def strip (text : String) : String :=
  String.ofList (((text.toList.dropWhile fun c => isSpace c).reverse.dropWhile
    fun c => isSpace c).reverse)

/-- `caller_scope.strip() or "anonymous"`. -/
@[irreducible] def scopeOf (callerScope : String) : String :=
  if strip callerScope = "" then "anonymous" else strip callerScope

def CreateCall.key (c : CreateCall) : Option (String × String) :=
  (c.idempotencyKey.filter (· ≠ "")).map fun key => (scopeOf c.callerScope, key)

inductive CreateError
  | idempotencyKeyConflict | runNotFound | retryNotAllowed | retryIdentityMismatch
  /-- `alignment_run_conflict`, which is retryable -/
  | runConflict
  deriving DecidableEq

inductive CreateOutcome
  | returned (run : AlignmentRunRow) (reused : Bool)
  | raised (error : CreateError)
  deriving DecidableEq

/-- Where a call of `create_run` stands. -/
inductive CreatePoint
  | started | unrecorded | unreused
  | numbered (attempt : ℕ)
  | refused
  | ended (outcome : CreateOutcome)
  deriving DecidableEq

variable (runs : RunTable)

/-- `_idempotent`. -/
def idempotent (c : CreateCall) : Option AlignmentRunRow :=
  c.key.bind fun key => runs.rows.find? fun r => r.key = some key

/-- `find_successful`. -/
def findSuccessful (i : RunIdentity) : Option AlignmentRunRow :=
  let first := fun status : AlignmentStatus =>
    runs.rows.find? fun r => r.identity = i ∧ r.status = status
  (first .active).or ((first .ready).or (first .superseded))

def CreateCall.newRun (c : CreateCall) (attempt : ℕ) : AlignmentRunRow where
  runId := c.identity.runId attempt
  identity := c.identity
  attemptNumber := attempt
  retryOfRunId := c.retryOfRunId
  request := c.request
  callerScope := scopeOf c.callerScope
  idempotencyKey := c.idempotencyKey.filter (· ≠ "")
  status := .queued

/-- The insertion, which its primary key, the index on keys or the reference to the retried
run may refuse. -/
def insertRun (r : AlignmentRunRow) : Option RunTable :=
  if (r.key ≠ none ∧ ∃ other ∈ runs.rows, other.key = r.key) ∨
      ∃ parent ∈ r.retryOfRunId, runs.find? parent = none then none
  else runs.insert r

/-- One statement of `create_run`. -/
def CreateCall.next (c : CreateCall) : CreatePoint → RunTable × CreatePoint
  | .started => (runs, match idempotent runs c with
    | some row => .ended (if row.request = c.request then .returned row true
        else .raised .idempotencyKeyConflict)
    | none => .unrecorded)
  | .unrecorded => (runs, match findSuccessful runs c.identity with
    | some row => .ended (.returned row true)
    | none => .unreused)
  | .unreused => (runs, match c.retryOfRunId with
    | none => .numbered 1
    | some parentId => match runs.find? parentId with
      | none => .ended (.raised .runNotFound)
      | some parent =>
        if parent.Live then .ended (.raised .retryNotAllowed)
        else if parent.identity ≠ c.identity then .ended (.raised .retryIdentityMismatch)
        else .numbered (parent.attemptNumber + 1))
  | .numbered attempt => match insertRun runs (c.newRun attempt) with
    | some inserted => (inserted, .ended (.returned (c.newRun attempt) false))
    | none => (runs, .refused)
  | .refused => (runs, match idempotent runs c with
    | some row => .ended (if row.request = c.request then .returned row true
        else .raised .runConflict)
    | none => .ended (.raised .runConflict))
  | .ended outcome => (runs, .ended outcome)

/-- `create_run` without other transactions between its statements. -/
def createRun (c : CreateCall) : RunTable × CreatePoint :=
  (fun s : RunTable × CreatePoint => c.next s.1 s.2)^[5] (runs, .started)

/-- What a call decided, and the runs that it decided on. -/
structure Decision where
  call : CreateCall
  outcome : CreateOutcome
  before : RunTable

def CreatePoint.decisions (c : CreateCall) (before : RunTable) : CreatePoint → List Decision
  | .ended outcome => [⟨c, outcome, before⟩]
  | _ => []

structure CreationState where
  runs : RunTable := Table.empty
  calls : List (CreateCall × CreatePoint) := []
  decided : List Decision := []

inductive CreationLabel
  | begin (c : CreateCall)
  | advance (k : ℕ)
  /-- `update_status` of the stages, to a status that is not a successful one -/
  | updateStatus (id : RunId) (status : AlignmentStatus) (allowedFrom : List AlignmentStatus)
  /-- `mark_ready_and_activate` -/
  | activate (id : RunId)
  deriving DecidableEq

def successful : List AlignmentStatus := [.ready, .active, .superseded]

def AlignmentRunRow.activated (r run : AlignmentRunRow) : AlignmentRunRow :=
  if r.runId = run.runId then { r with status := .active }
  else if r.identity.repoId = run.identity.repoId ∧
      r.identity.indexVersionId = run.identity.indexVersionId ∧
      r.identity.paperId = run.identity.paperId ∧
      r.identity.modelProfileId = run.identity.modelProfileId ∧ r.status = .active then
    { r with status := .superseded }
  else r

def RunTable.activate (run : AlignmentRunRow) : RunTable :=
  runs.mapRows (fun r => r.activated run) (by
    intro r
    unfold AlignmentRunRow.activated
    split_ifs <;> rfl)

def RunTable.updateStatus (id : RunId) (status : AlignmentStatus)
    (allowedFrom : List AlignmentStatus) : RunTable :=
  runs.updateWhere (fun r => r.runId = id ∧ r.status ∈ allowedFrom) (fun r => { r with status })
    fun _ => rfl

def CreationState.step (s : CreationState) : CreationLabel → Option CreationState
  | .begin c => some { s with calls := s.calls ++ [(c, .started)] }
  | .advance k => s.calls[k]?.bind fun (c, point) =>
    if point.decisions c s.runs = [] then
      let next := (c.next s.runs point).2
      some { runs := (c.next s.runs point).1, calls := s.calls.set k (c, next)
             decided := s.decided ++ next.decisions c s.runs }
    else none
  | .updateStatus id status allowedFrom =>
    if status ∈ successful then none
    else some { s with runs := s.runs.updateStatus id status allowedFrom }
  | .activate id => (s.runs.find? id).bind fun run =>
    if run.status ∈ [AlignmentStatus.scoring, .verifying, .ready] ∧
        ∀ r ∈ s.runs.rows, r.identity = run.identity → r.status ∈ successful → r.runId = id then
      some { s with runs := s.runs.activate run }
    else none

def machine : Machine CreationState CreationLabel := ⟨CreationState.step⟩

def nextAttempt (i : RunIdentity) : ℕ :=
  ((runs.rows.filter fun r => r.identity = i).map AlignmentRunRow.attemptNumber).foldr max 0 + 1

/-- A call is answered by the run of its key, by a live run of its identity, or by a new run
with the next attempt number. Nothing is raised but a key taken by another request, and a
conflict after which the call returns when it is repeated. -/
def Decision.Progresses (d : Decision) : Prop :=
  match d.outcome with
  | .returned row true => row ∈ d.before.rows ∧
      (idempotent d.before d.call = some row ∧ row.request = d.call.request ∨
        idempotent d.before d.call = none ∧ row.identity = d.call.identity ∧ row.Live)
  | .returned row false => idempotent d.before d.call = none ∧ row.identity = d.call.identity ∧
      (∀ r ∈ d.before.rows, r.identity = d.call.identity → ¬ r.Live) ∧
      row.attemptNumber = nextAttempt d.before d.call.identity ∧ row.status = .queued ∧
      d.before.find? row.runId = none
  | .raised .idempotencyKeyConflict => ∃ row, idempotent d.before d.call = some row ∧
      row.request ≠ d.call.request
  | .raised .runConflict => ∃ run reused,
      (createRun d.before d.call).2 = .ended (.returned run reused)
  | .raised _ => False

def Decision.Agrees (d e : Decision) : Prop :=
  d.call.key ≠ none → e.call.key = d.call.key → ∀ row reused, d.outcome = .returned row reused →
    (e.call.request = d.call.request →
      ∃ row' reused', e.outcome = .returned row' reused' ∧ row'.runId = row.runId) ∧
    (e.call.request ≠ d.call.request → e.outcome = .raised .idempotencyKeyConflict)

structure CreationState.Sound (s : CreationState) : Prop where
  progresses : ∀ d ∈ s.decided, d.Progresses
  agrees : s.decided.Pairwise Decision.Agrees

/-- A call with a key finds no run to reuse. A call names as its retried run, if any, a run
of its identity that failed or was cancelled. When a call inserts, its identity has no live
run and its attempt is the next one, under a free id, or its key was taken for the same
request. -/
def CreateCall.Spares (c : CreateCall) : CreatePoint → Prop
  | .unrecorded => c.key = none ∨ findSuccessful runs c.identity = none
  | .unreused => ∀ parentId ∈ c.retryOfRunId, ∃ parent ∈ runs.find? parentId,
      ¬ parent.Live ∧ parent.identity = c.identity
  | .numbered attempt =>
    (∃ row ∈ idempotent runs c, row.request = c.request) ∨
      idempotent runs c = none ∧ (∀ r ∈ runs.rows, r.identity = c.identity → ¬ r.Live) ∧
      attempt = nextAttempt runs c.identity ∧ runs.find? (c.identity.runId attempt) = none
  | _ => True

def CreationState.Spares (s : CreationState) : CreationLabel → Prop
  | .advance k => ∀ call ∈ s.calls[k]?, call.1.Spares s.runs call.2
  | _ => True

instance (c : CreateCall) (point : CreatePoint) : Decidable (c.Spares runs point) := by
  cases point <;> unfold CreateCall.Spares <;> infer_instance

instance (s : CreationState) (label : CreationLabel) : Decidable (s.Spares label) := by
  cases label <;> unfold CreationState.Spares <;> infer_instance

variable {runs} {c : CreateCall} {row : AlignmentRunRow}

def OneKey (runs : RunTable) : Prop :=
  ∀ r ∈ runs.rows, ∀ r' ∈ runs.rows, r.key ≠ none → r.key = r'.key → r = r'

theorem idempotent_some (h : idempotent runs c = some row) :
    row ∈ runs.rows ∧ row.key = c.key ∧ c.key ≠ none := by
  obtain ⟨key, hkey, hfind⟩ := Option.bind_eq_some_iff.mp h
  have hrow : row.key = some key := by simpa using List.find?_some hfind
  exact ⟨List.mem_of_find?_eq_some hfind, hrow.trans hkey.symm, by simp [hkey]⟩

theorem idempotent_of_mem (hone : OneKey runs) (hmem : row ∈ runs.rows) (hkey : row.key = c.key)
    (hsome : c.key ≠ none) : idempotent runs c = some row := by
  obtain ⟨key, hc⟩ := Option.ne_none_iff_exists'.mp hsome
  have hfound : (runs.rows.find? fun r => r.key = some key).isSome :=
    List.find?_isSome.mpr ⟨row, hmem, by simp [hkey, hc]⟩
  obtain ⟨found, hfind⟩ := Option.isSome_iff_exists.mp hfound
  have hcall : idempotent runs c = some found := by
    unfold idempotent
    rw [hc]
    exact hfind
  obtain ⟨hmem', hkey', _⟩ := idempotent_some hcall
  rw [hcall, hone found hmem' row hmem (hkey' ▸ hsome) (hkey'.trans hkey.symm)]

theorem findSuccessful_some {i : RunIdentity} (h : findSuccessful runs i = some row) :
    row ∈ runs.rows ∧ row.identity = i ∧ row.Live := by
  have hfirst : ∀ status ∈ successful, ∀ found, (runs.rows.find? fun r =>
      r.identity = i ∧ r.status = status) = some found →
        found ∈ runs.rows ∧ found.identity = i ∧ found.Live := by
    intro status hstatus found hfind
    obtain ⟨hidentity, hfound⟩ : found.identity = i ∧ found.status = status := by
      simpa using List.find?_some hfind
    refine ⟨List.mem_of_find?_eq_some hfind, hidentity, ?_⟩
    unfold AlignmentRunRow.Live
    rw [hfound]
    revert hstatus
    cases status <;> decide
  unfold findSuccessful at h
  dsimp only at h
  rcases Option.or_eq_some_iff.mp h with hactive | ⟨_, hrest⟩
  · exact hfirst .active (by decide) row hactive
  · rcases Option.or_eq_some_iff.mp hrest with hready | ⟨_, hsuperseded⟩
    · exact hfirst .ready (by decide) row hready
    · exact hfirst .superseded (by decide) row hsuperseded

theorem key_newRun (c : CreateCall) (attempt : ℕ) : (c.newRun attempt).key = c.key := rfl

variable {inserted : RunTable} {f : AlignmentRunRow → AlignmentRunRow} {d : Decision} {k : ℕ}

theorem insertRun_some (h : insertRun runs row = some inserted) :
    inserted.rows = runs.rows ++ [row] ∧ runs.find? row.runId = none ∧
      (row.key ≠ none → ∀ other ∈ runs.rows, other.key ≠ row.key) := by
  unfold insertRun at h
  split_ifs at h with hrefused
  have hfree : row.key ≠ none → ∀ other ∈ runs.rows, other.key ≠ row.key :=
    fun hkey other hother hsame => hrefused (.inl ⟨hkey, other, hother, hsame⟩)
  exact ⟨Table.rows_insert h, runs.find?_eq_none_iff.mpr (Table.insert_fresh h), hfree⟩

theorem insertRun_taken (h : idempotent runs c = some row) (attempt : ℕ) :
    insertRun runs (c.newRun attempt) = none := by
  obtain ⟨hmem, hkey, hsome⟩ := idempotent_some h
  exact if_pos (.inl ⟨hsome, row, hmem, hkey⟩)

/-- Nothing but a taken key, a taken id or a missing parent refuses an insertion. -/
theorem exists_insertRun {attempt : ℕ} (hone : OneKey runs) (hkey : idempotent runs c = none)
    (hparent : ∀ id ∈ c.retryOfRunId, runs.find? id ≠ none)
    (hid : runs.find? (c.identity.runId attempt) = none) :
    ∃ inserted, insertRun runs (c.newRun attempt) = some inserted := by
  have hopen : ¬ (((c.newRun attempt).key ≠ none ∧
      ∃ other ∈ runs.rows, other.key = (c.newRun attempt).key) ∨
        ∃ parent ∈ (c.newRun attempt).retryOfRunId, runs.find? parent = none) := by
    rintro (⟨hsome, other, hother, hsame⟩ | ⟨parent, hmem, hnone⟩)
    · rw [idempotent_of_mem hone hother hsame hsome] at hkey
      exact absurd hkey (by simp)
    · exact hparent parent hmem hnone
  unfold insertRun
  rw [if_neg hopen]
  exact Table.exists_insert (runs.find?_eq_none_iff.mp hid)

def Keeps (runs runs' : RunTable) : Prop :=
  ∀ r ∈ runs.rows, ∃ r' ∈ runs'.rows,
    r'.runId = r.runId ∧ r'.key = r.key ∧ r'.request = r.request

variable {runs' : RunTable}

theorem Keeps.refl (runs : RunTable) : Keeps runs runs := fun r hr => ⟨r, hr, rfl, rfl, rfl⟩

theorem Keeps.idempotent (h : Keeps runs runs') (hone : OneKey runs')
    (hrow : idempotent runs c = some row) :
    ∃ row', Creation.idempotent runs' c = some row' ∧ row'.runId = row.runId ∧
      row'.request = row.request := by
  obtain ⟨hmem, hkey, hsome⟩ := idempotent_some hrow
  obtain ⟨row', hmem', hid, hkey', hrequest⟩ := h row hmem
  exact ⟨row', idempotent_of_mem hone hmem' (hkey'.trans hkey) hsome, hid, hrequest⟩

theorem Keeps.find? (h : Keeps runs runs') {id : RunId} (hid : runs.find? id ≠ none) :
    runs'.find? id ≠ none := by
  obtain ⟨row, hrow⟩ := Option.ne_none_iff_exists'.mp hid
  obtain ⟨row', hmem', hid', _⟩ := h row (Table.find?_mem hrow)
  have hfound := Table.find?_of_mem hmem'
  rw [hid', Table.find?_key hrow] at hfound
  simp [hfound]

theorem keeps_of_rows_append (h : inserted.rows = runs.rows ++ [row]) : Keeps runs inserted :=
  fun r hr => ⟨r, h ▸ List.mem_append_left _ hr, rfl, rfl, rfl⟩

theorem keeps_mapRows (hid : ∀ r, (f r).runId = r.runId) (hkey : ∀ r, (f r).key = r.key)
    (hrequest : ∀ r, (f r).request = r.request) : Keeps runs (runs.mapRows f hid) :=
  fun r hr => ⟨f r, List.mem_map_of_mem hr, hid r, hkey r, hrequest r⟩

theorem OneKey.mapRows (h : OneKey runs)
    (hid : ∀ r, (f r).runId = r.runId) (hkey : ∀ r, (f r).key = r.key) :
    OneKey (runs.mapRows f hid) := by
  intro r hr r' hr' hsome hsame
  obtain ⟨a, ha, rfl⟩ := List.mem_map.mp hr
  obtain ⟨b, hb, rfl⟩ := List.mem_map.mp hr'
  rw [hkey] at hsome
  rw [hkey, hkey] at hsame
  rw [h a ha b hb hsome hsame]

theorem OneKey.insertRun (h : OneKey runs)
    (hinsert : insertRun runs row = some inserted) : OneKey inserted := by
  obtain ⟨hrows, _, hfree⟩ := insertRun_some hinsert
  intro r hr r' hr' hsome hsame
  rw [hrows, List.mem_append, List.mem_singleton] at hr hr'
  rcases hr with hr | rfl <;> rcases hr' with hr' | rfl
  · exact h r hr r' hr' hsome hsame
  · exact absurd hsame (hfree (hsame ▸ hsome) r hr)
  · exact absurd hsame.symm (hfree hsome r' hr')
  · rfl

/-- A decision under the condition: nothing but a taken key is raised, and a call with a key
gets the run of that key. -/
def Decision.Settled (d : Decision) : Prop :=
  match d.outcome with
  | .returned row true =>
    idempotent d.before d.call = some row ∧ row.request = d.call.request ∨
      d.call.key = none ∧ row ∈ d.before.rows ∧ row.identity = d.call.identity ∧ row.Live
  | .returned row false => idempotent d.before d.call = none ∧
      (∀ r ∈ d.before.rows, r.identity = d.call.identity → ¬ r.Live) ∧
      row = d.call.newRun (nextAttempt d.before d.call.identity) ∧
      d.before.find? row.runId = none
  | .raised .idempotencyKeyConflict => ∃ row, idempotent d.before d.call = some row ∧
      row.request ≠ d.call.request
  | .raised _ => False

theorem idempotent_of_key_none (h : c.key = none) : idempotent runs c = none := by
  unfold idempotent
  rw [h]
  rfl

theorem idempotent_congr {c' : CreateCall} (h : c.key = c'.key) :
    idempotent runs c = idempotent runs c' := by
  unfold idempotent
  rw [h]

theorem Decision.Settled.progresses (h : d.Settled) : d.Progresses := by
  obtain ⟨call, outcome, before⟩ := d
  match outcome, h with
  | .returned row true, .inl ⟨hsome, hrequest⟩ =>
    exact ⟨(idempotent_some hsome).1, .inl ⟨hsome, hrequest⟩⟩
  | .returned row true, .inr ⟨hkey, hmem, hidentity, hlive⟩ =>
    exact ⟨hmem, .inr ⟨idempotent_of_key_none hkey, hidentity, hlive⟩⟩
  | .returned row false, ⟨hnone, hdead, hrow, hfresh⟩ =>
    refine ⟨hnone, ?_, hdead, ?_, ?_, hfresh⟩ <;> rw [hrow] <;> rfl
  | .raised .idempotencyKeyConflict, h => exact h

/-- What the calls that stand at an insertion have found. -/
structure CreateCall.Prepared (runs : RunTable) (c : CreateCall) (point : CreatePoint) : Prop where
  retried : ∀ attempt, point = .numbered attempt → ∀ id ∈ c.retryOfRunId, runs.find? id ≠ none
  refused : point = .refused → ∃ r, idempotent runs c = some r ∧ r.request = c.request

variable {point : CreatePoint}

theorem keeps_next (hone : OneKey runs) (c : CreateCall) (point : CreatePoint) :
    Keeps runs (c.next runs point).1 ∧ OneKey (c.next runs point).1 := by
  cases point with
  | numbered attempt =>
    simp only [CreateCall.next]
    cases hinsert : insertRun runs (c.newRun attempt) with
    | none => exact ⟨Keeps.refl runs, hone⟩
    | some inserted =>
      exact ⟨keeps_of_rows_append (insertRun_some hinsert).1, hone.insertRun hinsert⟩
  | _ => exact ⟨Keeps.refl runs, hone⟩

theorem prepared_next (hone : OneKey runs) (hspares : c.Spares runs point)
    (hprepared : c.Prepared runs point) : c.Prepared (c.next runs point).1 (c.next runs point).2 := by
  cases point with
  | started | refused =>
    simp only [CreateCall.next]
    cases idempotent runs c <;> exact ⟨nofun, nofun⟩
  | unrecorded =>
    simp only [CreateCall.next]
    cases findSuccessful runs c.identity <;> exact ⟨nofun, nofun⟩
  | unreused =>
    refine ⟨fun attempt _ id hid => ?_, fun hrefused => ?_⟩
    · obtain ⟨parent, hparent, _⟩ := hspares id hid
      exact Option.ne_none_iff_exists'.mpr ⟨parent, hparent⟩
    · simp only [CreateCall.next] at hrefused
      split at hrefused
      · cases hrefused
      · split at hrefused
        · cases hrefused
        · split_ifs at hrefused
  | numbered attempt =>
    simp only [CreateCall.next]
    cases hinsert : insertRun runs (c.newRun attempt) with
    | some inserted => exact ⟨nofun, nofun⟩
    | none =>
      refine ⟨nofun, fun _ => ?_⟩
      rcases hspares with htaken | ⟨hnone, _, _, hfresh⟩
      · exact htaken
      · obtain ⟨inserted, hsome⟩ :=
          exists_insertRun hone hnone (hprepared.retried attempt rfl) hfresh
        rw [hinsert] at hsome
        cases hsome
  | ended outcome => exact ⟨nofun, nofun⟩

/-- What a call decides under the condition. -/
theorem settled_next (hspares : c.Spares runs point) (hprepared : c.Prepared runs point)
    (hopen : ∀ outcome, point ≠ .ended outcome) {outcome : CreateOutcome}
    (hended : (c.next runs point).2 = .ended outcome) :
    Decision.Settled ⟨c, outcome, runs⟩ := by
  cases point with
  | started =>
    simp only [CreateCall.next] at hended
    cases hrow : idempotent runs c with
    | none => simp [hrow] at hended
    | some row =>
      simp only [hrow, CreatePoint.ended.injEq] at hended
      subst hended
      split_ifs with hrequest
      · exact .inl ⟨hrow, hrequest⟩
      · exact ⟨row, hrow, hrequest⟩
  | unrecorded =>
    simp only [CreateCall.next] at hended
    cases hrow : findSuccessful runs c.identity with
    | none => simp [hrow] at hended
    | some row =>
      simp only [hrow, CreatePoint.ended.injEq] at hended
      subst hended
      rcases hspares with hkey | hnone
      · exact .inr ⟨hkey, findSuccessful_some hrow⟩
      · rw [hrow] at hnone
        cases hnone
  | unreused =>
    simp only [CreateCall.next] at hended
    cases hretry : c.retryOfRunId with
    | none => simp [hretry] at hended
    | some parentId =>
      obtain ⟨parent, hparent, hdead, hidentity⟩ := hspares parentId hretry
      simp [hretry, Option.mem_def.mp hparent, hdead, hidentity] at hended
  | numbered attempt =>
    simp only [CreateCall.next] at hended
    cases hinsert : insertRun runs (c.newRun attempt) with
    | none => simp [hinsert] at hended
    | some inserted =>
      simp only [hinsert, CreatePoint.ended.injEq] at hended
      subst hended
      rcases hspares with ⟨row, htaken, _⟩ | ⟨hnone, hdead, rfl, hfresh⟩
      · rw [insertRun_taken htaken] at hinsert
        cases hinsert
      · exact ⟨hnone, hdead, rfl, hfresh⟩
  | refused =>
    obtain ⟨row, hrow, hrequest⟩ := hprepared.refused rfl
    simp only [CreateCall.next, hrow, hrequest, if_pos, CreatePoint.ended.injEq] at hended
    subst hended
    exact .inl ⟨hrow, hrequest⟩
  | ended outcome => exact absurd rfl (hopen outcome)

theorem inserted_next (hopen : ∀ outcome, point ≠ .ended outcome)
    (hended : (c.next runs point).2 = .ended (.returned row false)) :
    row ∈ (c.next runs point).1.rows ∧ row.key = c.key ∧ row.request = c.request := by
  cases point with
  | numbered attempt =>
    simp only [CreateCall.next] at hended ⊢
    cases hinsert : insertRun runs (c.newRun attempt) with
    | none => simp [hinsert] at hended
    | some inserted =>
      simp only [hinsert, CreatePoint.ended.injEq, CreateOutcome.returned.injEq] at hended
      obtain ⟨rfl, -⟩ := hended
      exact ⟨by simp [(insertRun_some hinsert).1], key_newRun c attempt, rfl⟩
  | started | refused =>
    simp only [CreateCall.next] at hended
    cases hrow : idempotent runs c with
    | none => simp [hrow] at hended
    | some found =>
      simp only [hrow, CreatePoint.ended.injEq] at hended
      split_ifs at hended
      cases hended
  | unrecorded =>
    simp only [CreateCall.next] at hended
    cases hrow : findSuccessful runs c.identity <;> simp [hrow] at hended
  | unreused =>
    simp only [CreateCall.next] at hended
    split at hended
    · cases hended
    · split at hended
      · cases hended
      · split_ifs at hended <;> cases hended
  | ended outcome => exact absurd rfl (hopen outcome)

/-- The run that a call with a key returns is recorded under its key. -/
theorem recorded_next (hone : OneKey runs) (hspares : c.Spares runs point)
    (hprepared : c.Prepared runs point) (hopen : ∀ outcome, point ≠ .ended outcome)
    (hkey : c.key ≠ none) {reused : Bool}
    (hended : (c.next runs point).2 = .ended (.returned row reused)) :
    ∃ r, idempotent (c.next runs point).1 c = some r ∧ r.runId = row.runId ∧
      r.request = c.request := by
  obtain ⟨hkeeps, hone'⟩ := keeps_next hone c point
  have hsettled := settled_next hspares hprepared hopen hended
  cases reused with
  | true =>
    rcases hsettled with ⟨hrow, hrequest⟩ | ⟨hnone, _⟩
    · obtain ⟨r, hr, hid, hsame⟩ := hkeeps.idempotent hone' hrow
      exact ⟨r, hr, hid, hsame.trans hrequest⟩
    · exact absurd hnone hkey
  | false =>
    obtain ⟨hmem, hrow, hrequest⟩ := inserted_next hopen hended
    exact ⟨row, idempotent_of_mem hone' hmem hrow hkey, rfl, hrequest⟩

structure CreationState.Inv (s : CreationState) : Prop where
  oneKey : OneKey s.runs
  prepared : ∀ c point, (c, point) ∈ s.calls → c.Prepared s.runs point
  recorded : ∀ d ∈ s.decided, d.call.key ≠ none → ∀ row reused,
    d.outcome = .returned row reused → ∃ r, idempotent s.runs d.call = some r ∧
      r.runId = row.runId ∧ r.request = d.call.request
  sound : s.Sound

theorem CreateCall.Prepared.keeps (h : c.Prepared runs point) (hkeeps : Keeps runs runs')
    (hone : OneKey runs') : c.Prepared runs' point := by
  refine ⟨fun attempt hpoint id hid => hkeeps.find? (h.retried attempt hpoint id hid),
    fun hpoint => ?_⟩
  obtain ⟨r, hr, hrequest⟩ := h.refused hpoint
  obtain ⟨r', hr', _, hsame⟩ := hkeeps.idempotent hone hr
  exact ⟨r', hr', hsame.trans hrequest⟩

theorem recorded_keeps {decided : List Decision} (hkeeps : Keeps runs runs')
    (hone : OneKey runs')
    (h : ∀ d ∈ decided, d.call.key ≠ none → ∀ row reused, d.outcome = .returned row reused →
      ∃ r, idempotent runs d.call = some r ∧ r.runId = row.runId ∧ r.request = d.call.request) :
    ∀ d ∈ decided, d.call.key ≠ none → ∀ row reused, d.outcome = .returned row reused →
      ∃ r, idempotent runs' d.call = some r ∧ r.runId = row.runId ∧
        r.request = d.call.request := by
  intro d hd hkey row reused houtcome
  obtain ⟨r, hr, hid, hrequest⟩ := h d hd hkey row reused houtcome
  obtain ⟨r', hr', hid', hrequest'⟩ := hkeeps.idempotent hone hr
  exact ⟨r', hr', hid'.trans hid, hrequest'.trans hrequest⟩

/-- A decision agrees with the earlier ones whose runs are recorded. -/
theorem agrees_of_settled {e : Decision}
    (hd : d.call.key ≠ none → ∀ row reused, d.outcome = .returned row reused →
      ∃ r, idempotent e.before d.call = some r ∧ r.runId = row.runId ∧
        r.request = d.call.request) (he : e.Settled) : d.Agrees e := by
  intro hkey hsame row reused houtcome
  obtain ⟨r, hr, hid, hrequest⟩ := hd hkey row reused houtcome
  rw [← idempotent_congr hsame] at hr
  obtain ⟨call, outcome, before⟩ := e
  have hsome : idempotent before call ≠ none := by simp [show idempotent before call = some r from hr]
  match outcome, he with
  | .returned row' true, .inl ⟨hrow', hrequest'⟩ =>
    obtain rfl : r = row' := Option.some.inj (hr.symm.trans hrow')
    exact ⟨fun _ => ⟨r, true, rfl, hid⟩,
      fun hdiffer => absurd (hrequest'.symm.trans hrequest) hdiffer⟩
  | .returned row' true, .inr ⟨hnone, _⟩ => exact absurd (hsame.symm.trans hnone) hkey
  | .returned row' false, ⟨hnone, _⟩ => exact absurd hnone hsome
  | .raised .idempotencyKeyConflict, ⟨row', hrow', hdiffer⟩ =>
    obtain rfl : r = row' := Option.some.inj (hr.symm.trans hrow')
    exact ⟨fun hequal => absurd (hrequest.trans hequal.symm) hdiffer, fun _ => rfl⟩

theorem mem_decisions {before : RunTable} :
    d ∈ point.decisions c before ↔ point = .ended d.outcome ∧ d.call = c ∧ d.before = before := by
  obtain ⟨call, outcome, runs⟩ := d
  cases point <;> simp [CreatePoint.decisions]
  tauto

variable {s t : CreationState}

theorem advance_cases (h : s.step (.advance k) = some t) :
    ∃ c point, s.calls[k]? = some (c, point) ∧ (∀ outcome, point ≠ .ended outcome) ∧
      t.runs = (c.next s.runs point).1 ∧
      t.calls = s.calls.set k (c, (c.next s.runs point).2) ∧
      t.decided = s.decided ++ (c.next s.runs point).2.decisions c s.runs := by
  obtain ⟨⟨c, point⟩, hcall, hnext⟩ := Option.bind_eq_some_iff.mp h
  dsimp only at hnext
  split_ifs at hnext with hopen
  cases hnext
  refine ⟨c, point, hcall, fun outcome hended => ?_, rfl, rfl, rfl⟩
  rw [hended] at hopen
  cases hopen

theorem CreationState.Inv.keeps (h : s.Inv) (hkeeps : Keeps s.runs t.runs)
    (hone : OneKey t.runs) (hcalls : ∀ c point, (c, point) ∈ t.calls →
      (c, point) ∈ s.calls ∨ point = .started) (hdecided : t.decided = s.decided) : t.Inv := by
  refine ⟨hone, fun c point hcall => ?_, ?_, ?_⟩
  · rcases hcalls c point hcall with hcall | rfl
    · exact (h.prepared c point hcall).keeps hkeeps hone
    · exact ⟨nofun, nofun⟩
  · rw [hdecided]
    exact recorded_keeps hkeeps hone h.recorded
  · exact ⟨hdecided ▸ h.sound.progresses, hdecided ▸ h.sound.agrees⟩

theorem CreationState.Inv.advance (h : s.Inv) (hspares : s.Spares (.advance k))
    (hstep : s.step (.advance k) = some t) : t.Inv := by
  obtain ⟨c, point, hcall, hopen, hruns, hcalls, hdecided⟩ := advance_cases hstep
  have hspares : c.Spares s.runs point := hspares (c, point) hcall
  have hprepared := h.prepared c point (List.mem_of_getElem? hcall)
  obtain ⟨hkeeps, hone⟩ := keeps_next h.oneKey c point
  rw [← hruns] at hkeeps hone
  have hnew : ∀ d ∈ (c.next s.runs point).2.decisions c s.runs, d.Settled ∧ d.before = s.runs := by
    intro d hd
    obtain ⟨hended, rfl, hbefore⟩ := mem_decisions.mp hd
    have hsettled := settled_next hspares hprepared hopen hended
    rw [← hbefore] at hsettled
    exact ⟨hsettled, hbefore⟩
  refine ⟨hone, ?prepared, ?recorded, ?progresses, ?agrees⟩
  case prepared =>
    intro c' point' hmem
    rw [hcalls] at hmem
    rcases List.mem_or_eq_of_mem_set hmem with hmem | hsame
    · exact (h.prepared c' point' hmem).keeps hkeeps hone
    · cases hsame
      rw [hruns]
      exact prepared_next h.oneKey hspares hprepared
  case recorded =>
    rw [hdecided]
    intro d hd hkey row reused houtcome
    rcases List.mem_append.mp hd with hd | hd
    · exact recorded_keeps hkeeps hone h.recorded d hd hkey row reused houtcome
    · obtain ⟨hended, rfl, _⟩ := mem_decisions.mp hd
      rw [houtcome] at hended
      rw [hruns]
      exact recorded_next h.oneKey hspares hprepared hopen hkey hended
  case progresses =>
    rw [hdecided]
    intro d hd
    rcases List.mem_append.mp hd with hd | hd
    · exact h.sound.progresses d hd
    · exact (hnew d hd).1.progresses
  case agrees =>
    rw [hdecided, List.pairwise_append]
    refine ⟨h.sound.agrees, ?_, fun d hd e he => ?_⟩
    · cases (c.next s.runs point).2 <;> simp [CreatePoint.decisions]
    · obtain ⟨hsettled, hbefore⟩ := hnew e he
      exact agrees_of_settled (hbefore ▸ h.recorded d hd) hsettled

theorem CreationState.Inv.step (h : s.Inv) {label : CreationLabel} (hspares : s.Spares label)
    (hstep : machine.step s label = some t) : t.Inv := by
  cases label with
  | begin c =>
    cases hstep
    refine h.keeps (Keeps.refl s.runs) h.oneKey (fun c' point hmem => ?_) rfl
    rcases List.mem_append.mp hmem with hmem | hmem
    · exact .inl hmem
    · cases List.mem_singleton.mp hmem
      exact .inr rfl
  | advance k => exact h.advance hspares hstep
  | updateStatus id status allowedFrom =>
    obtain ⟨hfree, hstep⟩ : status ∉ successful ∧
        { s with runs := s.runs.updateStatus id status allowedFrom } = t := by
      simpa [machine, CreationState.step] using hstep
    subst hstep
    have hkeeps : Keeps s.runs (s.runs.updateStatus id status allowedFrom) :=
      keeps_mapRows (fun r => by split_ifs <;> rfl) (fun r => by split_ifs <;> rfl)
        (fun r => by split_ifs <;> rfl)
    have hone : OneKey (s.runs.updateStatus id status allowedFrom) :=
      h.oneKey.mapRows (fun r => by split_ifs <;> rfl) (fun r => by split_ifs <;> rfl)
    exact h.keeps hkeeps hone (fun _ _ hmem => .inl hmem) rfl
  | activate id =>
    obtain ⟨run, _, hrun⟩ := Option.bind_eq_some_iff.mp hstep
    split_ifs at hrun
    cases hrun
    have hsame : ∀ r : AlignmentRunRow, (r.activated run).runId = r.runId ∧
        (r.activated run).key = r.key ∧ (r.activated run).request = r.request := by
      intro r
      unfold AlignmentRunRow.activated
      split_ifs <;> exact ⟨rfl, rfl, rfl⟩
    have hkeeps : Keeps s.runs (s.runs.activate run) :=
      keeps_mapRows (fun r => (hsame r).1) (fun r => (hsame r).2.1) fun r => (hsame r).2.2
    have hone : OneKey (s.runs.activate run) :=
      h.oneKey.mapRows (fun r => (hsame r).1) fun r => (hsame r).2.1
    exact h.keeps hkeeps hone (fun _ _ hmem => .inl hmem) rfl

/-- Where every step meets the condition, every call makes progress and agrees with the
earlier calls under its key. -/
theorem creation_sound {labels : List CreationLabel}
    (hrun : machine.Run CreationState.Spares {} labels s) : s.Sound := by
  have hstart : CreationState.Inv {} :=
    ⟨fun _ hr => absurd hr List.not_mem_nil, fun _ _ hcall => absurd hcall List.not_mem_nil,
      fun _ hd => absurd hd List.not_mem_nil, fun _ hd => absurd hd List.not_mem_nil,
      List.Pairwise.nil⟩
  exact (hrun.invariant CreationState.Inv (fun _ _ _ h hspares hstep => h.step hspares hstep)
    hstart).sound

def demoCall : CreateCall where
  identity := ⟨"repo", "index", "paper", "input", "profile"⟩
  request := "request"
  callerScope := "caller"

def demoRunId : RunId := demoCall.identity.runId 1

def failure : List CreationLabel :=
  [.begin demoCall, .advance 0, .advance 0, .advance 0, .advance 0,
    .updateStatus demoRunId .failed [.queued]]

def retry : List CreationLabel :=
  failure ++ [.begin { demoCall with retryOfRunId := some demoRunId }, .advance 1, .advance 1,
    .advance 1, .advance 1]

/-- The input of a failed run is submitted again, without a reference to it. -/
def resubmission : List CreationLabel :=
  failure ++ [.begin demoCall, .advance 1, .advance 1, .advance 1, .advance 1, .advance 1]

theorem creation_sound_retry :
    ∃ s, machine.exec CreationState.Spares {} retry = some s ∧ s.Sound := by
  have hsome : (machine.exec CreationState.Spares {} retry).isSome := by decide +kernel
  obtain ⟨s, hs⟩ := Option.isSome_iff_exists.mp hsome
  exact ⟨s, hs, creation_sound (Machine.run_of_exec hs)⟩

def RaisesAgain (d : Decision) : Prop :=
  d.outcome = .raised .runConflict ∧ (createRun d.before d.call).1.rows = d.before.rows ∧
    (createRun d.before d.call).2 = .ended (.raised .runConflict)

instance (d : Decision) : Decidable (RaisesAgain d) := inferInstanceAs (Decidable (_ ∧ _ ∧ _))

theorem RaisesAgain.not_progresses (h : RaisesAgain d) : ¬ d.Progresses := by
  obtain ⟨houtcome, _, hagain⟩ := h
  unfold Decision.Progresses
  rw [houtcome]
  rintro ⟨run, reused, hreturns⟩
  rw [hagain] at hreturns
  cases hreturns

theorem resubmission_conflicts :
    ∃ s, machine.exec Machine.Free {} resubmission = some s ∧ ¬ s.Sound := by
  have hconflict : (machine.exec Machine.Free {} resubmission).any fun s =>
      s.decided.any fun d => RaisesAgain d := by decide +kernel
  obtain ⟨s, hs, hany⟩ := (Option.any_eq_true _ _).mp hconflict
  obtain ⟨d, hd, hagain⟩ := List.any_eq_true.mp hany
  exact ⟨s, hs, fun hsound =>
    (of_decide_eq_true hagain).not_progresses (hsound.progresses d hd)⟩

end CodeResearch.Alignment.Creation
