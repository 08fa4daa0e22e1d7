import CodeResearch.ControlPlane.Submission
import CodeResearch.Team.Agreement

/-!
# Concurrent submissions under one key

Local runs each `create_job` under `BEGIN IMMEDIATE`, so concurrent calls come one after
the other. Team looks the key up and inserts in one `READ COMMITTED` transaction: another
call may commit in between, and the unique index then refuses the insertion with an error
that nothing maps.
-/
namespace CodeResearch.Team

open ControlPlane

/-- What a call brings along; all rivals have one workspace and one idempotency key. -/
structure Rival where
  sub : JobSubmission
  ids : JobIds
  now : Timestamp

def Rival.submission (c : Rival) (workspaceId idempotencyKey : String) : JobSubmission :=
  { c.sub with workspaceId := workspaceId, idempotencyKey := idempotencyKey }

def Proper (stored : Option JobRecord) (requestHash : String)
    (answer : Except StoreError CreatedJob) : Prop :=
  ∃ job, stored = some job ∧
    if job.requestHash = requestHash then ∃ c, answer = .ok c ∧ c.job = job
    else answer = .error (.controlPlane "idempotency_key_conflict")

abbrev Answers := ℕ → Option (Except StoreError CreatedJob)

section Hashing

variable (stableHash : String → String) (workspaceId idempotencyKey : String)
  (rivals : ℕ → Rival)

def AllProper (stored : Option JobRecord) (answers : Answers) : Prop :=
  ∀ i a, answers i = some a → Proper stored (stableHash (rivals i).sub.requestJson) a

structure LocalRace where
  store : ControlPlane.Store
  answers : Answers

def LocalRace.stored (r : LocalRace) : Option JobRecord :=
  r.store.findIdempotent workspaceId (stableHash idempotencyKey)

/-- A call that was not answered yet runs its transaction. -/
def LocalRace.step (r : LocalRace) (i : ℕ) : LocalRace :=
  if r.answers i = none then
    let result := ControlPlane.createJob stableHash
      ((rivals i).submission workspaceId idempotencyKey) (rivals i).ids (rivals i).now r.store
    ⟨result.2, Function.update r.answers i (some result.1)⟩
  else r

def LocalRace.ProperAfter (r : LocalRace) (i : ℕ) : Prop :=
  AllProper stableHash rivals
    ((r.step stableHash workspaceId idempotencyKey rivals i).stored stableHash workspaceId
      idempotencyKey)
    (r.step stableHash workspaceId idempotencyKey rivals i).answers

/-- The call that creates the job has a valid record and unused keys. -/
def LocalRace.Admits (r : LocalRace) (i : ℕ) : Prop :=
  r.answers i = none → r.stored stableHash workspaceId idempotencyKey = none →
    r.store.Accepts stableHash ((rivals i).submission workspaceId idempotencyKey) (rivals i).ids
      (rivals i).now

structure TeamRace where
  db : Database
  /-- The calls whose lookup found no job. -/
  missed : ℕ → Bool
  answers : Answers

inductive RaceStep
  /-- The statements up to the lookup of the key, with the answer from the job it finds. -/
  | lookup (i : ℕ)
  /-- The insertions and the commit. -/
  | insert (i : ℕ)

def TeamRace.stored (r : TeamRace) : Option JobRows :=
  r.db.findIdempotent workspaceId (stableHash idempotencyKey)

def TeamRace.step (r : TeamRace) : RaceStep → TeamRace
  | .lookup i =>
    if r.answers i = none ∧ r.missed i = false then
      match r.stored stableHash workspaceId idempotencyKey with
      | some found =>
        let requestJson := (rivals i).sub.requestJson
        { r with
          answers := Function.update r.answers i
            (some (replayJob found requestJson (stableHash requestJson) r.db)) }
      | none => { r with missed := Function.update r.missed i true }
    else r
  | .insert i =>
    if r.answers i = none ∧ r.missed i = true then
      let result := transact r.db <| insertNewJob stableHash
        ((rivals i).submission workspaceId idempotencyKey) (rivals i).ids (rivals i).now r.db
      { r with
        db := result.2
        answers := Function.update r.answers i (some result.1) }
    else r

def TeamRace.ProperAfter (r : TeamRace) (a : RaceStep) : Prop :=
  AllProper stableHash rivals
    (((r.step stableHash workspaceId idempotencyKey rivals a).stored stableHash workspaceId
      idempotencyKey).map fun r => r.job.jobJson)
    (r.step stableHash workspaceId idempotencyKey rivals a).answers

/-- A call that inserts finds that no other call has committed since its lookup, and has a
valid record and unused ids. -/
def TeamRace.Admits (r : TeamRace) : RaceStep → Prop
  | .lookup _ => True
  | .insert i => r.answers i = none → r.missed i = true →
      r.stored stableHash workspaceId idempotencyKey = none ∧
        (newJob stableHash ((rivals i).submission workspaceId idempotencyKey) (rivals i).ids
          (rivals i).now).Valid ∧
        ¬ r.db.Taken (createdRows stableHash
          ((rivals i).submission workspaceId idempotencyKey) (rivals i).ids (rivals i).now)

end Hashing

section Answers

variable {stableHash : String → String} {rivals : ℕ → Rival} {stored : Option JobRecord}
  {answers : Answers} {i : ℕ}

theorem AllProper.update (h : AllProper stableHash rivals stored answers)
    {a : Except StoreError CreatedJob}
    (ha : Proper stored (stableHash (rivals i).sub.requestJson) a) :
    AllProper stableHash rivals stored (Function.update answers i (some a)) := by
  intro k b hb
  rw [Function.update_apply] at hb
  split_ifs at hb with hk
  · cases hb
    rwa [hk]
  · exact h k b hb

theorem AllProper.no_answer (h : AllProper stableHash rivals none answers) (k : ℕ) :
    answers k = none := by
  cases hk : answers k with
  | none => rfl
  | some a =>
    obtain ⟨_, hnone, _⟩ := h k a hk
    cases hnone

/-- The answer to the call that creates the job is the only one. -/
theorem allProper_created (h : AllProper stableHash rivals none answers) {c : CreatedJob}
    (hhash : c.job.requestHash = stableHash (rivals i).sub.requestJson) :
    AllProper stableHash rivals (some c.job) (Function.update answers i (some (.ok c))) := by
  intro k b hb
  rw [Function.update_apply] at hb
  split_ifs at hb with hk
  · cases hb
    subst hk
    refine ⟨c.job, rfl, ?_⟩
    rw [if_pos hhash]
    exact ⟨c, rfl, rfl⟩
  · rw [h.no_answer] at hb
    cases hb

theorem not_allProper_update {a : Except StoreError CreatedJob} :
    ¬ AllProper stableHash rivals none (Function.update answers i (some a)) := by
  intro h
  have hnone := h.no_answer i
  rw [Function.update_self] at hnone
  cases hnone

theorem not_allProper_error {e : StoreError}
    (he : e ≠ .controlPlane "idempotency_key_conflict") :
    ¬ AllProper stableHash rivals stored (Function.update answers i (some (.error e))) := by
  intro h
  obtain ⟨job, _, hanswer⟩ := h i (.error e) (Function.update_self _ _ _)
  split_ifs at hanswer
  · obtain ⟨c, hc, _⟩ := hanswer
    cases hc
  · cases hanswer
    exact he rfl

end Answers

section Local

variable {stableHash : String → String} {workspaceId idempotencyKey : String}
  {rivals : ℕ → Rival} {r : LocalRace}

theorem findIdempotent_append {s t : ControlPlane.Store} {job : JobRecord} {hash : String}
    (hnone : s.findIdempotent workspaceId hash = none) (hrows : t.jobs.rows = s.jobs.rows ++ [job])
    (hjob : job.workspaceId = workspaceId ∧ job.idempotencyKeyHash = hash) :
    t.findIdempotent workspaceId hash = some job := by
  unfold Store.findIdempotent at hnone ⊢
  rw [hrows, List.find?_append, hnone]
  simp [hjob]

theorem LocalRace.properAfter_iff (hroot : Rooted r.store)
    (h : AllProper stableHash rivals (r.stored stableHash workspaceId idempotencyKey) r.answers)
    (i : ℕ) :
    r.ProperAfter stableHash workspaceId idempotencyKey rivals i ↔
      r.Admits stableHash workspaceId idempotencyKey rivals i := by
  unfold ProperAfter Admits step
  by_cases hnew : r.answers i = none
  · rw [if_pos hnew, imp_iff_right hnew]
    dsimp only
    cases hstored : r.stored stableHash workspaceId idempotencyKey with
    | some job =>
      rw [hstored] at h
      have hfound : r.store.findIdempotent
          ((rivals i).submission workspaceId idempotencyKey).workspaceId (stableHash
            ((rivals i).submission workspaceId idempotencyKey).idempotencyKey) = some job := hstored
      refine iff_of_true ?_ nofun
      by_cases hhash : job.requestHash = stableHash (rivals i).sub.requestJson
      · obtain ⟨c, hc, hjob⟩ : ∃ c, ControlPlane.createJob stableHash
            ((rivals i).submission workspaceId idempotencyKey) (rivals i).ids (rivals i).now
            r.store = (.ok c, r.store) ∧ c.job = job := createJob_replay hroot hfound hhash
        rw [hc]
        dsimp only [stored]
        rw [show r.store.findIdempotent workspaceId (stableHash idempotencyKey) = some job from
          hstored]
        refine h.update ⟨job, rfl, ?_⟩
        rw [if_pos hhash]
        exact ⟨c, rfl, hjob⟩
      · rw [createJob_conflict hfound hhash]
        dsimp only [stored]
        rw [show r.store.findIdempotent workspaceId (stableHash idempotencyKey) = some job from
          hstored]
        refine h.update ⟨job, rfl, ?_⟩
        rw [if_neg hhash]
    | none =>
      rw [hstored] at h
      have hfree : r.store.findIdempotent
          ((rivals i).submission workspaceId idempotencyKey).workspaceId (stableHash
            ((rivals i).submission workspaceId idempotencyKey).idempotencyKey) = none := hstored
      rw [imp_iff_right rfl, createJob_of_none hfree]
      constructor
      · intro hproper
        cases hins : ControlPlane.insertNewJob stableHash
            ((rivals i).submission workspaceId idempotencyKey) (rivals i).ids (rivals i).now
            r.store with
        | error e =>
          rw [hins] at hproper
          dsimp only [commit_error, stored] at hproper
          rw [show r.store.findIdempotent workspaceId (stableHash idempotencyKey) = none from
            hstored] at hproper
          exact absurd hproper not_allProper_update
        | ok x => exact accepts_of_insertNewJob hins
      · intro ha
        obtain ⟨c, t, hins⟩ := insertNewJob_of_accepts hfree ha
        obtain ⟨hadds, _⟩ := addsOne_of_insertNewJob hins
        have hjob := (insertNewJob_ok _ hins).2.1
        rw [hins]
        dsimp only [commit_ok, stored]
        rw [findIdempotent_append hstored hadds.jobs (by rw [hjob]; exact ⟨rfl, rfl⟩)]
        exact allProper_created h (by rw [hjob]; rfl)
  · rw [if_neg hnew]
    exact iff_of_true h fun hnone => absurd hnone hnew

/-- The run lemma of Local: the answers stay proper exactly as long as the call that
creates the job can insert it. -/
theorem LocalRace.properAfter_run_iff (hroot : Rooted r.store)
    (h : AllProper stableHash rivals (r.stored stableHash workspaceId idempotencyKey) r.answers)
    (order : List ℕ) :
    Machine.EachStep (LocalRace.step stableHash workspaceId idempotencyKey rivals)
        (LocalRace.ProperAfter stableHash workspaceId idempotencyKey rivals) r order ↔
      Machine.EachStep (LocalRace.step stableHash workspaceId idempotencyKey rivals)
        (LocalRace.Admits stableHash workspaceId idempotencyKey rivals) r order := by
  refine Machine.eachStep_iff _ (fun r => Rooted r.store ∧
    AllProper stableHash rivals (r.stored stableHash workspaceId idempotencyKey) r.answers)
    ?_ ?_ ⟨hroot, h⟩ order
  · rintro r i ⟨hroot, _⟩ hproper
    refine ⟨?_, hproper⟩
    unfold step
    split_ifs
    · exact hroot.createJob _ _ _
    · exact hroot
  · rintro r i ⟨hroot, h⟩
    exact properAfter_iff hroot h i

end Local

section Team

variable {stableHash : String → String} {workspaceId idempotencyKey : String}
  {rivals : ℕ → Rival} {db : Database}

/-- `create_job` can answer from the rows of every stored job. -/
def Database.WellKept (db : Database) : Prop := ∀ r ∈ db.jobs.rows, db.Replays r

theorem Database.WellKept.empty : Database.empty.WellKept := fun _ hr =>
  absurd hr List.not_mem_nil

theorem createdRows_mirrored (hdigest : ∀ text, IsDigest (stableHash text)) {sub : JobSubmission}
    {ids : JobIds} {now : Timestamp} (hvalid : (newJob stableHash sub ids now).Valid) :
    (createdRows stableHash sub ids now).Mirrored where
  jobId := rfl
  workspaceId := rfl
  key := rfl
  request := rfl
  attemptJob := rfl
  attemptId := rfl
  number := rfl
  jsonNumber := rfl
  job := ⟨hvalid, hdigest _, hdigest _⟩
  attempt := ⟨le_refl 1, hdigest _⟩
  event := ⟨le_refl 1, hvalid.taskSchemaVersion, hdigest _, hdigest _⟩

variable {u : Table JobRows.jobId}

/-- An insertion keeps the rows of every job complete. -/
theorem Database.WellKept.insert (h : db.WellKept) {r : JobRows} (hm : r.Mirrored)
    (hclash : ∀ x ∈ db.jobs.rows, ¬ r.Clashes x) (hu : db.jobs.insert r = some u) :
    ({ db with jobs := u } : Database).WellKept := by
  intro x hx
  rcases (Table.mem_insert hu x).mp hx with hx | rfl
  · refine ⟨(h x hx).mirrored, ?_⟩
    dsimp only
    rw [Table.rows_insert hu, List.find?_append, (h x hx).attempt]
    rfl
  · refine ⟨hm, ?_⟩
    have hnone : (db.jobs.rows.find? fun y =>
        y.attempt.attemptId = x.attempt.attemptJson.attemptId) = none := by
      apply List.find?_eq_none.mpr
      intro y hy hid
      exact hclash y hy (.inr (.inl ((of_decide_eq_true hid).trans hm.attemptId)))
    dsimp only
    rw [Table.rows_insert hu, List.find?_append, hnone]
    simp [hm.attemptId]

theorem findIdempotent_insert {r : JobRows} {hash : String}
    (hnone : db.findIdempotent workspaceId hash = none) (hu : db.jobs.insert r = some u)
    (hr : r.job.workspaceId = workspaceId ∧ r.job.idempotencyKeyHash = hash) :
    ({ db with jobs := u } : Database).findIdempotent workspaceId hash = some r := by
  unfold Database.findIdempotent at hnone ⊢
  dsimp only
  rw [Table.rows_insert hu, List.find?_append, hnone]
  simp [hr]

variable {r : TeamRace} (hdigest : ∀ text, IsDigest (stableHash text))

include hdigest

omit hdigest in
theorem TeamRace.properAfter_lookup (hkept : r.db.WellKept)
    (h : AllProper stableHash rivals
      ((r.stored stableHash workspaceId idempotencyKey).map fun r => r.job.jobJson) r.answers)
    (i : ℕ) : r.ProperAfter stableHash workspaceId idempotencyKey rivals (.lookup i) := by
  unfold ProperAfter step
  dsimp only
  split_ifs
  · cases hstored : r.stored stableHash workspaceId idempotencyKey with
    | none =>
      dsimp only [stored] at hstored ⊢
      rw [hstored]
      rw [TeamRace.stored, hstored] at h
      exact h
    | some found =>
      have hmem : found ∈ r.db.jobs.rows := List.mem_of_find?_eq_some hstored
      dsimp only [stored] at hstored ⊢
      rw [TeamRace.stored, hstored] at h
      rw [hstored, (hkept found hmem).answer]
      refine h.update ⟨found.job.jobJson, rfl, ?_⟩
      by_cases hhash : found.job.jobJson.requestHash = stableHash (rivals i).sub.requestJson
      · rw [if_pos hhash, if_pos hhash]
        exact ⟨_, rfl, rfl⟩
      · rw [if_neg hhash, if_neg hhash]
  · exact h

/-- An insertion under a key that is taken is refused with another error than the
conflict. -/
theorem insertNewJob_taken_key (sub : JobSubmission) (ids : JobIds) (now : Timestamp)
    {found : JobRows}
    (hfound : db.findIdempotent sub.workspaceId (stableHash sub.idempotencyKey) = some found) :
    ∃ e, e ≠ .controlPlane "idempotency_key_conflict" ∧
      insertNewJob stableHash sub ids now db = .error e := by
  by_cases hvalid : (newJob stableHash sub ids now).Valid
  · refine ⟨.integrity, nofun, ?_⟩
    have hkey := List.find?_some hfound
    have hclash : db.insert (createdRows stableHash sub ids now) = .error .integrity := by
      unfold Database.insert
      rw [if_pos]
      exact List.any_eq_true.mpr ⟨found, List.mem_of_find?_eq_some hfound,
        decide_eq_true (.inl (of_decide_eq_true hkey))⟩
    rw [insertNewJob_postgres_valid hdigest hvalid, hclash]
    rfl
  · exact ⟨.validation, nofun, insertNewJob_postgres_invalid hvalid⟩

/-- An insertion that is proper finds no job and is admitted. -/
theorem TeamRace.properAfter_insert_iff
    (h : AllProper stableHash rivals
      ((r.stored stableHash workspaceId idempotencyKey).map fun r => r.job.jobJson) r.answers)
    (i : ℕ) :
    r.ProperAfter stableHash workspaceId idempotencyKey rivals (.insert i) ↔
      r.Admits stableHash workspaceId idempotencyKey rivals (.insert i) := by
  unfold ProperAfter Admits step
  dsimp only
  by_cases hopen : r.answers i = none ∧ r.missed i = true
  · rw [if_pos hopen, imp_iff_right hopen.1, imp_iff_right hopen.2]
    dsimp only
    cases hstored : r.stored stableHash workspaceId idempotencyKey with
    | some found =>
      obtain ⟨e, he, hins⟩ := insertNewJob_taken_key hdigest
        ((rivals i).submission workspaceId idempotencyKey) (rivals i).ids (rivals i).now hstored
      refine iff_of_false ?_ (fun hadmits => nomatch hadmits.1)
      rw [hins]
      exact not_allProper_error he
    | none =>
      rw [hstored] at h
      by_cases hvalid : (newJob stableHash ((rivals i).submission workspaceId idempotencyKey)
          (rivals i).ids (rivals i).now).Valid
      · rw [insertNewJob_postgres_valid hdigest hvalid]
        rcases insert_cases ((rivals i).submission workspaceId idempotencyKey) (rivals i).ids
          (rivals i).now hstored with
          ⟨htaken, hins⟩ | ⟨hnew, u, hu, hins⟩
        · refine iff_of_false ?_ (fun hadmits => hadmits.2.2 htaken)
          rw [hins]
          dsimp only [transact, Except.map, stored]
          rw [show r.db.findIdempotent workspaceId (stableHash idempotencyKey) = none from hstored]
          exact not_allProper_update
        · refine iff_of_true ?_ ⟨rfl, hvalid, hnew⟩
          rw [hins]
          dsimp only [transact, Except.map, stored]
          rw [findIdempotent_insert hstored hu ⟨rfl, rfl⟩]
          exact allProper_created h rfl
      · rw [insertNewJob_postgres_invalid hvalid]
        refine iff_of_false ?_ (fun hadmits => hvalid hadmits.2.1)
        dsimp only [transact, stored]
        rw [show r.db.findIdempotent workspaceId (stableHash idempotencyKey) = none from hstored]
        exact not_allProper_update
  · rw [if_neg hopen]
    exact iff_of_true h fun hanswer hmissed => absurd ⟨hanswer, hmissed⟩ hopen

theorem TeamRace.wellKept_step (hkept : r.db.WellKept) (a : RaceStep) :
    (r.step stableHash workspaceId idempotencyKey rivals a).db.WellKept := by
  cases a with
  | lookup i =>
    unfold step
    dsimp only
    split_ifs
    · cases r.stored stableHash workspaceId idempotencyKey <;> exact hkept
    · exact hkept
  | insert i =>
    unfold step
    dsimp only
    split_ifs
    · rcases transact_cases r.db (insertNewJob stableHash
        ((rivals i).submission workspaceId idempotencyKey) (rivals i).ids (rivals i).now r.db) with
        ⟨e, _, heq⟩ | ⟨c, t, hins, heq⟩
      · rw [heq]
        exact hkept
      · rw [heq]
        obtain ⟨⟨_, _, _, _, hjob, _⟩, hrows⟩ := insertNewJob_eq_ok hins
        obtain ⟨hclash, u, hu, rfl⟩ := insert_eq_ok hrows
        exact hkept.insert (createdRows_mirrored hdigest hjob.valid) hclash hu
    · exact hkept

/-- The run lemma of Team: the answers stay proper exactly as long as every call that
inserts finds that no other one has committed since its lookup. -/
theorem TeamRace.properAfter_run_iff (hkept : r.db.WellKept)
    (h : AllProper stableHash rivals
      ((r.stored stableHash workspaceId idempotencyKey).map fun r => r.job.jobJson) r.answers)
    (labels : List RaceStep) :
    Machine.EachStep (TeamRace.step stableHash workspaceId idempotencyKey rivals)
        (TeamRace.ProperAfter stableHash workspaceId idempotencyKey rivals) r labels ↔
      Machine.EachStep (TeamRace.step stableHash workspaceId idempotencyKey rivals)
        (TeamRace.Admits stableHash workspaceId idempotencyKey rivals) r labels := by
  refine Machine.eachStep_iff _ (fun r => r.db.WellKept ∧ AllProper stableHash rivals
    ((r.stored stableHash workspaceId idempotencyKey).map fun r => r.job.jobJson) r.answers)
    ?_ ?_ ⟨hkept, h⟩ labels
  · rintro r a ⟨hkept, _⟩ hproper
    exact ⟨wellKept_step hdigest hkept a, hproper⟩
  · rintro r a ⟨hkept, h⟩
    cases a with
    | lookup i => exact iff_of_true (properAfter_lookup hkept h i) trivial
    | insert i => exact properAfter_insert_iff hdigest h i

end Team

/-- A sequence of calls is served alike by two stores with the same jobs exactly when no
call creates a job or cancels one that `JOB_TRANSITIONS` protects. Concurrent submissions
under one key are answered properly by Local exactly when the call that creates the job can
insert it, and by Team exactly when, besides, no other call commits between its lookup and
its insertion. -/
theorem submissions_agree_iff (stableHash : String → String)
    (hdigest : ∀ text, IsDigest (stableHash text)) :
    (∀ b : Stores, SameJobs b.sqlite b.postgres → ∀ calls,
      (Machine.EachStep (Stores.step stableHash) (SameCall stableHash) b calls ↔
        Machine.EachStep (Stores.step stableHash) (fun b c => c.Plain stableHash b.postgres) b
          calls)) ∧
    (∀ workspaceId idempotencyKey rivals s, Rooted s → ∀ order,
      (Machine.EachStep (LocalRace.step stableHash workspaceId idempotencyKey rivals)
          (LocalRace.ProperAfter stableHash workspaceId idempotencyKey rivals)
          ⟨s, fun _ => none⟩ order ↔
        Machine.EachStep (LocalRace.step stableHash workspaceId idempotencyKey rivals)
          (LocalRace.Admits stableHash workspaceId idempotencyKey rivals)
          ⟨s, fun _ => none⟩ order)) ∧
    ∀ workspaceId idempotencyKey rivals (db : Database), db.WellKept → ∀ labels,
      (Machine.EachStep (TeamRace.step stableHash workspaceId idempotencyKey rivals)
          (TeamRace.ProperAfter stableHash workspaceId idempotencyKey rivals)
          ⟨db, fun _ => false, fun _ => none⟩ labels ↔
        Machine.EachStep (TeamRace.step stableHash workspaceId idempotencyKey rivals)
          (TeamRace.Admits stableHash workspaceId idempotencyKey rivals)
          ⟨db, fun _ => false, fun _ => none⟩ labels) := by
  refine ⟨?_, ?_, ?_⟩
  · intro b hb calls
    exact sameCalls_iff hdigest hb calls
  · intro workspaceId idempotencyKey rivals s hroot order
    refine LocalRace.properAfter_run_iff hroot ?_ order
    intro i a hnone
    cases hnone
  · intro workspaceId idempotencyKey rivals db hkept labels
    refine TeamRace.properAfter_run_iff hdigest hkept ?_ labels
    intro i a hnone
    cases hnone

namespace Sample

theorem isDigest_digest (text : String) : IsDigest (digest text) := by
  unfold IsDigest digest
  constructor
  · simp
  · intro c hc
    rw [String.toList_ofList] at hc
    rcases List.mem_or_eq_of_mem_set hc with hc | rfl
    · rw [List.eq_of_mem_replicate hc]
      decide
    · decide

def rivals : ℕ → Rival
  | 0 => ⟨submission, ids, 1⟩
  | _ => ⟨submission, { ids with attemptHex := "bb", outboxHex := "pp", jobHex := "kk" }, 2⟩

end Sample

/-- Two empty stores serve reads alike, and the sample's submissions are answered properly
one after the other. -/
theorem submissions_agree_sample :
    Machine.EachStep (Stores.step Sample.digest) (SameCall Sample.digest)
        ⟨.empty, .empty⟩ [.getJob "job_j", .requestCancel "job_j" 1] ∧
      Machine.EachStep (LocalRace.step Sample.digest "ws" "key" Sample.rivals)
        (LocalRace.ProperAfter Sample.digest "ws" "key" Sample.rivals)
        ⟨.empty, fun _ => none⟩ [0] ∧
      Machine.EachStep (TeamRace.step Sample.digest "ws" "key" Sample.rivals)
        (TeamRace.ProperAfter Sample.digest "ws" "key" Sample.rivals)
        ⟨.empty, fun _ => false, fun _ => none⟩ [.lookup 0, .insert 0, .lookup 1] := by
  have hvalid : (newJob Sample.digest ((Sample.rivals 0).submission "ws" "key")
      (Sample.rivals 0).ids (Sample.rivals 0).now).Valid := by decide +kernel
  refine ⟨?_, ?_, ?_⟩
  · refine ((submissions_agree_iff Sample.digest Sample.isDigest_digest).1 ⟨.empty, .empty⟩
      ⟨rfl, rfl, rfl, rfl, fun _ hr => absurd hr List.not_mem_nil⟩ _).mpr ?_
    refine ⟨trivial, ?_, trivial⟩
    intro r hr
    cases hr
  · refine ((submissions_agree_iff Sample.digest Sample.isDigest_digest).2.1 _ _ _ _ .empty
      _).mpr ?_
    exact ⟨fun _ _ => ⟨hvalid, List.not_mem_nil, List.not_mem_nil, List.not_mem_nil,
      List.not_mem_nil, fun _ hr => absurd hr List.not_mem_nil, List.not_mem_nil,
      fun _ hr => absurd hr List.not_mem_nil, List.not_mem_nil⟩, trivial⟩
  · refine ((submissions_agree_iff Sample.digest Sample.isDigest_digest).2.2 _ _ _ _ .empty
      _).mpr ?_
    refine ⟨trivial, fun _ _ => ⟨rfl, hvalid, ?_⟩, trivial, trivial⟩
    rintro ⟨x, hx, _⟩
    exact absurd hx List.not_mem_nil

/-- Both calls look the key up before the first commits; the second one's insertion
violates the unique index. -/
theorem overlapping_submission_raises :
    ¬ ∀ (stableHash : String → String), (∀ text, IsDigest (stableHash text)) →
      ∀ workspaceId idempotencyKey rivals labels,
        Machine.EachStep (TeamRace.step stableHash workspaceId idempotencyKey rivals)
          (TeamRace.ProperAfter stableHash workspaceId idempotencyKey rivals)
          ⟨.empty, fun _ => false, fun _ => none⟩ labels := by
  intro h
  have hproper := (h Sample.digest Sample.isDigest_digest "ws" "key" Sample.rivals
    [.lookup 0, .lookup 1, .insert 0, .insert 1]).2.2.2.1
  have hanswer : ([RaceStep.lookup 0, .lookup 1, .insert 0, .insert 1].foldl
      (TeamRace.step Sample.digest "ws" "key" Sample.rivals)
      ⟨.empty, fun _ => false, fun _ => none⟩).answers 1 = some (.error .integrity) := by
    decide +kernel
  obtain ⟨job, _, hcases⟩ := hproper 1 _ hanswer
  split_ifs at hcases
  · obtain ⟨c, hc, _⟩ := hcases
    cases hc
  · cases hcases

end CodeResearch.Team
