import CodeResearch.Indexing.Versions

/-!
# Builds whose lease has expired

A build for a new input fails the expired build that it finds. A failed input that is
tried again only looks for one, and is refused whatever its lease says.
-/
namespace CodeResearch.Indexing

def NoLiveBuild (t : IndexTables) (now : Timestamp) (repoId : String) : Prop :=
  ∀ v ∈ t.versions.rows, v.repoId = repoId → v.status.Open → leaseExpired v.leaseExpiresAt now

def Buildable (config : IndexStore) (t : IndexTables) (r : VersionRequest) : Prop :=
  ∀ v, t.versionForInput r.repoId r.inputHash = some v →
    (v.status = .failed ∨ v.status.Open) ∧ v.retryCount < config.maxRetries

/-- `begin_version` returns a lease of its own, not one of a finished version. -/
def BeginsFresh (config : IndexStore) (t : IndexTables) (now : Timestamp) (r : VersionRequest)
    (owner : String) : Prop :=
  ∃ lease u, beginVersion config t now r owner = .ok (lease, u) ∧
    lease.leaseOwner = some owner ∧ lease.reused = false

def IdentityAccepted (t : IndexTables) (r : VersionRequest) : Prop :=
  IndexTables.IdentityChecks r ∧ (t.repositories.find? r.repoId = none → r.repositoryKey ≠ none →
    ∀ row ∈ t.repositories.rows, row.repositoryKey ≠ r.repositoryKey)

section Calls

variable {config : IndexStore} {t u : IndexTables} {now : Timestamp} {r : VersionRequest}
  {owner repoId : String}

theorem exists_upsertRepository_iff :
    (∃ u, t.upsertRepository r = .ok u) ↔ IdentityAccepted t r := by
  simp only [IndexTables.upsertRepository, except_bind_eq_ok_iff, ensure_eq_ok_iff,
    IdentityAccepted]
  cases hrow : t.repositories.find? r.repoId with
  | some row => simp
  | none =>
    have hinsert := Table.exists_insert_iff (t := t.repositories)
      (r := ⟨r.repoId, r.identityMode, r.repositoryKey, r.displayName, none⟩)
    simp only [hrow, iff_true] at hinsert
    obtain ⟨repositories, hrepositories⟩ := hinsert
    simp only [except_bind_eq_ok_iff, ensure_eq_ok_iff, hrepositories, orError_some]
    constructor
    · rintro ⟨_, _, hchecks, _, hkey, -⟩
      exact ⟨hchecks, fun _ hne row hrow => hkey row hrow hne⟩
    · rintro ⟨hchecks, hkey⟩
      exact ⟨_, (), hchecks, (), fun row hrow hne => hkey trivial hne row hrow, _, rfl, rfl⟩

theorem versionForInput_eq_some {v : VersionRow} {inputHash : String}
    (h : t.versionForInput repoId inputHash = some v) :
    v ∈ t.versions.rows ∧ v.repoId = repoId ∧ v.inputHash = inputHash := by
  have hfound : v.repoId = repoId ∧ v.inputHash = inputHash := by simpa using List.find?_some h
  exact ⟨List.mem_of_find?_eq_some h, hfound⟩

/-- A version that may be tried again gets a lease exactly if the repository has no open build
of another version. -/
theorem resumeOrReuse_fresh_iff {v : VersionRow}
    (hlive : NoLiveBuild t now repoId) (hv : v ∈ t.versions.rows) (hrepo : v.repoId = repoId)
    (hstatus : v.status = .failed ∨ v.status.Open) (hretries : v.retryCount < config.maxRetries) :
    (∃ lease u, resumeOrReuse config t now v repoId owner = .ok (lease, u) ∧
      lease.leaseOwner = some owner ∧ lease.reused = false) ↔
    ∀ w ∈ t.versions.rows, w.repoId = repoId → w.status.Open → w = v := by
  have hactive : v.status ≠ .active := by
    rintro heq
    rw [heq] at hstatus
    exact absurd hstatus (by decide)
  have hsuperseded : v.status ≠ .superseded := by
    rintro heq
    rw [heq] at hstatus
    exact absurd hstatus (by decide)
  have hcompeting : (∀ w ∈ t.versions.rows, ¬ (w.repoId = repoId ∧ w.status.Open ∧
      w.indexVersionId ≠ v.indexVersionId)) ↔
      ∀ w ∈ t.versions.rows, w.repoId = repoId → w.status.Open → w = v := by
    refine forall₂_congr fun w hw => ?_
    constructor
    · intro hnot hwr hwo
      by_contra hne
      exact hnot ⟨hwr, hwo, fun hkey => hne (t.versions.eq_of_key_eq hw hv hkey)⟩
    · rintro heq ⟨hwr, hwo, hne⟩
      exact hne (congrArg VersionRow.indexVersionId (heq hwr hwo))
  rw [← hcompeting]
  unfold resumeOrReuse
  rw [if_neg hactive]
  simp only [except_bind_eq_ok_iff, ensure_eq_ok_iff, except_pure_eq_ok_iff, Prod.mk.injEq]
  constructor
  · rintro ⟨_, _, ⟨_, _, _, _, _, _, _, hnot, _⟩, _⟩
    exact hnot
  · intro hnot
    exact ⟨_, _, ⟨(), hsuperseded, (), hlive v hv hrepo, (), hretries, (), hnot, rfl, rfl⟩, rfl, rfl⟩

/-- Where no build is live, the expired one is failed; the identifiers and numbers of the versions
stay. -/
theorem exists_failStale (hlive : NoLiveBuild t now repoId) :
    ∃ u, failStale t now repoId = .ok u ∧ u.nextSequence repoId = t.nextSequence repoId ∧
      ∀ id, u.versions.find? id = none ↔ t.versions.find? id = none := by
  unfold failStale
  split
  · exact ⟨t, rfl, rfl, fun _ => Iff.rfl⟩
  · rename_i build hbuild
    have hmem := List.mem_of_find?_eq_some hbuild
    have hfound : build.repoId = repoId ∧ build.status.Open := by
      simpa using List.find?_some hbuild
    have hrow : t.versions.find? build.indexVersionId = some build := Table.find?_of_mem hmem
    rw [ensure_pos (hlive build hmem hfound.1 hfound.2)]
    have hsame : ∀ error, (build.fail error).Same build := fun _ => ⟨rfl, rfl, rfl, rfl⟩
    refine ⟨_, rfl, ?_, fun id => ?_⟩
    · unfold IndexTables.nextSequence
      rw [map_sequence_versionsOf (rows_setVersion t _) (same_setVersion hrow (hsame _))]
    · rw [Table.find?_eq_none_iff, Table.find?_eq_none_iff, IndexTables.setVersion,
        Table.keys_replace]

def NewIdFree (config : IndexStore) (t : IndexTables) (r : VersionRequest) : Prop :=
  t.versions.find? (config.versionId r.repoId (t.nextSequence r.repoId) r.inputHash) = none

/-- Where no build of the repository is live, a new input, a failed one or a stale one gets a fresh
lease exactly if the identity is accepted and either the input is new and so is the id of its
version, or it is not one that failed while an expired build stands. -/
theorem beginsFresh_iff {events : List IndexEvent} {s : IndexRun}
    (hrun : (machine config).Run Machine.Free {} events s)
    (hlive : NoLiveBuild s.tables now r.repoId) (hbuildable : Buildable config s.tables r) :
    BeginsFresh config s.tables now r owner ↔
      IdentityAccepted s.tables r ∧
        match s.tables.versionForInput r.repoId r.inputHash with
        | none => NewIdFree config s.tables r
        | some v => v.status = .failed →
            ∀ w ∈ s.tables.versions.rows, w.repoId = r.repoId → ¬ w.status.Open := by
  have hsound := (sound_run hrun).tables
  rw [← exists_upsertRepository_iff]
  unfold BeginsFresh beginVersion
  cases hupsert : s.tables.upsertRepository r with
  | error e => simp
  | ok t =>
    obtain ⟨-, hversions, -, -⟩ := upsertRepository_ok hupsert hsound
    have hinput : t.versionForInput r.repoId r.inputHash =
        s.tables.versionForInput r.repoId r.inputHash := by
      unfold IndexTables.versionForInput
      rw [hversions]
    have hlive' : NoLiveBuild t now r.repoId := by
      unfold NoLiveBuild
      rw [hversions]
      exact hlive
    simp only [except_bind_ok, hinput, Except.ok.injEq, exists_eq', true_and]
    cases hfound : s.tables.versionForInput r.repoId r.inputHash with
    | some v =>
      obtain ⟨hv, hrepo, -⟩ := versionForInput_eq_some hfound
      obtain ⟨hstatus, hretries⟩ := hbuildable v hfound
      rw [← hversions] at hv
      dsimp only
      rw [resumeOrReuse_fresh_iff hlive' hv hrepo hstatus hretries, hversions]
      rw [hversions] at hv
      constructor
      · intro honly hfailed w hw hwr hwo
        rw [honly w hw hwr hwo, hfailed] at hwo
        exact absurd hwo (by decide)
      · intro hnone w hw hwr hwo
        rcases hstatus with hfailed | hopen
        · exact absurd hwo (hnone hfailed w hw hwr)
        · exact hsound.open_ w hw v hv (hwr.trans hrepo.symm) hwo hopen
    | none =>
      obtain ⟨u, hstale, hnext, hfree⟩ := exists_failStale hlive'
      have hnext' : u.nextSequence r.repoId = s.tables.nextSequence r.repoId := by
        rw [hnext, IndexTables.nextSequence, IndexTables.versionsOf, hversions]
        rfl
      have hid : (newVersion config u now r owner).indexVersionId = config.versionId r.repoId
          (s.tables.nextSequence r.repoId) r.inputHash := by
        rw [newVersion, hnext']
      rw [NewIdFree, ← hversions, ← hfree, ← hid, ← Table.exists_insert_iff]
      simp only [hstale, except_bind_ok, except_bind_eq_ok_iff, orError_eq_ok_iff,
        except_pure_eq_ok_iff, Prod.mk.injEq]
      constructor
      · rintro ⟨_, _, ⟨versions, hinsert, _⟩, _⟩
        exact ⟨versions, hinsert⟩
      · rintro ⟨versions, hinsert⟩
        exact ⟨_, _, ⟨versions, hinsert, rfl, rfl⟩, rfl, rfl⟩

end Calls

instance (t : IndexTables) (now : Timestamp) (repoId : String) :
    Decidable (NoLiveBuild t now repoId) :=
  inferInstanceAs (Decidable (∀ v ∈ t.versions.rows, _ → _ → _))

/-- Another input of the repository of `demoRequest`. -/
def changedRequest : VersionRequest := { demoRequest with inputHash := "changed" }

/-- A build of `demoRequest` is left alone. -/
def abandonedEvents : List IndexEvent := [(0, .beginVersion demoRequest "first")]

def abandoned : IndexRun := abandonedEvents.foldl (IndexRun.perform demoStore) {}

theorem beginsFresh_after_abandoned :
    BeginsFresh demoStore abandoned.tables 400000000 changedRequest "second" := by
  have hrun : (machine demoStore).Run Machine.Free {} abandonedEvents abandoned :=
    Machine.run_total (IndexRun.perform demoStore) rfl
  have hnew : abandoned.tables.versionForInput changedRequest.repoId changedRequest.inputHash =
      none := by decide +kernel
  have hbuildable : Buildable demoStore abandoned.tables changedRequest := by
    intro v hv
    rw [hnew] at hv
    cases hv
  refine (beginsFresh_iff hrun (by decide +kernel) hbuildable).mpr ⟨⟨by decide, ?_⟩, ?_⟩
  · exact fun _ hkey => absurd rfl hkey
  · rw [hnew]
    exact (by decide +kernel : abandoned.tables.versions.find? "idx_repo2changed" = none)

/-- One input has failed, and the builder of another one has crashed. -/
def failedThenAbandoned : IndexRun :=
  [(0, IndexOperation.beginVersion demoRequest "first"), (1, .markFailed firstLease "error"),
    (2, .beginVersion changedRequest "second")].foldl
    (IndexRun.perform demoStore) {}

/-- The failed input is refused although the lease of the other build has expired. -/
theorem busy_after_failedThenAbandoned :
    ∃ events, (machine demoStore).Run Machine.Free {} events failedThenAbandoned ∧
      NoLiveBuild failedThenAbandoned.tables 400000000 "repo" ∧
      Buildable demoStore failedThenAbandoned.tables demoRequest ∧
      ∃ message, beginVersion demoStore failedThenAbandoned.tables 400000000 demoRequest "third" =
        .error (.busy message) := by
  refine ⟨_, Machine.run_total (IndexRun.perform demoStore) rfl, by decide +kernel, ?_,
    "Repository repo already has another index build in progress.", ?_⟩
  · intro v hv
    have hfound : (failedThenAbandoned.tables.versionForInput "repo" "input").map
        (fun v => (v.status, v.retryCount)) = some (.failed, 0) := by decide +kernel
    obtain ⟨w, hw, hrow⟩ := Option.map_eq_some_iff.mp hfound
    obtain rfl : v = w := Option.some.inj (hv.symm.trans hw)
    simp only [Prod.mk.injEq] at hrow
    exact ⟨.inl hrow.1, by rw [hrow.2]; decide⟩
  · rfl

end CodeResearch.Indexing
