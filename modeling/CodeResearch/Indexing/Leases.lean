import CodeResearch.Indexing.Store

/-!
# Stale leases of an index build

`mark_ready` and `activate` compare the owner of the lease with the stored one.
`mark_failed` does not, so it also fails the build of a builder that took over.
-/
namespace CodeResearch.Indexing

def VersionLease.Stale (lease : VersionLease) (t : IndexTables) : Prop :=
  ∀ v ∈ t.versions.find? lease.indexVersionId, v.leaseOwner ≠ lease.leaseOwner

instance (lease : VersionLease) (t : IndexTables) : Decidable (lease.Stale t) :=
  inferInstanceAs (Decidable (∀ v ∈ t.versions.find? lease.indexVersionId, _))

def IndexOperation.FailsOther (t : IndexTables) : IndexOperation → Prop
  | .markFailed lease _ => lease.reused = false ∧ lease.Stale t ∧
      ∃ v ∈ t.versions.find? lease.indexVersionId, v.status.Open
  | _ => False

def StalePowerless (config : IndexStore) (start : IndexRun)
    (G : IndexRun → IndexEvent → Prop) : Prop :=
  ∀ events s e lease, (machine config).Run G start events s → G s e → e.2.lease = some lease →
    lease.Stale s.tables → s.tables.perform config e.1 e.2 = s.tables

section Steps

variable {config : IndexStore} {t : IndexTables} {now : Timestamp} {lease : VersionLease}

theorem filter_stale (h : lease.Stale t) {p : VersionRow → Bool}
    (hp : ∀ v, p v = true → v.leaseOwner = lease.leaseOwner) :
    (t.versions.find? lease.indexVersionId).filter p = none := by
  rw [Option.filter_eq_none_iff]
  intro v hv hpass
  exact h v hv (hp v hpass)

theorem markReady_stale (h : lease.Stale t) :
    t.perform config now (.markReady lease) = t := by
  unfold IndexTables.perform markReady
  dsimp only
  split_ifs
  · rfl
  · rw [filter_stale h]
    · rfl
    · intro v hv
      simp only [decide_eq_true_eq] at hv
      exact hv.2.2

theorem activate_stale (h : lease.Stale t) (artifacts : IndexArtifacts) :
    t.perform config now (.activate lease artifacts) = t := by
  unfold IndexTables.perform activate
  dsimp only
  split_ifs
  · rfl
  · cases validateArtifacts artifacts with
    | error fault => rfl
    | ok _ =>
      rw [except_bind_ok, filter_stale h]
      · rfl
      · intro v hv
        simp only [decide_eq_true_eq] at hv
        exact hv.2

theorem setVersion_fail_ne {v : VersionRow} (hv : t.versions.find? lease.indexVersionId = some v)
    (hopen : v.status.Open) (error : String) : t.setVersion (v.fail error) ≠ t := by
  intro hsame
  have hkey : v.indexVersionId = lease.indexVersionId := Table.find?_key hv
  have hfound : (t.setVersion (v.fail error)).versions.find? lease.indexVersionId =
      some (v.fail error) :=
    Table.find?_replace_of_key (r := v.fail error) hkey (by rw [hv]; rfl)
  rw [hsame, hv, Option.some.injEq] at hfound
  rw [hfound] at hopen
  exact absurd hopen (by decide : ¬ VersionStatus.failed.Open)

theorem markFailed_stale (h : lease.Stale t) (error : String) :
    t.perform config now (.markFailed lease error) = t ↔
      ¬ IndexOperation.FailsOther t (.markFailed lease error) := by
  unfold IndexTables.perform markFailed IndexOperation.FailsOther
  dsimp only
  cases hreused : lease.reused with
  | true => exact iff_of_true rfl (by simp)
  | false =>
    simp only [Bool.false_eq_true, if_false]
    cases hv : t.versions.find? lease.indexVersionId with
    | none => exact iff_of_true rfl (by simp)
    | some v =>
      by_cases hopen : v.status.Open
      · rw [Option.filter_some, if_pos (by simpa using hopen)]
        apply iff_of_false
        · exact setVersion_fail_ne hv hopen error
        · simp [h, hopen]
      · rw [Option.filter_some, if_neg (by simpa using hopen)]
        exact iff_of_true rfl (by simp [hopen])

/-- An operation with a stale lease changes the tables when it fails the build of
another owner, and only then. -/
theorem perform_stale {operation : IndexOperation} (hlease : operation.lease = some lease)
    (h : lease.Stale t) :
    t.perform config now operation = t ↔ ¬ operation.FailsOther t := by
  cases operation with
  | beginVersion | rollbackToVersion => cases hlease
  | markReady l =>
    cases hlease
    exact iff_of_true (markReady_stale h) (by simp [IndexOperation.FailsOther])
  | activate l artifacts =>
    cases hlease
    exact iff_of_true (activate_stale h artifacts) (by simp [IndexOperation.FailsOther])
  | markFailed l error =>
    cases hlease
    exact markFailed_stale h error

end Steps

/-- Stale leases are powerless in exactly those runs in which none of them is used to
fail an open build. -/
theorem stalePowerless_iff (config : IndexStore) (start : IndexRun)
    (G : IndexRun → IndexEvent → Prop) :
    StalePowerless config start G ↔ ∀ events s e, (machine config).Run G start events s → G s e →
      ¬ e.2.FailsOther s.tables := by
  constructor
  · rintro h events s ⟨now, operation⟩ hrun hG hfails
    cases operation with
    | markFailed lease error =>
      have hsame := h events s _ lease hrun hG rfl hfails.2.1
      exact (perform_stale rfl hfails.2.1).mp hsame hfails
    | _ => exact hfails
  · rintro h events s ⟨now, operation⟩ lease hrun hG hlease hstale
    exact (perform_stale hlease hstale).mpr (h events s _ hrun hG)

def demoStore : IndexStore where
  versionId repoId sequence inputHash := "idx_" ++ repoId ++ toString sequence ++ inputHash

def demoRequest : VersionRequest where
  repoId := "repo"
  identityMode := .taskScoped
  repositoryKey := none
  displayName := "demo"
  inputHash := "input"

def firstLease : VersionLease := ⟨"idx_repo1input", 1, some "first", false, none⟩

/-- A second builder takes over once the lease of the first one has expired. -/
def takeover : List IndexEvent :=
  [(0, .beginVersion demoRequest "first"), (400000000, .beginVersion demoRequest "second")]

/-- The failure handling of the first builder then fails the build of the second. -/
theorem not_stalePowerless_takeover : ¬ StalePowerless demoStore {} Machine.Free := by
  intro h
  obtain ⟨s, hs, hstale, hfails⟩ : ∃ s, (machine demoStore).exec Machine.Free {} takeover = some s ∧
      firstLease.Stale s.tables ∧
        IndexOperation.FailsOther s.tables (.markFailed firstLease "build failed") := by
    refine ⟨_, rfl, ?_, ?_⟩
    · decide +kernel
    · refine ⟨rfl, ?_, _, rfl, ?_⟩ <;> decide +kernel
  have hsame := h _ _ (400000000, .markFailed firstLease "build failed") firstLease
    (Machine.run_of_exec hs) trivial rfl hstale
  exact (perform_stale rfl hstale).mp hsame hfails

end CodeResearch.Indexing
