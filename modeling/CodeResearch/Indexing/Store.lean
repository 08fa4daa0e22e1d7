import CodeResearch.Library.Machine
import CodeResearch.Indexing.Artifacts

/-!
# The structured index store

Each operation that `_write` wraps is one function on the tables; it commits what
it returns, and what raises leaves the tables as they were. The clock and the
random lease owner are arguments.
-/
namespace CodeResearch.Indexing

/-- Microseconds of UTC time. -/
abbrev Timestamp := ℕ

inductive IdentityMode
  | explicit | taskScoped
  deriving DecidableEq

inductive VersionStatus
  | building | ready | active | superseded | failed
  deriving DecidableEq

/-- `status IN ('building', 'ready')`. -/
def VersionStatus.Open (s : VersionStatus) : Prop := s ∈ [building, ready]

instance (s : VersionStatus) : Decidable s.Open :=
  inferInstanceAs (Decidable (_ ∈ _))

/-- The versions that were activated once. -/
def VersionStatus.Published (s : VersionStatus) : Prop := s ∈ [active, superseded]

instance (s : VersionStatus) : Decidable s.Published :=
  inferInstanceAs (Decidable (_ ∈ _))

structure RepositoryRow where
  repoId : String
  identityMode : IdentityMode
  repositoryKey : Option String
  displayName : String
  activeVersionId : Option String := none
  deriving DecidableEq

structure VersionRow where
  indexVersionId : String
  repoId : String
  sequence : ℕ
  inputHash : String
  status : VersionStatus
  retryCount : ℕ := 0
  leaseOwner : Option String := none
  leaseExpiresAt : Option Timestamp := none
  error : Option String := none
  activatedAt : Option Timestamp := none
  deriving DecidableEq

structure IndexTables where
  repositories : Table RepositoryRow.repoId := .empty
  versions : Table VersionRow.indexVersionId := .empty
  artifacts : ArtifactTables := {}

structure VersionLease where
  indexVersionId : String
  sequence : ℕ
  leaseOwner : Option String
  reused : Bool
  activatedAt : Option Timestamp := none
  deriving DecidableEq

structure IndexStore where
  maxRetries : ℕ := 3
  /-- `lease_seconds` in microseconds -/
  leaseTtl : ℕ := 300000000
  /-- `_version_id` -/
  versionId : String → ℕ → String → String

/-- The arguments of `begin_version`. -/
structure VersionRequest where
  repoId : String
  identityMode : IdentityMode
  repositoryKey : Option String
  displayName : String
  inputHash : String
  deriving DecidableEq

/-- `_lease_expired`. -/
def leaseExpired (expiresAt : Option Timestamp) (now : Timestamp) : Prop :=
  ∀ at_ ∈ expiresAt, at_ ≤ now

instance (expiresAt : Option Timestamp) (now : Timestamp) : Decidable (leaseExpired expiresAt now) :=
  inferInstanceAs (Decidable (∀ at_ ∈ expiresAt, _))

namespace IndexTables

variable (t : IndexTables)

/-- The rows of `index_versions` of one repository, in the order of their insertion. -/
def versionsOf (repoId : String) : List VersionRow := t.versions.rows.filter (·.repoId = repoId)

/-- `SELECT * FROM index_versions WHERE repo_id=? AND input_hash=?`. -/
def versionForInput (repoId inputHash : String) : Option VersionRow :=
  t.versions.rows.find? fun v => v.repoId = repoId ∧ v.inputHash = inputHash

/-- `COALESCE(MAX(sequence), 0) + 1`. -/
def nextSequence (repoId : String) : ℕ :=
  ((t.versionsOf repoId).map VersionRow.sequence).foldr max 0 + 1

/-- `CHECK` of `repositories` on the identity. -/
def IdentityChecks (r : VersionRequest) : Prop :=
  (r.identityMode = .explicit ∧ r.repositoryKey ≠ none) ∨
    (r.identityMode = .taskScoped ∧ r.repositoryKey = none)

instance (r : VersionRequest) : Decidable (IdentityChecks r) :=
  inferInstanceAs (Decidable (_ ∨ _))

def upsertRepository (r : VersionRequest) : Except StoreFault IndexTables := do
  ensure (IdentityChecks r) .integrity
  match t.repositories.find? r.repoId with
  | some row => return { t with
      repositories := t.repositories.replace { row with displayName := r.displayName } }
  | none =>
    ensure (∀ row ∈ t.repositories.rows, r.repositoryKey ≠ none →
      row.repositoryKey ≠ r.repositoryKey) .integrity
    let repositories ← orError .integrity <| t.repositories.insert
      { repoId := r.repoId
        identityMode := r.identityMode
        repositoryKey := r.repositoryKey
        displayName := r.displayName }
    return { t with repositories }

def setVersion (v : VersionRow) : IndexTables := { t with versions := t.versions.replace v }

/-- `UPDATE repositories SET active_version_id=? WHERE repo_id=?`. -/
def setActive (repoId versionId : String) : IndexTables :=
  { t with
    repositories := t.repositories.updateWhere (fun r => r.repoId = repoId)
      (fun r => { r with activeVersionId := some versionId }) fun _ => rfl }

/-- `UPDATE index_versions SET status='superseded' WHERE repo_id=? AND status='active'`. -/
def supersede (repoId : String) : IndexTables :=
  { t with
    versions := t.versions.updateWhere (fun v => v.repoId = repoId ∧ v.status = .active)
      (fun v => { v with status := .superseded }) fun _ => rfl }

end IndexTables

def VersionRow.fail (v : VersionRow) (error : String) : VersionRow :=
  { v with status := .failed, error := some error, leaseOwner := none, leaseExpiresAt := none }

section Operations

variable (config : IndexStore) (t : IndexTables) (now : Timestamp)

/-- `_resume_or_reuse`. -/
def resumeOrReuse (row : VersionRow) (repoId owner : String) :
    Except StoreFault (VersionLease × IndexTables) := do
  if row.status = .active then
    return (⟨row.indexVersionId, row.sequence, none, true, row.activatedAt⟩, t)
  ensure (row.status ≠ .superseded)
    (.runtime ("The matching structured index version is superseded; " ++
      "use explicit version rollback to reactivate it."))
  ensure (row.status.Open → leaseExpired row.leaseExpiresAt now)
    (.busy ("Repository " ++ repoId ++ " already has the same index build in progress."))
  ensure (row.retryCount < config.maxRetries)
    (.runtime "Structured index retry limit reached.")
  ensure (∀ v ∈ t.versions.rows, ¬ (v.repoId = repoId ∧ v.status.Open ∧
      v.indexVersionId ≠ row.indexVersionId))
    (.busy ("Repository " ++ repoId ++ " already has another index build in progress."))
  return (⟨row.indexVersionId, row.sequence, some owner, false, none⟩, t.setVersion
    { row with
      status := .building
      retryCount := row.retryCount + 1
      leaseOwner := some owner
      leaseExpiresAt := some (now + config.leaseTtl)
      error := none })

def failStale (repoId : String) : Except StoreFault IndexTables :=
  match t.versions.rows.find? fun v => v.repoId = repoId ∧ v.status.Open with
  | none => .ok t
  | some build => do
    ensure (leaseExpired build.leaseExpiresAt now)
      (.busy ("Repository " ++ repoId ++ " already has an index build in progress."))
    return t.setVersion (build.fail "\x7b\"error_code\":\"stale_lease\",\"retryable\":true\x7d")

/-- The new row of `begin_version`. -/
def newVersion (r : VersionRequest) (owner : String) : VersionRow where
  indexVersionId := config.versionId r.repoId (t.nextSequence r.repoId) r.inputHash
  repoId := r.repoId
  sequence := t.nextSequence r.repoId
  inputHash := r.inputHash
  status := .building
  leaseOwner := some owner
  leaseExpiresAt := some (now + config.leaseTtl)

/-- The transaction of `begin_version`. -/
def beginVersion (r : VersionRequest) (owner : String) :
    Except StoreFault (VersionLease × IndexTables) := do
  let t ← t.upsertRepository r
  match t.versionForInput r.repoId r.inputHash with
  | some existing => resumeOrReuse config t now existing r.repoId owner
  | none =>
    let t ← failStale t now r.repoId
    let v := newVersion config t now r owner
    let versions ← orError .integrity (t.versions.insert v)
    return (⟨v.indexVersionId, v.sequence, some owner, false, none⟩, { t with versions })

/-- `mark_ready`. -/
def markReady (lease : VersionLease) : Except StoreFault (Unit × IndexTables) :=
  if lease.reused then .ok ((), t)
  else
    match (t.versions.find? lease.indexVersionId).filter fun v =>
      v.status = .building ∧ v.leaseOwner.isSome ∧ v.leaseOwner = lease.leaseOwner with
    | none => .error (.busy "Structured index lease was lost before ready state.")
    | some v => .ok ((), t.setVersion
        { v with status := .ready, leaseExpiresAt := some (now + config.leaseTtl) })

/-- `activate`. -/
def activate (lease : VersionLease) (artifacts : IndexArtifacts) :
    Except StoreFault (Timestamp × IndexTables) :=
  if lease.reused then .ok (lease.activatedAt.getD now, t)
  else do
    validateArtifacts artifacts
    let row ← orError (.busy "Structured index lease was lost before activation.")
      ((t.versions.find? lease.indexVersionId).filter fun v =>
        v.status = .ready ∧ v.leaseOwner = lease.leaseOwner)
    let tables ← t.artifacts.replaceArtifacts lease.indexVersionId artifacts
    tables.validatePersistedCounts lease.indexVersionId artifacts
    let t := (({ t with artifacts := tables } : IndexTables).supersede row.repoId).setVersion
      { row with
        status := .active
        activatedAt := some now
        leaseOwner := none
        leaseExpiresAt := none
        error := none }
    return (now, t.setActive row.repoId lease.indexVersionId)

/-- `mark_failed`. -/
def markFailed (lease : VersionLease) (error : String) : Except StoreFault (Unit × IndexTables) :=
  if lease.reused then .ok ((), t)
  else
    match (t.versions.find? lease.indexVersionId).filter fun v => v.status.Open with
    | none => .ok ((), t)
    | some v => .ok ((), t.setVersion (v.fail error))

/-- `rollback_to_version`. -/
def rollbackToVersion (repoId versionId : String) : Except StoreFault (Unit × IndexTables) := do
  let row ← orError (.value "Rollback target must be an active or superseded version.")
    ((t.versions.find? versionId).filter fun v => v.repoId = repoId ∧ v.status.Published)
  let t := (t.supersede repoId).setVersion { row with status := .active, activatedAt := some now }
  return ((), t.setActive repoId versionId)

end Operations

inductive IndexOperation
  | beginVersion (r : VersionRequest) (owner : String)
  | markReady (lease : VersionLease)
  | activate (lease : VersionLease) (artifacts : IndexArtifacts)
  | markFailed (lease : VersionLease) (error : String)
  | rollbackToVersion (repoId versionId : String)
  deriving DecidableEq

def IndexOperation.lease : IndexOperation → Option VersionLease
  | markReady lease => some lease
  | activate lease _ => some lease
  | markFailed lease _ => some lease
  | _ => none

def IndexTables.perform (config : IndexStore) (t : IndexTables) (now : Timestamp) :
    IndexOperation → IndexTables
  | .beginVersion r owner => (transact t (beginVersion config t now r owner)).2
  | .markReady lease => (transact t (markReady config t now lease)).2
  | .activate lease artifacts => (transact t (activate t now lease artifacts)).2
  | .markFailed lease error => (transact t (markFailed t lease error)).2
  | .rollbackToVersion repoId versionId => (transact t (rollbackToVersion t now repoId versionId)).2

/-- What an operation publishes: the artifacts of an `activate` that returned. -/
def IndexTables.published (t : IndexTables) (now : Timestamp) :
    IndexOperation → List (String × IndexArtifacts)
  | .activate lease artifacts =>
    match activate t now lease artifacts with
    | .ok _ => if lease.reused then [] else [(lease.indexVersionId, artifacts)]
    | .error _ => []
  | _ => []

/-- The tables with the activations so far. -/
structure IndexRun where
  tables : IndexTables := {}
  activations : List (String × IndexArtifacts) := []

/-- A transaction at a time of the clock. -/
abbrev IndexEvent := Timestamp × IndexOperation

def IndexRun.perform (config : IndexStore) (s : IndexRun) (e : IndexEvent) : IndexRun where
  tables := s.tables.perform config e.1 e.2
  activations := s.activations ++ s.tables.published e.1 e.2

def machine (config : IndexStore) : Machine IndexRun IndexEvent := .total (IndexRun.perform config)

end CodeResearch.Indexing
