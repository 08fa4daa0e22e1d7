import CodeResearch.ControlPlane.Schemas
import CodeResearch.Library.Result
import CodeResearch.Library.Table
import Mathlib.Data.List.Sort

/-!
# Workspaces, projects and their members

A permission is granted by name, by the role in the workspace or by the role in the
project. Names and roles are those of the tables in `access.py`. No operation of the store
suspends a member, closes a project or grants a permission by name.
-/
namespace CodeResearch.Api

open ControlPlane (JobType)

/-- What an endpoint raises. -/
inductive ApiError
  /-- `HTTPException`, with its status and `error_code` -/
  | http (statusCode : ℕ) (errorCode : String)
  /-- `AccessDeniedError` that the endpoint does not catch -/
  | accessDenied
  /-- any other exception -/
  | other
  deriving DecidableEq

inductive Permission
  /-- `*` -/
  | every
  | goldRead | goldFreeze | goldReview | auditRead | auditProjectRead | providerManage
  | traceDiagnostic | traceRead | backupManage | restoreManage | maintenanceManage
  | workspaceUpdate | memberManage | projectManage | projectUpdate
  | artifactRead | artifactCreate | artifactDelete
  | jobCreate | jobCancel | jobRetry | jobDeadManage
  | alignmentReview | alignmentRun | evaluationRun | resultRead
  deriving DecidableEq

inductive WorkspaceRole
  | owner | admin | member | viewer
  deriving DecidableEq

inductive ProjectRole
  | projectOwner | editor | reviewer | viewer
  deriving DecidableEq

/-- `SENSITIVE_PERMISSIONS`. -/
def sensitivePermissions : List Permission :=
  [.goldRead, .goldFreeze, .auditRead, .providerManage, .traceDiagnostic, .backupManage,
    .restoreManage, .maintenanceManage]

/-- `permission_for_job_type`; `none` is a text that names no job type. -/
def permissionForJobType : Option JobType → Permission
  | some .backup => .backupManage
  | some .restore => .restoreManage
  | some .maintenance => .maintenanceManage
  | _ => .jobCreate

/-- `WORKSPACE_PERMISSIONS`. -/
def workspacePermissions : WorkspaceRole → List Permission
  | .owner => [.every]
  | .admin => [.workspaceUpdate, .memberManage, .projectManage, .artifactRead, .artifactDelete,
      .jobCreate, .jobCancel, .jobRetry, .jobDeadManage, .alignmentReview, .evaluationRun,
      .traceRead]
  | .member => []
  | .viewer => []

/-- `PROJECT_PERMISSIONS`. -/
def projectPermissions : ProjectRole → List Permission
  | .projectOwner => [.projectUpdate, .memberManage, .artifactRead, .artifactCreate,
      .artifactDelete, .jobCreate, .jobCancel, .jobRetry, .alignmentRun, .alignmentReview,
      .evaluationRun, .traceRead, .auditProjectRead, .resultRead]
  | .editor => [.artifactRead, .artifactCreate, .jobCreate, .jobCancel, .jobRetry, .alignmentRun,
      .evaluationRun, .traceRead, .resultRead]
  | .reviewer => [.artifactRead, .alignmentReview, .goldReview, .traceRead, .resultRead]
  | .viewer => [.artifactRead, .resultRead, .traceRead]

structure AccessContext where
  actorId : String
  workspaceId : String
  projectId : Option String
  workspaceRole : WorkspaceRole
  projectRole : Option ProjectRole := none
  explicitPermissions : List Permission := []
  deriving DecidableEq

/-- `DefaultAccessPolicy.require`. -/
def require (context : AccessContext) (permission : Permission) : Except ApiError Unit :=
  if permission ∈ context.explicitPermissions then .ok ()
  else if Permission.every ∈ workspacePermissions context.workspaceRole then .ok ()
  else if permission ∈ sensitivePermissions then .error .accessDenied
  else if permission ∈ workspacePermissions context.workspaceRole then .ok ()
  else if (∃ projectId ∈ context.projectId, projectId ≠ "") ∧
      ∃ role ∈ context.projectRole, permission ∈ projectPermissions role then .ok ()
  else .error .accessDenied

def AccessContext.GrantedAbove (context : AccessContext) (permission : Permission) : Prop :=
  require { context with projectRole := none } permission = .ok ()

instance (context : AccessContext) (permission : Permission) :
    Decidable (context.GrantedAbove permission) :=
  inferInstanceAs (Decidable (_ = _))

theorem projectRole_of_require {context : AccessContext} {permission : Permission}
    (h : require context permission = .ok ()) (habove : ¬ context.GrantedAbove permission) :
    ∃ role, context.projectRole = some role := by
  rw [← Option.isSome_iff_exists, ← Option.ne_none_iff_isSome]
  intro hnone
  have hsame : { context with projectRole := none } = context := by rw [← hnone]
  rw [AccessContext.GrantedAbove, hsame] at habove
  exact habove h

open ControlPlane (Timestamp)

inductive MembershipStatus
  | active | suspended | revoked
  deriving DecidableEq

/-- A row of `workspaces`; `active` says that its status is `active`. -/
structure WorkspaceRow where
  workspaceId : String
  name : String
  active : Bool
  deriving DecidableEq

/-- A row of `projects`. -/
structure ProjectRow where
  projectId : String
  workspaceId : String
  name : String
  active : Bool
  deriving DecidableEq

structure WorkspaceMembership where
  workspaceId : String
  userId : String
  role : WorkspaceRole
  status : MembershipStatus := .active
  deriving DecidableEq

structure ProjectMembership where
  projectId : String
  workspaceId : String
  userId : String
  role : ProjectRole
  status : MembershipStatus := .active
  deriving DecidableEq

structure ProjectAccessGrant where
  workspaceId : String
  projectId : String
  userId : String
  permission : Permission
  expiresAt : Option Timestamp
  deriving DecidableEq

def WorkspaceMembership.key (m : WorkspaceMembership) : String × String :=
  (m.workspaceId, m.userId)

def ProjectMembership.key (m : ProjectMembership) : String × String := (m.projectId, m.userId)

structure Directory where
  workspaces : Table WorkspaceRow.workspaceId
  projects : Table ProjectRow.projectId
  workspaceMemberships : Table WorkspaceMembership.key
  projectMemberships : Table ProjectMembership.key
  grants : List ProjectAccessGrant

namespace Directory

def ofGrants (grants : List ProjectAccessGrant) : Directory :=
  ⟨.empty, .empty, .empty, .empty, grants⟩

def HasProject (d : Directory) (workspaceId projectId : String) : Prop :=
  ∃ p ∈ d.projects.rows, p.projectId = projectId ∧ p.workspaceId = workspaceId ∧ p.active = true

instance (d : Directory) (workspaceId projectId : String) :
    Decidable (d.HasProject workspaceId projectId) :=
  inferInstanceAs (Decidable (∃ p ∈ d.projects.rows, _))

/-- `create_workspace`. -/
def createWorkspace (workspaceId name ownerUserId : String) (d : Directory) :
    Except ApiError Directory := do
  let workspaces ← orError .other (d.workspaces.insert ⟨workspaceId, name, true⟩)
  let workspaceMemberships ← orError .other
    (d.workspaceMemberships.insert { workspaceId, userId := ownerUserId, role := .owner })
  return { d with workspaces, workspaceMemberships }

/-- `create_project`. -/
def createProject (projectId workspaceId name ownerUserId : String) (d : Directory) :
    Except ApiError Directory := do
  ensure (∃ w ∈ d.workspaces.find? workspaceId, w.active = true) .other
  let projects ← orError .other (d.projects.insert ⟨projectId, workspaceId, name, true⟩)
  let projectMemberships ← orError .other (d.projectMemberships.insert
    { projectId, workspaceId, userId := ownerUserId, role := .projectOwner })
  return { d with projects, projectMemberships }

/-- `get_memberships`, `none` if the access to the workspace is denied. -/
def getMemberships (d : Directory) (userId workspaceId : String) (projectId : Option String) :
    Option (WorkspaceMembership × Option ProjectMembership) :=
  (d.workspaceMemberships.rows.find? fun m =>
      m.workspaceId = workspaceId ∧ m.userId = userId ∧ m.status = .active).map fun workspace =>
    (workspace, (projectId.filter (· ≠ "")).bind fun projectId =>
      d.projectMemberships.rows.find? fun m => m.projectId = projectId ∧
        m.workspaceId = workspaceId ∧ m.userId = userId ∧ m.status = .active)

/-- `get_explicit_permissions`. -/
def getExplicitPermissions (d : Directory) (userId workspaceId : String)
    (projectId : Option String) (now : Timestamp) : List Permission :=
  match projectId with
  | none => []
  | some projectId =>
    (d.grants.filter fun g => g.workspaceId = workspaceId ∧ g.projectId = projectId ∧
      g.userId = userId ∧ ∀ expiry ∈ g.expiresAt, now < expiry).map ProjectAccessGrant.permission

/-- `_access_context`. -/
def accessContext (d : Directory) (userId workspaceId : String) (projectId : Option String)
    (now : Timestamp) : Except ApiError AccessContext :=
  match d.getMemberships userId workspaceId projectId with
  | none => .error (.http 404 "resource_not_found")
  | some (workspace, project) => .ok
      { actorId := userId
        workspaceId
        projectId
        workspaceRole := workspace.role
        projectRole := project.map ProjectMembership.role
        explicitPermissions := d.getExplicitPermissions userId workspaceId projectId now }

def listed {ρ : Type} (name key : ρ → String) (rows : List ρ) : List ρ :=
  rows.insertionSort fun a b => name a < name b ∨ name a = name b ∧ key a ≤ key b

/-- `list_workspaces_for_user`. -/
def listWorkspacesForUser (d : Directory) (userId : String) : List WorkspaceRow :=
  listed WorkspaceRow.name WorkspaceRow.workspaceId <| d.workspaces.rows.filter fun w =>
    w.active ∧ ∃ m ∈ d.workspaceMemberships.rows,
      m.workspaceId = w.workspaceId ∧ m.userId = userId ∧ m.status = .active

/-- `list_projects_for_user`, `none` if the access to the workspace is denied. -/
def listProjectsForUser (d : Directory) (userId workspaceId : String) :
    Option (List ProjectRow) :=
  (d.getMemberships userId workspaceId none).map fun (workspace, _) =>
    listed ProjectRow.name ProjectRow.projectId <| d.projects.rows.filter fun p =>
      p.workspaceId = workspaceId ∧ p.active ∧
        (workspace.role ∈ [WorkspaceRole.owner, .admin] ∨ ∃ m ∈ d.projectMemberships.rows,
          m.projectId = p.projectId ∧ m.workspaceId = p.workspaceId ∧ m.userId = userId ∧
            m.status = .active)

/-- `_ensure_local_default_scope`, with the tables that it leaves if it raises. -/
def ensureLocalDefaultScope (userId workspaceHex projectHex : String) (d : Directory) :
    Directory :=
  let d :=
    if d.listWorkspacesForUser userId = [] then
      (d.createWorkspace ("ws_" ++ workspaceHex) "Local Workspace" userId).toOption.getD d
    else d
  match (d.listWorkspacesForUser userId).head? with
  | none => d
  | some workspace =>
    if d.listProjectsForUser userId workspace.workspaceId = some [] then
      (d.createProject ("project_" ++ projectHex) workspace.workspaceId "Default Project"
        userId).toOption.getD d
    else d

end Directory

end CodeResearch.Api
