import CodeResearch.Api.Submissions
import CodeResearch.Artifacts.UploadSpec
import CodeResearch.ControlPlane.Submission

/-!
# The scope of workspaces

What a role in a project admits belongs to a project of the workspace, as members are
entered with their project only. What a role in the workspace or a grant admits is
stored under any project id of the path.
-/
namespace CodeResearch.Api

open Artifacts (ArtifactRecord World Env Site UploadRequest)
open ControlPlane (Timestamp JobRecord Store JobType)

namespace Directory

def Closed (d : Directory) : Prop :=
  ∀ m ∈ d.projectMemberships.rows, d.HasProject m.workspaceId m.projectId

/-- A directory that grows keeps its projects, and its members stay with theirs. -/
structure Grows (d e : Directory) : Prop where
  projects : ∀ p ∈ d.projects.rows, p ∈ e.projects.rows
  closed : d.Closed → e.Closed

variable {d e f : Directory}

variable {projectId workspaceId name userId : String}

theorem HasProject.grow (h : d.HasProject workspaceId projectId)
    (hgrows : d.Grows e) : e.HasProject workspaceId projectId := by
  obtain ⟨p, hp, hproject⟩ := h
  exact ⟨p, hgrows.projects p hp, hproject⟩

theorem Grows.refl (d : Directory) : d.Grows d := ⟨fun _ hp => hp, fun h => h⟩

theorem Grows.trans (h : d.Grows e) (h' : e.Grows f) : d.Grows f :=
  ⟨fun p hp => h'.projects p (h.projects p hp), fun hclosed => h'.closed (h.closed hclosed)⟩

theorem grows_createWorkspace
    (h : d.createWorkspace workspaceId name userId = .ok e) : d.Grows e := by
  simp only [createWorkspace, except_bind_eq_ok_iff, except_pure_eq_ok_iff] at h
  obtain ⟨_, _, _, _, rfl⟩ := h
  exact ⟨fun _ hp => hp, fun hclosed => hclosed⟩

theorem grows_createProject
    (h : d.createProject projectId workspaceId name userId = .ok e) : d.Grows e := by
  simp only [createProject, except_bind_eq_ok_iff, except_pure_eq_ok_iff,
    orError_eq_ok_iff] at h
  obtain ⟨_, _, projects, hprojects, memberships, hmemberships, rfl⟩ := h
  have hold : ∀ p ∈ d.projects.rows, p ∈ projects.rows := by
    intro p hp
    exact (Table.mem_insert hprojects p).mpr (.inl hp)
  refine ⟨hold, ?_⟩
  intro hclosed m hm
  rcases (Table.mem_insert hmemberships m).mp hm with hm | rfl
  · obtain ⟨p, hp, hproject⟩ := hclosed m hm
    exact ⟨p, hold p hp, hproject⟩
  · exact ⟨_, (Table.mem_insert hprojects _).mpr (.inr rfl), rfl, rfl, rfl⟩

theorem grows_getD {x : Except ApiError Directory} (h : ∀ e, x = .ok e → d.Grows e) :
    d.Grows (x.toOption.getD d) := by
  cases x with
  | ok e => exact h e rfl
  | error _ => exact .refl d

theorem grows_ensureLocalDefaultScope (d : Directory) (userId workspaceHex projectHex : String) :
    d.Grows (d.ensureLocalDefaultScope userId workspaceHex projectHex) := by
  unfold ensureLocalDefaultScope
  have hfirst : d.Grows (if d.listWorkspacesForUser userId = [] then
      (d.createWorkspace ("ws_" ++ workspaceHex) "Local Workspace" userId).toOption.getD d
    else d) := by
    split_ifs
    · exact grows_getD fun e => grows_createWorkspace
    · exact .refl d
  refine hfirst.trans ?_
  generalize (if d.listWorkspacesForUser userId = [] then _ else d) = e
  dsimp only
  cases (e.listWorkspacesForUser userId).head? with
  | none => exact .refl e
  | some workspace =>
    dsimp only
    split_ifs
    · exact grows_getD fun f => grows_createProject
    · exact .refl e

theorem hasProject_of_authorize {permission : Permission} {now : Timestamp} (hclosed : d.Closed)
    (h : d.authorize userId workspaceId projectId permission now = .ok ()) :
    d.AdmittedAbove userId workspaceId projectId permission now ∨
      d.HasProject workspaceId projectId := by
  simp only [authorize, except_bind_eq_ok_iff] at h
  obtain ⟨context, hcontext, hrequire⟩ := h
  split at hrequire
  · rename_i u hgranted
    by_cases habove : context.GrantedAbove permission
    · exact .inl ⟨context, hcontext, habove⟩
    · obtain ⟨role, hrole⟩ := projectRole_of_require hgranted habove
      right
      unfold accessContext at hcontext
      split at hcontext
      · cases hcontext
      · rename_i workspace project hmemberships
        cases hcontext
        obtain ⟨m, rfl, _⟩ := Option.map_eq_some_iff.mp hrole
        obtain ⟨_, _, hpair⟩ := Option.map_eq_some_iff.mp hmemberships
        obtain ⟨id, hid, hfound⟩ := Option.bind_eq_some_iff.mp (Prod.mk.inj hpair).2
        obtain ⟨hid, _⟩ := Option.filter_eq_some_iff.mp hid
        cases hid
        have hkey := List.find?_some hfound
        obtain ⟨hproject, hworkspace, _⟩ := of_decide_eq_true hkey
        rw [← hproject, ← hworkspace]
        exact hclosed m (List.mem_of_find?_eq_some hfound)
  · cases hrequire

end Directory

section Config

variable (cfg : ApiConfig)

def SubmitCall.Stores (call : SubmitCall) (s : ApiState) : Prop :=
  call.accepting = true ∧ call.body.jobType ∉ [some .backup, some .restore] ∧
    ∃ jobType refs, call.body.jobType = some jobType ∧
      references s.artifacts call.workspaceId call.projectId call.body = .ok refs ∧
      s.jobs.findIdempotent call.workspaceId (cfg.stableHash call.body.idempotencyKey) = none ∧
      s.jobs.Accepts cfg.stableHash
        (call.submission cfg jobType (cfg.payloadText call.body refs.1 refs.2)) call.ids call.now

namespace ApiState

/-- Every job and artifact belongs to an active project of its workspace. -/
structure Scoped (s : ApiState) : Prop where
  jobs : ∀ j ∈ s.jobs.jobs.rows, ∃ projectId, j.projectId = some projectId ∧
    s.directory.HasProject j.workspaceId projectId
  artifacts : ∀ r ∈ s.artifacts.records.rows, s.directory.HasProject r.workspaceId r.projectId

/-- In every run whose steps meet the guard, jobs and artifacts are scoped. -/
def ScopeClosed (G : ApiState → Label → Prop) : Prop :=
  ∀ grants labels s, (machine cfg).Run G (.init grants) labels s → s.Scoped

/-- No submission or upload that stores something is admitted by the role in the workspace
or by a grant for a project that is no active project of the workspace. -/
def Spares (s : ApiState) : Label → Prop
  | .submitJob call =>
    s.directory.AdmittedAbove call.userId call.workspaceId call.projectId
      (permissionForJobType call.body.jobType) call.now → call.Stores cfg s →
        s.directory.HasProject call.workspaceId call.projectId
  | .uploadArtifact call =>
    s.directory.AdmittedAbove call.userId call.req.workspaceId call.req.projectId
      .artifactCreate call.now → call.env.StoresUpload call.req →
        s.directory.HasProject call.req.workspaceId call.req.projectId
  | _ => True

structure Inv (s : ApiState) : Prop where
  closed : s.directory.Closed
  inScope : s.Scoped

theorem inv_init (grants : List ProjectAccessGrant) : Inv (.init grants) := by
  refine ⟨?_, ?_, ?_⟩ <;> simp [init, Directory.ofGrants, Directory.Closed, Store.empty]

variable {cfg} {s : ApiState}

theorem Inv.grow (h : Inv s) {directory : Directory} (hgrows : s.directory.Grows directory) :
    Inv { s with directory } := by
  refine ⟨hgrows.closed h.closed, ?_, ?_⟩
  · intro j hj
    obtain ⟨projectId, hproject, hhas⟩ := h.inScope.jobs j hj
    exact ⟨projectId, hproject, hhas.grow hgrows⟩
  · intro r hr
    exact (h.inScope.artifacts r hr).grow hgrows

theorem Inv.withJobs (h : Inv s) {jobs : Store}
    (hjobs : ∀ j ∈ jobs.jobs.rows, (∃ old ∈ s.jobs.jobs.rows, old.workspaceId = j.workspaceId ∧
      old.projectId = j.projectId) ∨ ∃ projectId, j.projectId = some projectId ∧
        s.directory.HasProject j.workspaceId projectId) : Inv { s with jobs } := by
  refine ⟨h.closed, ?_, h.inScope.artifacts⟩
  intro j hj
  rcases hjobs j hj with ⟨old, hold, hworkspace, hproject⟩ | hnew
  · obtain ⟨projectId, hid, hhas⟩ := h.inScope.jobs old hold
    exact ⟨projectId, hproject ▸ hid, hworkspace ▸ hhas⟩
  · exact hnew

variable {ids : ControlPlane.JobIds} {now : Timestamp} {jobId projectId userId workspaceId : String}

/-- The rows after `create_job`. -/
theorem mem_createJob {sub : ControlPlane.JobSubmission} {t : Store} {j : JobRecord}
    (hj : j ∈ (ControlPlane.createJob cfg.stableHash sub ids now t).2.jobs.rows) :
    j ∈ t.jobs.rows ∨ (j.workspaceId = sub.workspaceId ∧ j.projectId = sub.projectId) ∧
      t.findIdempotent sub.workspaceId (cfg.stableHash sub.idempotencyKey) = none ∧
        t.Accepts cfg.stableHash sub ids now := by
  unfold ControlPlane.createJob at hj
  cases hfind : t.findIdempotent sub.workspaceId (cfg.stableHash sub.idempotencyKey) with
  | some job =>
    rw [hfind] at hj
    rcases ControlPlane.commit_cases t
      (ControlPlane.replayJob job (cfg.stableHash sub.requestJson) t) with ⟨e, h⟩ | ⟨c, u, hx, h⟩
    · exact .inl (by rwa [h] at hj)
    · rw [h, (ControlPlane.replayJob_ok hx).2] at hj
      exact .inl hj
  | none =>
    rw [hfind] at hj
    rcases ControlPlane.commit_cases t
      (ControlPlane.insertNewJob cfg.stableHash sub ids now t) with ⟨e, h⟩ | ⟨c, u, hx, h⟩
    · exact .inl (by rwa [h] at hj)
    · rw [h] at hj
      have hins := (ControlPlane.insertNewJob_ok cfg.stableHash hx).1
      rcases (Table.mem_insert hins.jobs j).mp hj with hold | rfl
      · exact .inl hold
      · exact .inr ⟨⟨rfl, rfl⟩, rfl, ControlPlane.accepts_of_insertNewJob hx⟩

/-- A submission that passes its checks stores jobs of its project only. -/
theorem Inv.submitJob (h : Inv s) {call : SubmitCall} (hspares : s.Spares cfg (.submitJob call)) :
    Inv (s.submitJob cfg call).2 := by
  unfold ApiState.submitJob
  cases hcheck : call.check s with
  | error e => exact h
  | ok refs =>
    obtain ⟨repository, paper⟩ := refs
    have hrows : Inv { s with
        jobs := (call.create cfg (cfg.payloadText call.body repository paper) s.jobs).2 } := by
      simp only [SubmitCall.check, except_bind_eq_ok_iff, ensure_eq_ok_iff] at hcheck
      obtain ⟨_, hauthorize, _, hbackup, _, hrestore, hreferences⟩ := hcheck
      apply h.withJobs
      intro j hj
      unfold SubmitCall.create at hj
      split_ifs at hj with haccepting
      · exact .inl ⟨j, hj, rfl, rfl⟩
      split at hj
      · rename_i jobType htype
        rcases mem_createJob hj with hold | ⟨⟨hworkspace, hproject⟩, hfresh, haccepts⟩
        · exact .inl ⟨j, hold, rfl, rfl⟩
        · refine .inr ⟨call.projectId, hproject, ?_⟩
          rw [hworkspace]
          rcases Directory.hasProject_of_authorize h.closed hauthorize with habove | hhas
          · refine hspares habove ⟨by simpa using haccepting, ?_, jobType, _, htype, hreferences,
              hfresh, haccepts⟩
            simp [hbackup, hrestore]
          · exact hhas
      · rcases ControlPlane.commit_cases s.jobs _ with ⟨e, hcommit⟩ | ⟨c, u, hx, hcommit⟩
        · rw [hcommit] at hj
          exact .inl ⟨j, hj, rfl, rfl⟩
        · rw [hcommit] at hj
          split at hx
          · rw [(ControlPlane.replayJob_ok hx).2] at hj
            exact .inl ⟨j, hj, rfl, rfl⟩
          · cases hx
    dsimp only
    split <;> rename_i heq <;> rwa [heq] at hrows

/-- An upload that passes its check stores artifacts of its project only. -/
theorem Inv.uploadArtifact (h : Inv s) {call : UploadCall}
    (hspares : s.Spares cfg (.uploadArtifact call)) : Inv (s.uploadArtifact cfg call) := by
  unfold ApiState.uploadArtifact
  split
  · exact h
  · rename_i u hauthorize
    refine ⟨h.closed, h.inScope.jobs, ?_⟩
    intro r hr
    rcases Artifacts.uploadArtifact_records cfg.store call.env call.req s.artifacts with
      hsame | ⟨hadds, hstores⟩
    · exact h.inScope.artifacts r (by rwa [hsame] at hr)
    · rcases hadds r hr with hold | ⟨hworkspace, hproject⟩
      · exact h.inScope.artifacts r hold
      · change s.directory.HasProject r.workspaceId r.projectId
        rw [hworkspace, hproject]
        rcases Directory.hasProject_of_authorize h.closed hauthorize with habove | hhas
        · exact hspares habove hstores
        · exact hhas

theorem Inv.cancelJob (h : Inv s) : Inv (s.cancelJob userId workspaceId projectId jobId now) := by
  unfold ApiState.cancelJob
  split
  · exact h
  · split_ifs
    · exact h
    · apply h.withJobs
      intro j hj
      rcases ControlPlane.requestCancel_cases jobId now s.jobs with heq | ⟨job, hjob, _, _, _, heq⟩
      · rw [heq] at hj
        exact .inl ⟨j, hj, rfl, rfl⟩
      · rw [heq] at hj
        have hkey : job.jobId = jobId := Table.find?_key hjob
        rcases (Table.mem_replace (by rw [← hkey] at hjob; exact Option.isSome_of_eq_some hjob) j).mp hj with rfl | ⟨hold, _⟩
        · exact .inl ⟨job, Table.find?_mem hjob, rfl, rfl⟩
        · exact .inl ⟨j, hold, rfl, rfl⟩

theorem Inv.retryJob (h : Inv s) {manualHex : String} :
    Inv (s.retryJob cfg userId workspaceId projectId jobId manualHex ids now) := by
  unfold ApiState.retryJob
  split
  · exact h
  · apply h.withJobs
    intro j hj
    unfold ControlPlane.createManualRetry at hj
    split at hj
    · exact .inl ⟨j, hj, rfl, rfl⟩
    · rename_i job hjob
      split_ifs at hj
      · split at hj
        · exact .inl ⟨j, hj, rfl, rfl⟩
        · rcases mem_createJob hj with hold | ⟨⟨hworkspace, hproject⟩, _⟩
          · exact .inl ⟨j, hold, rfl, rfl⟩
          · exact .inl ⟨job, Table.find?_mem hjob, hworkspace.symm, hproject.symm⟩
      · exact .inl ⟨j, hj, rfl, rfl⟩

theorem Inv.onDirectory (h : Inv s) {f : Directory → Except ApiError Directory}
    (hf : ∀ d, f s.directory = .ok d → s.directory.Grows d) : Inv (s.onDirectory f) := by
  unfold ApiState.onDirectory
  split
  · rename_i directory hdirectory
    exact h.grow (hf directory hdirectory)
  · exact h

theorem Inv.step (h : Inv s) {a : Label} {t : ApiState} (hspares : s.Spares cfg a)
    (hstep : s.step cfg a = some t) : Inv t := by
  cases a with
  | createWorkspace userId name hex =>
    cases hstep
    exact h.onDirectory fun d => Directory.grows_createWorkspace
  | createProject userId workspaceId name hex now =>
    cases hstep
    apply h.onDirectory
    intro d hd
    simp only [createProject, except_bind_eq_ok_iff] at hd
    obtain ⟨_, _, _, _, hcreate⟩ := hd
    exact Directory.grows_createProject hcreate
  | createLocalSession userId workspaceHex projectHex =>
    cases hstep
    exact h.grow (Directory.grows_ensureLocalDefaultScope _ _ _ _)
  | submitJob call =>
    cases hstep
    exact h.submitJob hspares
  | uploadArtifact call =>
    cases hstep
    exact h.uploadArtifact hspares
  | cancelJob userId workspaceId projectId jobId now =>
    cases hstep
    exact h.cancelJob
  | retryJob userId workspaceId projectId jobId manualHex ids now =>
    cases hstep
    exact h.retryJob
  | work jobs =>
    unfold ApiState.step at hstep
    dsimp only at hstep
    split_ifs at hstep with hworked
    cases hstep
    apply h.withJobs
    intro j hj
    obtain ⟨old, hold, _, hscope⟩ := hworked j hj
    exact .inl ⟨old, hold, hscope⟩

/-- Jobs and artifacts belong to projects of their workspace as long as the role in the
workspace and grants admit to these only. -/
theorem scopeClosed_of_spares (cfg : ApiConfig) : ScopeClosed cfg (Spares cfg) := by
  intro grants labels s hrun
  have hinv : Inv s := Machine.Run.invariant Inv
    (fun _ _ _ h hspares hstep => h.step hspares hstep) hrun (inv_init grants)
  exact hinv.inScope

def sampleConfig : ApiConfig where
  stableHash := id
  store := Artifacts.sampleStore
  payloadText := fun body _ _ => body.payload
  queueName := fun _ => "cra.research"

def foreignSubmission : SubmitCall where
  userId := "owner"
  workspaceId := "ws_1"
  projectId := "project_3"
  body := ⟨some .research, .missing, .missing, "", "idempotency"⟩
  accepting := true
  ids := ⟨⟨"1", "1", "1"⟩, "1", "1", "1"⟩
  now := 2

theorem foreignSubmission_stored : ¬ ScopeClosed sampleConfig Machine.Free := by
  intro h
  obtain ⟨s, hs, j, hj, hforeign⟩ : ∃ s ∈ (machine sampleConfig).exec Machine.Free (.init [])
      [.createWorkspace "owner" "first" "1", .createWorkspace "other" "second" "2",
        .createProject "other" "ws_2" "project" "3" 1, .submitJob foreignSubmission],
      ∃ j ∈ s.jobs.jobs.rows, ∀ projectId ∈ j.projectId,
        ¬ s.directory.HasProject j.workspaceId projectId := by decide +kernel
  obtain ⟨projectId, hproject, hhas⟩ := (h [] _ s (Machine.run_of_exec hs)).jobs j hj
  exact hforeign projectId hproject hhas

end ApiState

end Config

end CodeResearch.Api
