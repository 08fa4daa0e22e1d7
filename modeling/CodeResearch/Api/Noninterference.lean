import CodeResearch.Api.Reads
import CodeResearch.Api.Scope
import CodeResearch.Library.View

/-!
# What a reader sees of other workspaces

The endpoints for jobs, attempts and artifacts read through the view of the workspace
of their path: its rows, the blobs of its artifacts and the caller's place in it. The
endpoints of the evaluation store read all of that store, and show it to the owner of
any workspace and to nobody else.
-/
namespace CodeResearch.Api

open Artifacts (ArtifactRecord StoreConfig Bytes)
open ControlPlane (Timestamp JobRecord JobAttempt)
open Function (FactorsThrough)

/-- What a workspace owns, and the place of a user in it. -/
structure WorkspaceView where
  memberships : List WorkspaceMembership
  projectMemberships : List ProjectMembership
  grants : List ProjectAccessGrant
  jobs : List JobRecord
  attempts : List JobAttempt
  artifacts : List ArtifactRecord
  blobs : List (Option Bytes)
  deriving DecidableEq

def ReadState.OwnsAttempt (s : ReadState) (workspaceId : String) (a : JobAttempt) : Prop :=
  ∃ j ∈ s.jobs.jobs.rows, j.jobId = a.jobId ∧ j.workspaceId = workspaceId

instance (s : ReadState) (workspaceId : String) (a : JobAttempt) :
    Decidable (s.OwnsAttempt workspaceId a) :=
  inferInstanceAs (Decidable (∃ j ∈ s.jobs.jobs.rows, _))

def ReadState.view (cfg : StoreConfig) (workspaceId userId : String) (s : ReadState) :
    WorkspaceView where
  memberships := s.directory.workspaceMemberships.rows.filter fun m =>
    m.workspaceId = workspaceId ∧ m.userId = userId
  projectMemberships := s.directory.projectMemberships.rows.filter fun m =>
    m.workspaceId = workspaceId ∧ m.userId = userId
  grants := s.directory.grants.filter fun g => g.workspaceId = workspaceId ∧ g.userId = userId
  jobs := s.jobs.jobs.rows.filter fun j => j.workspaceId = workspaceId
  attempts := s.jobs.attempts.rows.filter fun a => s.OwnsAttempt workspaceId a
  artifacts := s.artifacts.records.rows.filter fun r => r.workspaceId = workspaceId
  blobs := (s.artifacts.records.rows.filter fun r => r.workspaceId = workspaceId).map fun r =>
    s.artifacts.blobAt cfg r.storageKey

namespace ReadCall

variable (cfg : ReadConfig) (call : ReadCall)

/-- What the caller may see of a state. -/
def view (s : ReadState) : WorkspaceView := s.view cfg.store call.workspaceId call.userId

/-- The caller owns the workspace of the path. -/
def Owner (s : ReadState) : Prop := call.requireWorkspaceOwner s = .ok ()

variable {cfg call}

theorem accessContext_view (now : Timestamp) : FactorsThrough (fun s : ReadState =>
    s.directory.accessContext call.userId call.workspaceId (some call.projectId) now)
      (call.view cfg) := by
  intro s t h
  have hworkspace : (s.directory.workspaceMemberships.rows.find? fun m =>
      m.workspaceId = call.workspaceId ∧ m.userId = call.userId ∧ m.status = .active) =
      t.directory.workspaceMemberships.rows.find? fun m =>
        m.workspaceId = call.workspaceId ∧ m.userId = call.userId ∧ m.status = .active := by
    apply find?_eq_of_part (congrArg WorkspaceView.memberships h)
    intro m hm
    simp only [decide_eq_true_eq] at hm ⊢
    exact ⟨hm.1, hm.2.1⟩
  have hproject : ∀ projectId, (s.directory.projectMemberships.rows.find? fun m =>
      m.projectId = projectId ∧ m.workspaceId = call.workspaceId ∧ m.userId = call.userId ∧
        m.status = .active) =
      t.directory.projectMemberships.rows.find? fun m => m.projectId = projectId ∧
        m.workspaceId = call.workspaceId ∧ m.userId = call.userId ∧ m.status = .active := by
    intro projectId
    apply find?_eq_of_part (congrArg WorkspaceView.projectMemberships h)
    intro m hm
    simp only [decide_eq_true_eq] at hm ⊢
    exact ⟨hm.2.1, hm.2.2.1⟩
  have hgrants : s.directory.getExplicitPermissions call.userId call.workspaceId
      (some call.projectId) now = t.directory.getExplicitPermissions call.userId call.workspaceId
        (some call.projectId) now := by
    apply congrArg (List.map ProjectAccessGrant.permission)
    apply filter_eq_of_part (congrArg WorkspaceView.grants h)
    intro g hg
    simp only [decide_eq_true_eq] at hg ⊢
    exact ⟨hg.1, hg.2.2.1⟩
  simp only [Directory.accessContext, Directory.getMemberships, hworkspace, hproject, hgrants]

theorem admit_view (permission : Permission) (errorCode : String) :
    FactorsThrough (call.authorize permission errorCode) (call.view cfg) :=
  factorsThrough_bind (accessContext_view call.now) fun _ => factorsThrough_const _

theorem requireWorkspaceOwner_view :
    FactorsThrough call.requireWorkspaceOwner (call.view cfg) :=
  factorsThrough_bind (accessContext_view call.now) fun _ => factorsThrough_const _

theorem storedJobs_view (limit : ℕ) : FactorsThrough (fun s : ReadState =>
    storedJobs s.jobs call.workspaceId call.projectId limit) (call.view cfg) := by
  intro s t h
  have hrows := filter_eq_of_part (q := fun j => decide (j.workspaceId = call.workspaceId ∧
    j.projectId = some call.projectId)) (congrArg WorkspaceView.jobs h) (by simp +contextual)
  simp only [storedJobs, hrows]

theorem readableJob_view (jobId : String) :
    FactorsThrough (call.readableJob jobId) (call.view cfg) := by
  apply factorsThrough_bind (admit_view .resultRead "job_not_found")
  intro _ s t h
  dsimp only
  rw [orError_ensure, orError_ensure,
    Table.filter_find?_eq_of_part (congrArg WorkspaceView.jobs h) (by simp +contextual) jobId]

variable {s t : ReadState} {r : ArtifactRecord} {read : EvaluationTables → Response}

theorem mem_of_readableJob {jobId : String} {job : JobRecord}
    (h : call.readableJob jobId s = .ok job) :
    job ∈ s.jobs.jobs.rows ∧ job.jobId = jobId ∧ job.workspaceId = call.workspaceId := by
  simp only [readableJob, except_bind_eq_ok_iff, orError_eq_ok_iff, ensure_eq_ok_iff,
    except_pure_eq_ok_iff] at h
  obtain ⟨_, _, job', hfound, _, hscope, rfl⟩ := h
  exact ⟨Table.find?_mem hfound, Table.find?_key hfound, hscope.1⟩

theorem listJobAttempts_view (jobId : String) :
    FactorsThrough (call.listJobAttempts jobId) (call.view cfg) := by
  apply factorsThrough_bind_of_ok (readableJob_view jobId)
  intro job s t h hs ht
  have hattempts : (s.jobs.attempts.rows.filter fun a => a.jobId = jobId) =
      t.jobs.attempts.rows.filter fun a => a.jobId = jobId := by
    have hpart : ∀ u : ReadState, call.readableJob jobId u = .ok job →
        u.jobs.attempts.rows.filter (fun a => a.jobId = jobId) =
          (u.jobs.attempts.rows.filter fun a => u.OwnsAttempt call.workspaceId a).filter
            fun a => a.jobId = jobId := by
      intro u hu
      obtain ⟨hmem, hkey, hworkspace⟩ := mem_of_readableJob hu
      rw [List.filter_filter]
      apply List.filter_congr
      intro a _
      by_cases ha : a.jobId = jobId
      · have howns : u.OwnsAttempt call.workspaceId a := ⟨job, hmem, hkey.trans ha.symm, hworkspace⟩
        simp [ha, howns]
      · simp [ha]
    have hview : (s.jobs.attempts.rows.filter fun a => s.OwnsAttempt call.workspaceId a) =
        t.jobs.attempts.rows.filter fun a => t.OwnsAttempt call.workspaceId a :=
      congrArg WorkspaceView.attempts h
    rw [hpart s hs, hpart t ht, hview]
  simp only [storedAttempts, hattempts]

theorem storedArtifacts_view (limit : ℤ) : FactorsThrough (fun s : ReadState =>
    storedArtifacts s.artifacts call.workspaceId call.projectId limit) (call.view cfg) := by
  intro s t h
  have hrows := filter_eq_of_part (q := fun r => decide (r.workspaceId = call.workspaceId ∧
    r.projectId = call.projectId)) (congrArg WorkspaceView.artifacts h) (by simp +contextual)
  simp only [storedArtifacts, hrows]

theorem scopedReadableArtifact_view (artifactId : String) :
    FactorsThrough (call.scopedReadableArtifact artifactId) (call.view cfg) := by
  apply factorsThrough_bind (admit_view .artifactRead "artifact_not_found")
  intro _ s t h
  dsimp only
  rw [orError_ensure, orError_ensure, Table.filter_find?_eq_of_part
    (congrArg WorkspaceView.artifacts h) (by simp +contextual) artifactId]

theorem mem_of_scopedReadableArtifact {artifactId : String}
    (h : call.scopedReadableArtifact artifactId s = .ok r) :
    r ∈ s.artifacts.records.rows ∧ r.workspaceId = call.workspaceId := by
  simp only [scopedReadableArtifact, except_bind_eq_ok_iff, orError_eq_ok_iff, ensure_eq_ok_iff,
    except_pure_eq_ok_iff] at h
  obtain ⟨_, _, r', hfound, _, hscope, rfl⟩ := h
  exact ⟨Table.find?_mem hfound, hscope.1⟩

theorem blobAt_view (h : call.view cfg s = call.view cfg t) (hr : r ∈ s.artifacts.records.rows)
    (hworkspace : r.workspaceId = call.workspaceId) :
    s.artifacts.blobAt cfg.store r.storageKey = t.artifacts.blobAt cfg.store r.storageKey := by
  have hartifacts : (s.artifacts.records.rows.filter fun r => r.workspaceId = call.workspaceId) =
      t.artifacts.records.rows.filter fun r => r.workspaceId = call.workspaceId :=
    congrArg WorkspaceView.artifacts h
  have hblobs : ((s.artifacts.records.rows.filter fun r => r.workspaceId = call.workspaceId).map
      fun r => s.artifacts.blobAt cfg.store r.storageKey) =
      (t.artifacts.records.rows.filter fun r => r.workspaceId = call.workspaceId).map
        fun r => t.artifacts.blobAt cfg.store r.storageKey := congrArg WorkspaceView.blobs h
  rw [← hartifacts] at hblobs
  exact List.map_inj_left.mp hblobs r (List.mem_filter.mpr ⟨hr, by simpa using hworkspace⟩)

theorem downloadArtifact_view (artifactId : String) :
    FactorsThrough (call.downloadArtifact cfg artifactId) (call.view cfg) := by
  apply factorsThrough_bind_of_ok (scopedReadableArtifact_view artifactId)
  intro r s t h hs _
  obtain ⟨hr, hworkspace⟩ := mem_of_scopedReadableArtifact hs
  have hblob := blobAt_view h hr hworkspace
  cases hpath : cfg.store.resolve r.storageKey with
  | error e => rfl
  | ok path =>
    rw [Artifacts.blobAt_ok cfg.store hpath, Artifacts.blobAt_ok cfg.store hpath] at hblob
    simp only [hblob]

theorem respond_view (h : ¬ call.endpoint.ReadsEvaluation) :
    FactorsThrough (call.respond cfg) (call.view cfg) := by
  unfold respond
  cases hendpoint : call.endpoint with
  | listJobs limit =>
    apply factorsThrough_bind (admit_view .resultRead "resource_not_found")
    intro _ s t hview
    exact congrArg (fun items => Except.ok (Response.jobs items)) (storedJobs_view _ hview)
  | getJob jobId =>
    exact factorsThrough_bind (readableJob_view jobId) fun _ => factorsThrough_const _
  | listJobAttempts jobId => exact listJobAttempts_view jobId
  | listArtifacts limit =>
    apply factorsThrough_bind (admit_view .artifactRead "resource_not_found")
    intro _ s t hview
    exact congrArg (fun items => Except.ok (Response.artifacts (items.map publicArtifact)))
      (storedArtifacts_view limit hview)
  | getArtifact artifactId =>
    exact factorsThrough_bind (scopedReadableArtifact_view artifactId) fun _ =>
      factorsThrough_const _
  | downloadArtifact artifactId => exact downloadArtifact_view artifactId
  | _ =>
    rw [hendpoint] at h
    exact absurd trivial h

variable (cfg) in
/-- The endpoints of the evaluation store differ in what they read of it only. -/
theorem respond_evaluation (h : call.endpoint.ReadsEvaluation) :
    ∃ read, ∀ call' : ReadCall, call'.endpoint = call.endpoint →
      call'.respond cfg = call'.readEvaluation cfg read := by
  cases hendpoint : call.endpoint with
  | listEvaluationRuns limit offset =>
    refine ⟨fun e => .evaluations (e.listRuns limit offset), ?_⟩
    intro call' hcall
    rw [respond, hcall]
    rfl
  | listEvaluationDatasets =>
    refine ⟨fun e => .evaluations e.listDatasets, ?_⟩
    intro call' hcall
    rw [respond, hcall]
    rfl
  | listEvaluationBaselines =>
    refine ⟨fun e => .evaluations e.listBaselineBindings, ?_⟩
    intro call' hcall
    rw [respond, hcall]
    rfl
  | listEvaluationComparisons limit =>
    refine ⟨fun e => .evaluations (e.listComparisons limit), ?_⟩
    intro call' hcall
    rw [respond, hcall]
    rfl
  | listEvaluationBadCases status limit offset =>
    refine ⟨fun e => .badCases (((e.listBadCases status).drop offset).take limit)
      (e.listBadCases status).length, ?_⟩
    intro call' hcall
    rw [respond, hcall]
    rfl
  | _ =>
    rw [hendpoint] at h
    exact h.elim

theorem readEvaluation_of_owner (h : call.Owner s) :
    call.readEvaluation cfg read s = evaluationStore cfg s >>= fun e => .ok (read e) := by
  rw [readEvaluation, h, except_bind_ok]
  rfl

theorem readEvaluation_of_not_owner
    (hview : call.view cfg s = call.view cfg t) (h : ¬ call.Owner s) :
    call.readEvaluation cfg read s = call.readEvaluation cfg read t := by
  have hsame := requireWorkspaceOwner_view hview
  cases hs : call.requireWorkspaceOwner s with
  | ok u => exact absurd hs h
  | error e =>
    rw [readEvaluation, readEvaluation, ← hsame, hs, except_bind_error, except_bind_error]

def Isolated (call : ReadCall) (s : ReadState) : Prop :=
  ∀ m ∈ s.directory.workspaceMemberships.rows, m.userId = call.userId →
    m.workspaceId = call.workspaceId

instance (call : ReadCall) (s : ReadState) : Decidable (call.Isolated s) :=
  inferInstanceAs (Decidable (∀ m ∈ s.directory.workspaceMemberships.rows, _))

variable (cfg)

/-- Nothing of other workspaces is visible through a workspace. -/
def Noninterference : Prop :=
  ∀ call : ReadCall, ∀ s t, call.view cfg s = call.view cfg t → call.Isolated s →
    call.Isolated t → call.respond cfg s = call.respond cfg t

/-- What is visible through a workspace: its own rows, and to its owner the evaluation
store, which is the same for the owners of all workspaces. -/
structure ReadsOwnRows : Prop where
  rows : ∀ call : ReadCall, ¬ call.endpoint.ReadsEvaluation →
    FactorsThrough (call.respond cfg) (call.view cfg)
  evaluation : ∀ call : ReadCall,
    FactorsThrough (call.respond cfg) fun s => (call.view cfg s, s.evaluation)
  others : ∀ call : ReadCall, ∀ s t, call.view cfg s = call.view cfg t → ¬ call.Owner s →
    call.respond cfg s = call.respond cfg t
  owners : ∀ call call' : ReadCall, ∀ s, call.endpoint.ReadsEvaluation →
    call'.endpoint = call.endpoint → call.Owner s → call'.Owner s →
      call'.respond cfg s = call.respond cfg s

theorem readsOwnRows : ReadsOwnRows cfg := by
  have hothers : ∀ call : ReadCall, ∀ s t, call.view cfg s = call.view cfg t →
      ¬ call.Owner s → call.respond cfg s = call.respond cfg t := by
    intro call s t hview howner
    by_cases hreads : call.endpoint.ReadsEvaluation
    · obtain ⟨read, hread⟩ := respond_evaluation cfg hreads
      rw [hread call rfl]
      exact readEvaluation_of_not_owner hview howner
    · exact respond_view hreads hview
  constructor
  · exact fun call => respond_view
  · intro call s t h
    obtain ⟨hview, hevaluation⟩ := Prod.mk.inj h
    by_cases howner : call.Owner s
    · by_cases hreads : call.endpoint.ReadsEvaluation
      · obtain ⟨read, hread⟩ := respond_evaluation cfg hreads
        have howner' : call.Owner t := (requireWorkspaceOwner_view hview).symm.trans howner
        rw [hread call rfl, readEvaluation_of_owner howner, readEvaluation_of_owner howner',
          evaluationStore, evaluationStore, hevaluation]
      · exact respond_view hreads hview
    · exact hothers call s t hview howner
  · exact hothers
  · intro call call' s hreads hsame howner howner'
    obtain ⟨read, hread⟩ := respond_evaluation cfg hreads
    rw [hread call rfl, hread call' hsame, readEvaluation_of_owner howner,
      readEvaluation_of_owner howner']

def twoWorkspaces (submissions : List SubmitCall) : ApiState :=
  submissions.foldl (fun s call => (s.submitJob ApiState.sampleConfig call).2) <|
    ((ApiState.init []).onDirectory (Directory.createWorkspace "ws_a" "first" "alice")).onDirectory
      (Directory.createWorkspace "ws_b" "second" "bob")

def evaluationSubmission : SubmitCall where
  userId := "alice"
  workspaceId := "ws_a"
  projectId := "project_a"
  body := ⟨some .evaluation, .missing, .missing, "", "idempotency"⟩
  accepting := true
  ids := ⟨⟨"1", "1", "1"⟩, "1", "1", "1"⟩
  now := 2

def noEvaluation : EvaluationTables := ⟨.empty, .empty, .empty, .empty, .empty⟩

def withoutRun : ReadState := ⟨twoWorkspaces [], noEvaluation⟩

def withRun : ReadState where
  toApiState := twoWorkspaces [evaluationSubmission]
  evaluation := { noEvaluation with runs := ⟨[⟨"eval_run_1", 3, "run"⟩], by simp⟩ }

def bobsListing : ReadCall where
  userId := "bob"
  workspaceId := "ws_b"
  projectId := "project_b"
  now := 4
  endpoint := .listEvaluationRuns ⟨100, by decide⟩ 0

theorem bobsListing_shows_run :
    ¬ Noninterference ⟨ApiState.sampleConfig.store, true, true⟩ := by
  intro h
  have hsame := h bobsListing withoutRun withRun (by decide +kernel) (by decide +kernel)
    (by decide +kernel)
  have hdiffer : bobsListing.respond ⟨ApiState.sampleConfig.store, true, true⟩ withoutRun ≠
      bobsListing.respond ⟨ApiState.sampleConfig.store, true, true⟩ withRun := by decide +kernel
  exact hdiffer hsame

end ReadCall

end CodeResearch.Api
