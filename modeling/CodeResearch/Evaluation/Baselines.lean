import CodeResearch.Evaluation.SharedPlans

/-!
# Baseline promotions

`BaselineService.promote` checks the run and the repetitions of a live trial, and the
store checks the run again, its dataset and its subject before it supersedes the active
binding of the scope and inserts the new one in a transaction. Neither looks at the mode
of the run or at the components of its plan, and the id of a binding is a digest of its
scope and its run.
-/
namespace CodeResearch.Evaluation

open ControlPlane (JobError Timestamp)
open DomainJobs (evaluationError EvaluationStatus)

inductive BindingStatus
  | active | superseded | retired
  deriving DecidableEq

/-- What a binding is the baseline of. -/
structure BaselineScope where
  datasetVersionId : String
  component : Component
  evaluationMode : EvaluationMode
  gateConfigVersion : String
  deriving DecidableEq

structure BaselineBinding extends BaselineScope where
  baselineBindingId : String
  datasetSourceProfile : String
  baselineRunId : String
  subjectId : String
  status : BindingStatus
  promotedByScopeHash : String
  promotionReasonCode : String
  createdAt : Timestamp
  promotedAt : Timestamp
  deriving DecidableEq

/-- The part of a gate configuration that promotions read. -/
structure GateConfig where
  gateConfigVersion : String
  minimumLiveRepeatCount : Option ℕ
  deriving DecidableEq

structure BaselineStore extends PlanStore where
  gateConfigs : Table GateConfig.gateConfigVersion
  bindings : Table BaselineBinding.baselineBindingId := .empty

/-- `stable_id` and `stable_hash` on what a promotion digests. -/
structure BaselineIds where
  bindingId : BaselineScope → String → String
  scopeHash : String → String
  subjectHash : SubjectType → Option String → String → String

/-- A call of the endpoint; the caller is the scope that promotes. -/
structure Promotion extends BaselineScope where
  baselineRunId : String
  promotedByScope : String
  promotionReasonCode : String
  deriving DecidableEq

/-- `formal_baseline_eligible`. -/
def EvaluationSubject.FormalBaselineEligible (subject : EvaluationSubject) : Prop :=
  subject.subjectType ∈ [SubjectType.codeCommit, .combined] ∧ subject.worktreePatchHash = none

instance (subject : EvaluationSubject) : Decidable subject.FormalBaselineEligible :=
  inferInstanceAs (Decidable (_ ∧ _))

namespace BaselineStore

/-- `gate_config.minimum_live_repeat_count or 2`. -/
def requiredRepeats (config : GateConfig) : ℕ :=
  match config.minimumLiveRepeatCount with
  | some (n + 1) => n + 1
  | _ => 2

def trials (s : PlanStore) (run : EvaluationRun) : List EvaluationRun :=
  match run.trialGroupId.filter (· ≠ "") with
  | some group => s.runs.rows.filter fun item => item.trialGroupId = some group
  | none => [run]

/-- `completed_indices`. -/
def completedIndices (s : PlanStore) (run : EvaluationRun) : Finset ℕ :=
  (((trials s run).filter fun item => item.status = .completed ∧ item.complete).filterMap
    EvaluationRun.repeatIndex).toFinset

def sources (s : PlanStore) (scope : BaselineScope) : List String :=
  (s.cases.rows.filter fun case => case.datasetVersionId = scope.datasetVersionId ∧
    case.component = scope.component).map fun case => case.source

/-- The one source of the cases, or `mixed`. -/
def sourceProfile : List String → String
  | [source] => source
  | _ => "mixed"

variable (ids : BaselineIds)

/-- `require_formal_baseline_subject`. -/
def requireFormalSubject (subject : EvaluationSubject) : Except JobError Unit := do
  ensure (ids.subjectHash subject.subjectType subject.worktreePatchHash subject.content =
    subject.subjectHash) (evaluationError "evaluation_subject_hash_mismatch" "")
  ensure subject.FormalBaselineEligible
    (evaluationError "formal_baseline_requires_clean_commit_subject" "")

def supersede (s : BaselineStore) (scope : BaselineScope) :
    Table BaselineBinding.baselineBindingId :=
  s.bindings.updateWhere (fun b => b.toBaselineScope = scope ∧ b.status = .active)
    (fun b => { b with status := .superseded }) fun _ => rfl

/-- `EvaluationStore.promote_baseline`. -/
def promoteBaseline (binding : BaselineBinding) (s : BaselineStore) :
    Except JobError BaselineStore := do
  let run ← orError (evaluationError "evaluation_run_not_found" binding.baselineRunId)
    (s.runs.find? binding.baselineRunId)
  let subject ← orError (evaluationError "evaluation_subject_not_found" binding.subjectId)
    (s.subjects.find? binding.subjectId)
  ensure (run.status = .completed ∧ run.complete)
    (evaluationError "baseline_run_incomplete" "")
  ensure (run.subjectId = binding.subjectId ∧ run.datasetVersionId = binding.datasetVersionId)
    (evaluationError "baseline_binding_identity_mismatch" "")
  requireFormalSubject ids subject
  ensure (∀ b ∈ (s.supersede binding.toBaselineScope).rows, binding.status = .active →
      b.status = .active → b.toBaselineScope ≠ binding.toBaselineScope)
    (.other none "IntegrityError")
  let bindings ← orError (.other none "IntegrityError")
    ((s.supersede binding.toBaselineScope).insert binding)
  return { s with bindings }

def newBinding (s : PlanStore) (call : Promotion) (run : EvaluationRun) (now : Timestamp) :
    BaselineBinding where
  toBaselineScope := call.toBaselineScope
  baselineBindingId := ids.bindingId call.toBaselineScope call.baselineRunId
  datasetSourceProfile := sourceProfile (sources s call.toBaselineScope).dedup
  baselineRunId := call.baselineRunId
  subjectId := run.subjectId
  status := .active
  promotedByScopeHash := ids.scopeHash call.promotedByScope
  promotionReasonCode := call.promotionReasonCode
  createdAt := now
  promotedAt := now

/-- `BaselineService.promote`, with the configuration that its endpoint reads. -/
def promote (call : Promotion) (now : Timestamp) (s : BaselineStore) :
    Except JobError (BaselineBinding × BaselineStore) := do
  let gateConfig ← orError (evaluationError "gate_config_not_found" call.gateConfigVersion)
    (s.gateConfigs.find? call.gateConfigVersion)
  let run ← orError (evaluationError "evaluation_run_not_found" call.baselineRunId)
    (s.runs.find? call.baselineRunId)
  ensure (run.status = .completed ∧ run.complete)
    (evaluationError "baseline_run_incomplete" call.baselineRunId)
  ensure (call.evaluationMode = .liveExperiment →
      requiredRepeats gateConfig ≤ (completedIndices s.toPlanStore run).card)
    (evaluationError "live_repeat_insufficient" call.baselineRunId)
  ensure (sources s.toPlanStore call.toBaselineScope ≠ [])
    (evaluationError "baseline_component_cases_missing" "")
  let binding := newBinding ids s.toPlanStore call run now
  let promoted ← promoteBaseline ids binding s
  return (binding, promoted)

end BaselineStore

inductive BaselineEvent
  | promote (call : Promotion) (now : Timestamp)
  | run (event : PlanEvent)

variable (ids : BaselineIds) (planIds : PlanIds)

/-- A promotion that raises is rolled back. -/
def baselineStep (s : BaselineStore) : BaselineEvent → BaselineStore
  | .promote call now =>
    match s.promote ids call now with
    | .ok (_, t) => t
    | .error _ => s
  | .run event => { s with toPlanStore := planStep planIds s.toPlanStore event }

namespace BaselineStore

variable {ids planIds} {s : BaselineStore} {scope : BaselineScope} {run : EvaluationRun}

/-- What the promotion checks of a run. -/
structure Admissible (ids : BaselineIds) (s : BaselineStore) (scope : BaselineScope)
    (run : EvaluationRun) : Prop where
  completed : run.status = .completed
  complete : run.complete = true
  dataset : run.datasetVersionId = scope.datasetVersionId
  repeats : ∃ config, s.gateConfigs.find? scope.gateConfigVersion = some config ∧
    (scope.evaluationMode = .liveExperiment →
      requiredRepeats config ≤ (completedIndices s.toPlanStore run).card)
  cases : sources s.toPlanStore scope ≠ []
  subject : ∃ subject, s.subjects.find? run.subjectId = some subject ∧
    requireFormalSubject ids subject = .ok ()

structure Matches (s : BaselineStore) (scope : BaselineScope) (run : EvaluationRun) : Prop where
  mode : run.mode = scope.evaluationMode
  component : ∃ p, s.plans.find? run.planId = some p ∧ scope.component ∈ p.components

/-- Each scope has at most one active binding, and every binding's run meets the conditions. -/
structure Sound (ids : BaselineIds) (s : BaselineStore) : Prop where
  unique : ∀ b ∈ s.bindings.rows, ∀ b' ∈ s.bindings.rows, b.status = .active →
    b'.status = .active → b.toBaselineScope = b'.toBaselineScope → b = b'
  eligible : ∀ b ∈ s.bindings.rows, ∃ run, s.runs.find? b.baselineRunId = some run ∧
    Admissible ids s b.toBaselineScope run ∧ Matches s b.toBaselineScope run

/-- The outcome of a promotion: the bindings stay sound, a rejected promotion changes none
of them, and a run that meets the conditions becomes the active baseline. -/
structure PromotesWell (ids : BaselineIds) (planIds : PlanIds) (s : BaselineStore)
    (call : Promotion) (now : Timestamp) : Prop where
  sound : Sound ids (baselineStep ids planIds s (.promote call now))
  rejected : ∀ e, s.promote ids call now = .error e →
    (baselineStep ids planIds s (.promote call now)).bindings = s.bindings
  accepted : ∀ run, s.runs.find? call.baselineRunId = some run →
    Admissible ids s call.toBaselineScope run → Matches s call.toBaselineScope run →
    ∃ b t, s.promote ids call now = .ok (b, t) ∧ b ∈ t.bindings.rows ∧
      b.toBaselineScope = call.toBaselineScope ∧ b.baselineRunId = call.baselineRunId ∧
        b.status = .active

def WellPromoted (ids : BaselineIds) (planIds : PlanIds) (s : BaselineStore) :
    BaselineEvent → Prop
  | .promote call now => PromotesWell ids planIds s call now
  | .run event => Sound ids (baselineStep ids planIds s (.run event))

/-- The condition on a promotion: a run that passes the checks is one of the mode and with
the component of the call, and its binding is not stored, as superseded or as active. -/
def Honest (ids : BaselineIds) (s : BaselineStore) : BaselineEvent → Prop
  | .promote call _ => ∀ run, s.runs.find? call.baselineRunId = some run →
    Admissible ids s call.toBaselineScope run →
    (Matches s call.toBaselineScope run ↔
      s.bindings.find? (ids.bindingId call.toBaselineScope call.baselineRunId) = none)
  | .run _ => True

variable {b : BaselineBinding} {call : Promotion} {t : BaselineStore} {u : PlanStore}

theorem mem_supersede (hb : b ∈ (s.supersede scope).rows) :
    ∃ old ∈ s.bindings.rows, b.toBaselineScope = old.toBaselineScope ∧
      b.baselineRunId = old.baselineRunId ∧
      (b.status = .active → b = old ∧ b.toBaselineScope ≠ scope) := by
  obtain ⟨old, hold, rfl⟩ := (Table.mem_updateWhere ..).mp hb
  refine ⟨old, hold, ?_⟩
  by_cases h : old.toBaselineScope = scope ∧ old.status = .active
  · rw [if_pos (by simpa using h)]
    exact ⟨rfl, rfl, fun h => by cases h⟩
  · rw [if_neg (by simpa using h)]
    exact ⟨rfl, rfl, fun hactive => ⟨rfl, fun hscope => h ⟨hscope, hactive⟩⟩⟩

variable (s scope) in
theorem keys_supersede : (s.supersede scope).rows.map BaselineBinding.baselineBindingId =
    s.bindings.rows.map BaselineBinding.baselineBindingId :=
  Table.map_updateWhere _ _ _ _ _ fun _ => rfl

/-- The inversion of a promotion. -/
theorem promote_eq_ok {now : Timestamp} (h : s.promote ids call now = .ok (b, t)) :
    ∃ run, s.runs.find? call.baselineRunId = some run ∧
      Admissible ids s call.toBaselineScope run ∧
      s.bindings.find? (ids.bindingId call.toBaselineScope call.baselineRunId) = none ∧
      b = newBinding ids s.toPlanStore call run now ∧
      t.toPlanStore = s.toPlanStore ∧ t.gateConfigs = s.gateConfigs ∧
      t.bindings.rows = (s.supersede call.toBaselineScope).rows ++ [b] := by
  unfold promote at h
  obtain ⟨config, hconfig, h⟩ := except_bind_eq_ok_iff.mp h
  obtain ⟨run, hrun, h⟩ := except_bind_eq_ok_iff.mp h
  obtain ⟨_, hcompleted, h⟩ := except_bind_eq_ok_iff.mp h
  obtain ⟨_, hrepeats, h⟩ := except_bind_eq_ok_iff.mp h
  obtain ⟨_, hsources, h⟩ := except_bind_eq_ok_iff.mp h
  obtain ⟨promoted, hpromoted, h⟩ := except_bind_eq_ok_iff.mp h
  cases h
  unfold promoteBaseline at hpromoted
  obtain ⟨run', hrun', hpromoted⟩ := except_bind_eq_ok_iff.mp hpromoted
  obtain ⟨subject, hsubject, hpromoted⟩ := except_bind_eq_ok_iff.mp hpromoted
  obtain ⟨_, _, hpromoted⟩ := except_bind_eq_ok_iff.mp hpromoted
  obtain ⟨_, hidentity, hpromoted⟩ := except_bind_eq_ok_iff.mp hpromoted
  obtain ⟨_, hformal, hpromoted⟩ := except_bind_eq_ok_iff.mp hpromoted
  obtain ⟨_, _, hpromoted⟩ := except_bind_eq_ok_iff.mp hpromoted
  obtain ⟨bindings, hbindings, hpromoted⟩ := except_bind_eq_ok_iff.mp hpromoted
  cases hpromoted
  rw [orError_eq_ok_iff] at hconfig hrun hrun' hsubject hbindings
  rw [ensure_eq_ok_iff] at hcompleted hrepeats hsources hidentity
  obtain rfl : run = run' := Option.some.inj (hrun.symm.trans hrun')
  refine ⟨run, hrun, ⟨hcompleted.1, hcompleted.2, hidentity.2, ⟨config, hconfig, hrepeats⟩, hsources,
    ⟨subject, hsubject, hformal⟩⟩, ?_, rfl, rfl, rfl, Table.rows_insert hbindings⟩
  rw [Table.find?_eq_none_iff, ← keys_supersede _ call.toBaselineScope]
  exact Table.insert_fresh hbindings

/-- A run that passes the checks is promoted when its binding is not stored. -/
theorem exists_promote (now : Timestamp) (hrun :
      s.runs.find? call.baselineRunId = some run)
    (hadmissible : Admissible ids s call.toBaselineScope run)
    (hfresh : s.bindings.find? (ids.bindingId call.toBaselineScope call.baselineRunId) = none) :
    ∃ t, s.promote ids call now = .ok (newBinding ids s.toPlanStore call run now, t) := by
  obtain ⟨config, hconfig, hrepeats⟩ := hadmissible.repeats
  obtain ⟨subject, hsubject, hformal⟩ := hadmissible.subject
  set binding := newBinding ids s.toPlanStore call run now with hbinding
  obtain ⟨bindings, hinsert⟩ : ∃ u, (s.supersede call.toBaselineScope).insert binding = some u := by
    apply Table.exists_insert
    rw [keys_supersede]
    exact s.bindings.find?_eq_none_iff.mp hfresh
  have hunique : ∀ b ∈ (s.supersede binding.toBaselineScope).rows, binding.status = .active →
      b.status = .active → b.toBaselineScope ≠ binding.toBaselineScope := by
    intro b hb _ hactive
    obtain ⟨_, _, _, _, h⟩ := mem_supersede hb
    exact (h hactive).2
  have hpromoted : promoteBaseline ids binding s = .ok { s with bindings } := by
    have hcompleted : run.status = .completed ∧ run.complete = true :=
      ⟨hadmissible.completed, hadmissible.complete⟩
    have hidentity : run.subjectId = binding.subjectId ∧
        run.datasetVersionId = binding.datasetVersionId := ⟨rfl, hadmissible.dataset⟩
    unfold promoteBaseline
    rw [show s.runs.find? binding.baselineRunId = some run from hrun, orError_some, except_bind_ok,
      show s.subjects.find? binding.subjectId = some subject from hsubject, orError_some,
      except_bind_ok, ensure_pos hcompleted, except_bind_ok, ensure_pos hidentity, except_bind_ok,
      hformal, except_bind_ok, ensure_pos hunique, except_bind_ok,
      show (s.supersede binding.toBaselineScope).insert binding = some bindings from hinsert,
      orError_some, except_bind_ok]
    rfl
  refine ⟨{ s with bindings }, ?_⟩
  unfold promote
  rw [hconfig, orError_some, except_bind_ok, hrun, orError_some, except_bind_ok,
    ensure_pos ⟨hadmissible.completed, hadmissible.complete⟩, except_bind_ok, ensure_pos hrepeats,
    except_bind_ok, ensure_pos hadmissible.cases, except_bind_ok, ← hbinding]
  dsimp only
  rw [hpromoted, except_bind_ok]
  rfl

theorem Admissible.congr (h : Admissible ids s scope run)
    (hstore : t.toPlanStore = s.toPlanStore) (hconfigs : t.gateConfigs = s.gateConfigs) :
    Admissible ids t scope run := by
  refine ⟨h.completed, h.complete, h.dataset, ?_, ?_, ?_⟩
  · rw [hstore, hconfigs]
    exact h.repeats
  · rw [hstore]
    exact h.cases
  · rw [hstore]
    exact h.subject

theorem Matches.congr (h : Matches s scope run)
    (hstore : t.toPlanStore = s.toPlanStore) : Matches t scope run := by
  refine ⟨h.mode, ?_⟩
  rw [hstore]
  exact h.component

/-- A promotion of a run that meets the conditions keeps the bindings sound. -/
theorem sound_promote (hs : Sound ids s) {now : Timestamp}
    (h : s.promote ids call now = .ok (b, t)) :
    Sound ids t ↔ ∀ run, s.runs.find? call.baselineRunId = some run →
      Matches s call.toBaselineScope run := by
  obtain ⟨run, hrun, hadmissible, _, rfl, hstore, hconfigs, hrows⟩ := promote_eq_ok h
  constructor
  · intro ht run' hrun'
    obtain ⟨found, hfound, _, hmatches⟩ := ht.eligible (newBinding ids s.toPlanStore call run now)
      (by rw [hrows]; simp)
    rw [hstore] at hfound
    obtain rfl : found = run' := Option.some.inj (hfound.symm.trans hrun')
    exact hmatches.congr hstore.symm
  · intro hmatches
    constructor
    · intro x hx y hy hxa hya hscope
      rw [hrows, List.mem_append, List.mem_singleton] at hx hy
      rcases hx with hx | rfl <;> rcases hy with hy | rfl
      · obtain ⟨old, hold, _, _, hactive⟩ := mem_supersede hx
        obtain ⟨old', hold', _, _, hactive'⟩ := mem_supersede hy
        obtain ⟨rfl, _⟩ := hactive hxa
        obtain ⟨rfl, _⟩ := hactive' hya
        exact hs.unique x hold y hold' hxa hya hscope
      · obtain ⟨_, _, _, _, hactive⟩ := mem_supersede hx
        exact absurd hscope (hactive hxa).2
      · obtain ⟨_, _, _, _, hactive⟩ := mem_supersede hy
        exact absurd hscope.symm (hactive hya).2
      · rfl
    · intro x hx
      rw [hrows, List.mem_append, List.mem_singleton] at hx
      rcases hx with hx | rfl
      · obtain ⟨old, hold, hscope, hid, _⟩ := mem_supersede hx
        obtain ⟨found, hfound, hadm, hmat⟩ := hs.eligible old hold
        rw [← hid] at hfound
        rw [← hscope] at hadm hmat
        refine ⟨found, ?_, hadm.congr hstore hconfigs, hmat.congr hstore⟩
        rw [hstore]
        exact hfound
      · refine ⟨run, ?_, hadmissible.congr hstore hconfigs, (hmatches run hrun).congr hstore⟩
        rw [hstore]
        exact hrun

/-- A step of the runs keeps the record of a run that has ended. -/
theorem find?_planStep_of_terminal (hu : u.Planned planIds) {id : String}
    (hrun : u.runs.find? id = some run) (hterminal : run.status.Terminal) (event : PlanEvent) :
    (planStep planIds u event).runs.find? id = some run := by
  cases event with
  | prepare request index now =>
    rw [planStep]
    rcases prepareRun_outcome request index now hu with
      ⟨e, _, h⟩ | ⟨r, v, _, hdef, hout⟩
    · rw [h]
      exact hrun
    · rw [← hdef.runs] at hrun
      generalize ((prepareRun planIds request index now).runOn u).1 = result at hout
      generalize ((prepareRun planIds request index now).runOn u).2 = t at hout ⊢
      cases hout with
      | reused | notRetried | invalid => exact hrun
      | taken h hattempt hlive hplan hstored hne =>
        rw [(PlanStore.runs_of_withPlan hplan).1]
        exact hrun
      | repeated h hattempt hlive hplan hstored =>
        rw [(PlanStore.runs_of_withPlan hplan).1]
        exact hrun
      | created h hattempt hlive hplan hnew hruns => exact Table.find?_insert_of_some hruns hrun
  | update runId progress =>
    cases h : u.updateRun runId progress with
    | error e =>
      rw [planStep, h]
      exact hrun
    | ok t =>
      rw [planStep, h]
      unfold PlanStore.updateRun at h
      obtain ⟨current, hcurrent, h⟩ := except_bind_eq_ok_iff.mp h
      obtain ⟨_, _, h⟩ := except_bind_eq_ok_iff.mp h
      obtain ⟨_, _, h⟩ := except_bind_eq_ok_iff.mp h
      obtain ⟨_, hopen, h⟩ := except_bind_eq_ok_iff.mp h
      rw [orError_eq_ok_iff] at hcurrent
      rw [ensure_eq_ok_iff] at hopen
      cases h
      have hown : current.runId = runId := Table.find?_key hcurrent
      have hne : id ≠ (current.progress progress).runId := by
        rintro rfl
        have hfound : u.runs.find? (current.progress progress).runId = some current := by
          rw [show (current.progress progress).runId = runId from hown]
          exact hcurrent
        obtain rfl : run = current := Option.some.inj (hrun.symm.trans hfound)
        exact hopen hterminal
      exact (Table.find?_replace_of_ne _ hne).trans hrun

theorem mem_trials {item : EvaluationRun} (hitem : item ∈ trials u run)
    (hrun : run ∈ u.runs.rows) : item ∈ u.runs.rows := by
  unfold trials at hitem
  split at hitem
  · exact (List.mem_filter.mp hitem).1
  · exact List.mem_singleton.mp hitem ▸ hrun

/-- The completed repetitions of a group only grow. -/
theorem completedIndices_planStep (hu : u.Planned planIds)
    (hrun : run ∈ u.runs.rows) (event : PlanEvent) :
    completedIndices u run ⊆ completedIndices (planStep planIds u event) run := by
  intro index hindex
  simp only [completedIndices, List.mem_toFinset, List.mem_filterMap, List.mem_filter] at hindex ⊢
  obtain ⟨item, ⟨hitem, hdone⟩, hi⟩ := hindex
  refine ⟨item, ⟨?_, hdone⟩, hi⟩
  have hstored : item ∈ (planStep planIds u event).runs.rows := by
    apply Table.find?_mem (k := item.runId)
    apply find?_planStep_of_terminal hu (Table.find?_of_mem (mem_trials hitem hrun))
    have hstatus : item.status = .completed := by simpa using (of_decide_eq_true hdone).1
    rw [hstatus]
    decide
  unfold trials at hitem ⊢
  split at hitem
  · rename_i group hgroup
    exact List.mem_filter.mpr ⟨hstored, (List.mem_filter.mp hitem).2⟩
  · exact hitem

/-- The bindings stay sound while runs are prepared and executed. -/
theorem sound_run (hplanned : s.toPlanStore.Planned planIds) (hs : Sound ids s)
    (event : PlanEvent) : Sound ids (baselineStep ids planIds s (.run event)) := by
  have hext := extends_planStep hplanned event
  constructor
  · exact hs.unique
  · intro b hb
    obtain ⟨run, hrun, hadm, hmat⟩ := hs.eligible b hb
    have hterminal : run.status.Terminal := by
      rw [hadm.completed]
      decide
    obtain ⟨config, hconfig, hrepeats⟩ := hadm.repeats
    obtain ⟨p, hp, hcomponent⟩ := hmat.component
    refine ⟨run, find?_planStep_of_terminal hplanned hrun hterminal event,
      ⟨hadm.completed, hadm.complete, hadm.dataset, ⟨config, hconfig, fun hlive => ?_⟩, ?_, ?_⟩,
      ⟨hmat.mode, p, hext.plans _ _ hp, hcomponent⟩⟩
    · exact (hrepeats hlive).trans
        (Finset.card_le_card (completedIndices_planStep hplanned (Table.find?_mem hrun) event))
    · unfold sources
      rw [show (baselineStep ids planIds s (.run event)).toCatalog = s.toCatalog from hext.catalog]
      exact hadm.cases
    · rw [show (baselineStep ids planIds s (.run event)).toCatalog = s.toCatalog from hext.catalog]
      exact hadm.subject

/-- The step lemma: a step comes out well exactly when it meets the condition. -/
theorem wellPromoted_iff (hplanned : s.toPlanStore.Planned planIds) (hs : Sound ids s)
    (event : BaselineEvent) : WellPromoted ids planIds s event ↔ Honest ids s event := by
  cases event with
  | run event => exact iff_of_true (sound_run hplanned hs event) trivial
  | promote call now =>
    constructor
    · intro h run hrun hadmissible
      constructor
      · intro hmatches
        obtain ⟨b, t, hpromote, _⟩ := h.accepted run hrun hadmissible hmatches
        obtain ⟨_, _, _, hfresh, _⟩ := promote_eq_ok hpromote
        exact hfresh
      · intro hfresh
        obtain ⟨t, hpromote⟩ := exists_promote now hrun hadmissible hfresh
        have hsound := h.sound
        rw [baselineStep, hpromote] at hsound
        exact (sound_promote hs hpromote).mp hsound run hrun
    · intro h
      refine ⟨?_, ?_, ?_⟩
      · cases hpromote : s.promote ids call now with
        | error e =>
          rw [baselineStep, hpromote]
          exact hs
        | ok result =>
          obtain ⟨b, t⟩ := result
          rw [baselineStep, hpromote]
          obtain ⟨run, hrun, hadmissible, hfresh, _⟩ := promote_eq_ok hpromote
          apply (sound_promote hs hpromote).mpr
          intro run' hrun'
          obtain rfl : run = run' := Option.some.inj (hrun.symm.trans hrun')
          exact (h run hrun hadmissible).mpr hfresh
      · intro e he
        rw [baselineStep, he]
      · intro run hrun hadmissible hmatches
        obtain ⟨t, hpromote⟩ := exists_promote now hrun hadmissible
          ((h run hrun hadmissible).mp hmatches)
        obtain ⟨_, _, _, _, _, _, _, hrows⟩ := promote_eq_ok hpromote
        exact ⟨_, t, hpromote, by rw [hrows]; simp, rfl, rfl, rfl⟩

end BaselineStore

/-- A store that promotions and executions may have led to. -/
structure SoundStore (ids : BaselineIds) (planIds : PlanIds) extends BaselineStore where
  planned : toPlanStore.Planned planIds
  sound : BaselineStore.Sound ids toBaselineStore

/-- In every history of promotions and executions, baselines are sound and promotions come
out well exactly when every promoted run is of the mode and the component that it is
promoted for, and is promoted in its scope for the first time. -/
theorem promotions_iff_honest (ids : BaselineIds) (planIds : PlanIds) (s : SoundStore ids planIds)
    (events : List BaselineEvent) :
    Machine.EachStep (baselineStep ids planIds) (BaselineStore.WellPromoted ids planIds)
        s.toBaselineStore events ↔
      Machine.EachStep (baselineStep ids planIds) (BaselineStore.Honest ids)
        s.toBaselineStore events := by
  apply Machine.eachStep_iff (baselineStep ids planIds)
    fun s => s.toPlanStore.Planned planIds ∧ BaselineStore.Sound ids s
  · rintro s event ⟨hplanned, hs⟩ hwell
    cases event with
    | promote call now =>
      refine ⟨?_, hwell.sound⟩
      cases hpromote : s.promote ids call now with
      | error e =>
        rw [baselineStep, hpromote]
        exact hplanned
      | ok result =>
        obtain ⟨b, t⟩ := result
        obtain ⟨_, _, _, _, _, hstore, _⟩ := BaselineStore.promote_eq_ok hpromote
        rw [baselineStep, hpromote]
        dsimp only
        rw [hstore]
        exact hplanned
    | run event =>
      exact ⟨(extends_planStep hplanned event).planned, BaselineStore.sound_run hplanned hs event⟩
  · rintro s event ⟨hplanned, hs⟩
    exact BaselineStore.wellPromoted_iff hplanned hs event
  · exact ⟨s.planned, s.sound⟩

section Fixture

variable (planIds : PlanIds)

def fixturePayload : PlanPayload where
  datasetVersionId := "v1"
  subjectId := "subject"
  mode := .deterministicFixture
  caseIds := ["case"]
  adapterVersions := [(.index, "1.0.0")]
  metricDefinitionIds := []
  baselineBindingId := none
  gateConfigVersion := none
  caseConcurrency := 1
  providerConcurrency := 0
  randomSeed := 0
  liveTrial := none

def fixtureProvenance : EvaluationProvenance := ⟨"subject", "v1", "1", "", "", 0⟩

def fixturePlan : EvaluationPlan where
  toPlanPayload := fixturePayload
  planId := planIds.planId fixturePayload
  components := [.index]
  frozenConfigHash := planIds.frozenConfigHash fixturePayload
  providerBudget := none
  externalModelConsent := false
  provenance := fixtureProvenance

def fixtureFingerprint : RunFingerprint where
  datasetVersionId := "v1"
  caseSetHash := planIds.caseSetHash ["case"]
  goldHash := "gold"
  subjectId := "subject"
  metricDefinitionHash := planIds.metricDefinitionHash []
  adapterProfileHash := planIds.adapterProfileHash [(.index, "1.0.0")]
  adapterMajorHash := ""
  fixtureHash := "fixture"
  executionMode := .deterministicFixture
  environmentHash := "environment"
  randomSeed := 0

def fixtureRun : EvaluationRun where
  runId := planIds.runId (planIds.runFingerprintHash (fixtureFingerprint planIds)) 1 none none
  planId := planIds.planId fixturePayload
  datasetVersionId := "v1"
  subjectId := "subject"
  mode := .deterministicFixture
  status := .completed
  fingerprint := fixtureFingerprint planIds
  runFingerprintHash := planIds.runFingerprintHash (fixtureFingerprint planIds)
  environmentId := "environment"
  trialGroupId := none
  repeatIndex := none
  repeatCount := none
  temperature := none
  seed := some 0
  attemptNumber := 1
  retryOfRunId := none
  caseCounts := [("total", 1), ("completed", 1)]
  complete := true
  provenance := fixtureProvenance
  createdAt := 0
  updatedAt := 0

def plainBaselineIds : BaselineIds where
  bindingId _ runId := runId
  scopeHash scope := scope
  subjectHash _ _ _ := ""

def fixtureStore : SoundStore plainBaselineIds planIds where
  toCatalog := smallCatalog
  plans := ⟨[fixturePlan planIds], by simp⟩
  runs := ⟨[fixtureRun planIds], by simp⟩
  gateConfigs := ⟨[⟨"gate", none⟩], by simp⟩
  planned := by
    refine ⟨by simp, ?_, ?_, ?_⟩
    · simp [fixturePlan]
    · simp [fixturePlan, fixturePayload]
    · intro run hrun
      rw [List.mem_singleton.mp hrun]
      exact ⟨fixturePlan planIds, List.mem_singleton_self _,
        ⟨rfl, rfl, rfl, rfl, rfl, rfl, rfl, rfl, rfl, [], rfl, rfl⟩⟩
  sound := ⟨by simp, by simp⟩

def recomputePromotion : Promotion where
  datasetVersionId := "v1"
  component := .index
  evaluationMode := .offlineRecompute
  gateConfigVersion := "gate"
  baselineRunId := (fixtureRun planIds).runId
  promotedByScope := "admin"
  promotionReasonCode := "first"

end Fixture

/-- A run of another mode than the promotion's becomes its baseline. -/
theorem promotion_of_another_mode : ¬ ∀ (ids : BaselineIds) (planIds : PlanIds)
    (s : SoundStore ids planIds) (events : List BaselineEvent),
    Machine.EachStep (baselineStep ids planIds) (BaselineStore.WellPromoted ids planIds)
      s.toBaselineStore events := by
  intro h
  obtain ⟨planIds⟩ := exists_planIds
  have hstep := (h plainBaselineIds planIds (fixtureStore planIds)
    [.promote (recomputePromotion planIds) 0]).1
  rw [BaselineStore.wellPromoted_iff (fixtureStore planIds).planned (fixtureStore planIds).sound]
    at hstep
  have hfind : (fixtureStore planIds).runs.find? (fixtureRun planIds).runId =
      some (fixtureRun planIds) := Table.find?_of_mem (List.mem_singleton_self _)
  have hadmissible : BaselineStore.Admissible plainBaselineIds (fixtureStore planIds).toBaselineStore
      (recomputePromotion planIds).toBaselineScope (fixtureRun planIds) :=
    ⟨rfl, rfl, rfl, ⟨⟨"gate", none⟩, rfl, nofun⟩, List.cons_ne_nil "human_authored" [],
      ⟨_, rfl, rfl⟩⟩
  have hmatches := (hstep (fixtureRun planIds) hfind hadmissible).mpr rfl
  have hmode : EvaluationMode.deterministicFixture = .offlineRecompute := hmatches.mode
  cases hmode

end CodeResearch.Evaluation
