import CodeResearch.Evaluation.MetricRows

/-!
# Requests and the runs that they are given

The plan of a returned run carries what its request demands, unless a stored run or a
stored plan agrees with the request in the parts that are hashed and differs in another
one. The steps of a history are requests and the updates that executions make.
-/
namespace CodeResearch.Evaluation

open ControlPlane (JobError Timestamp)
open DomainJobs (evaluationError EvaluationStatus runTransitions)

/-- What a request demands of its plan. -/
structure Demands where
  datasetVersionId : String
  subjectId : String
  mode : EvaluationMode
  caseIds : List String
  adapterVersions : List (Component × String)
  metricDefinitionIds : List String
  caseConcurrency : ℕ
  providerConcurrency : ℕ
  randomSeed : ℤ
  externalModelConsent : Bool
  providerBudget : Option ProviderBudget
  liveTrial : Option LiveTrialSpec
  deriving DecidableEq

def RunRequest.demands (ids : PlanIds) (request : RunRequest) (r : Resolved) : Demands where
  datasetVersionId := request.datasetVersionId
  subjectId := request.subjectId
  mode := request.mode
  caseIds := r.cases.map fun case => case.caseId
  adapterVersions := request.adapters
  metricDefinitionIds := (request.definitions ids).map MetricDefinition.metricDefinitionId
  caseConcurrency := request.caseConcurrency
  providerConcurrency := request.providerConcurrency
  randomSeed := request.randomSeed
  externalModelConsent := request.externalModelConsent
  providerBudget := request.providerBudget
  liveTrial := request.liveTrial

def EvaluationPlan.demands (p : EvaluationPlan) : Demands where
  datasetVersionId := p.datasetVersionId
  subjectId := p.subjectId
  mode := p.mode
  caseIds := p.caseIds
  adapterVersions := p.adapterVersions
  metricDefinitionIds := p.metricDefinitionIds
  caseConcurrency := p.caseConcurrency
  providerConcurrency := p.providerConcurrency
  randomSeed := p.randomSeed
  externalModelConsent := p.externalModelConsent
  providerBudget := p.providerBudget
  liveTrial := p.liveTrial

/-- The fields that `process_run`, its failures and `request_cancel` change. -/
structure RunProgress where
  status : EvaluationStatus
  cancelRequested : Bool
  caseCounts : List (String × ℕ)
  complete : Bool
  incompleteReasonCodes : List String
  errorCode : Option String
  updatedAt : Timestamp
  finishedAt : Option Timestamp

def EvaluationRun.progress (run : EvaluationRun) (p : RunProgress) : EvaluationRun :=
  { run with
    status := p.status
    cancelRequested := p.cancelRequested
    caseCounts := p.caseCounts
    complete := p.complete
    incompleteReasonCodes := p.incompleteReasonCodes
    errorCode := p.errorCode
    updatedAt := p.updatedAt
    finishedAt := p.finishedAt }

/-- `update_run` of a copy of the stored run. -/
def PlanStore.updateRun (runId : String) (p : RunProgress) (s : PlanStore) :
    Except JobError PlanStore := do
  let current ← orError (evaluationError "evaluation_run_not_found" runId) (s.runs.find? runId)
  ensure (current.status.Terminal → current = current.progress p)
    (evaluationError "evaluation_run_immutable" runId)
  ensure (p.status = current.status ∨ p.status ∈ runTransitions current.status)
    (evaluationError "evaluation_run_transition_invalid"
      (current.status.name ++ "->" ++ p.status.name))
  ensure (¬ current.status.Terminal) (evaluationError "evaluation_run_immutable" runId)
  return { s with runs := s.runs.replace (current.progress p) }

inductive PlanEvent
  | prepare (request : RunRequest) (index : Option ℕ) (now : Timestamp)
  | update (runId : String) (progress : RunProgress)

variable (ids : PlanIds)

def planStep (s : PlanStore) : PlanEvent → PlanStore
  | .prepare request index now => ((prepareRun ids request index now).runOn s).2
  | .update runId progress =>
    match s.updateRun runId progress with
    | .ok t => t
    | .error _ => s

variable {ids} {request : RunRequest} {index : Option ℕ} {now : Timestamp} {r : Resolved}
  {s t u : PlanStore}

variable {run : EvaluationRun}

theorem mem_of_findReusableRun {hash : String} (h : s.findReusableRun hash = some run) :
    run ∈ s.runs.rows ∧ run.runFingerprintHash = hash := by
  have hfold : ∀ (found : List EvaluationRun) (best : Option EvaluationRun),
      (found.foldl (fun best r => if ∀ b ∈ best, PlanStore.Newer r b then some r else best) best) =
        some run → run ∈ found ∨ best = some run := by
    intro found
    induction found with
    | nil => exact fun best h => .inr h
    | cons x found ih =>
      intro best h
      rcases ih _ h with h | h
      · exact .inl (List.mem_cons_of_mem x h)
      · dsimp only at h
        split at h
        · cases h
          exact .inl List.mem_cons_self
        · exact .inr h
  rcases hfold _ none h with h | h
  · have hrun := List.mem_filter.mp h
    simp only [decide_eq_true_eq] at hrun
    exact ⟨hrun.1, hrun.2.1⟩
  · cases h

theorem mem_of_reusable (h : request.reusable ids r s = some run) :
    request.liveTrial = none ∧ run ∈ s.runs.rows ∧
      run.runFingerprintHash = ids.runFingerprintHash (request.fingerprint ids r) := by
  unfold RunRequest.reusable at h
  split_ifs at h with hnone
  exact ⟨hnone.2, mem_of_findReusableRun h⟩

theorem Defines.planned (h : Defines ids (request.definitions ids) s u) (hs : s.Planned ids) :
    u.Planned ids where
  definitions := h.known
  plans := by
    rw [h.plans]
    exact hs.plans
  defined := by
    rw [h.plans]
    intro p hp id hid
    obtain ⟨d, hd, rfl⟩ := List.mem_map.mp (hs.defined p hp id hid)
    exact List.mem_map_of_mem (h.kept d hd)
  runs := by
    rw [h.plans, h.runs]
    exact hs.runs

theorem Defines.reusable (h : Defines ids (request.definitions ids) s u) :
    request.reusable ids r u = request.reusable ids r s := by
  simp only [RunRequest.reusable, PlanStore.findReusableRun, h.runs]

theorem Defines.attempt (h : Defines ids (request.definitions ids) s u) :
    request.attempt u = request.attempt s := by
  simp only [RunRequest.attempt, h.runs]

variable (request index now) in
/-- A call resolves its request, saves the definitions, and ends in one of the outcomes. -/
theorem prepareRun_outcome (hs : s.Planned ids) :
    (∃ e, request.resolve s.toCatalog = .error e ∧
      (prepareRun ids request index now).runOn s = (.error e, s)) ∨
    ∃ r u, request.resolve s.toCatalog = .ok r ∧ Defines ids (request.definitions ids) s u ∧
      Outcome ids request index now r u ((prepareRun ids request index now).runOn s).1
        ((prepareRun ids request index now).runOn s).2 := by
  unfold prepareRun
  have hquery : (Exec.query fun s : PlanStore => request.resolve s.toCatalog).runOn s =
      (request.resolve s.toCatalog, s) := rfl
  cases hresolve : request.resolve s.toCatalog with
  | error e =>
    rw [hresolve] at hquery
    exact .inl ⟨e, rfl, Exec.runOn_bind_error hquery _⟩
  | ok r =>
    rw [hresolve] at hquery
    rw [Exec.runOn_bind_ok hquery]
    obtain ⟨u, hsave, hdef⟩ := saveDefinitions_defines hs.definitions
      (fun d (hd : d ∈ request.definitions ids) => mem_definitions hd)
    rw [Exec.runOn_bind_ok hsave]
    exact .inr ⟨r, u, rfl, hdef, prepareResolved_outcome (hdef.planned hs)⟩

theorem plan_of_withPlan (hu : u.Planned ids)
    (hplan : PlanStore.withPlan (request.plan ids r now) u t) :
    ∃ p, t.plans.find? (ids.planId (request.planPayload ids r)) = some p ∧
      p.toPlanPayload = request.planPayload ids r ∧
      (u.plans.find? (ids.planId (request.planPayload ids r)) = some p ∨
        u.plans.find? (ids.planId (request.planPayload ids r)) = none ∧
          p = request.plan ids r now) := by
  rcases hplan with ⟨hsome, rfl⟩ | ⟨plans, hnone, hins, rfl⟩
  · obtain ⟨p, hp⟩ := Option.isSome_iff_exists.mp hsome
    exact ⟨p, hp, hu.payload_eq hp, .inl hp⟩
  · exact ⟨request.plan ids r now, Table.find?_insert_self hins, rfl, .inr ⟨hnone, rfl⟩⟩

theorem plans_of_withPlan {plan : EvaluationPlan} (hplan : PlanStore.withPlan plan u t)
    {id : String} {p : EvaluationPlan} (hp : u.plans.find? id = some p) :
    t.plans.find? id = some p := by
  rcases hplan with ⟨_, rfl⟩ | ⟨plans, _, hins, rfl⟩
  · exact hp
  · exact Table.find?_insert_of_some hins hp

theorem planned_of_withPlan (hu : u.Planned ids)
    (hadded : ∀ d ∈ request.definitions ids, d ∈ u.definitions.rows)
    (hplan : PlanStore.withPlan (request.plan ids r now) u t) : t.Planned ids := by
  obtain ⟨hruns, hdefs, _⟩ := PlanStore.runs_of_withPlan hplan
  have hmem : ∀ p ∈ t.plans.rows, p ∈ u.plans.rows ∨ p = request.plan ids r now := by
    intro p hp
    rcases hplan with ⟨_, rfl⟩ | ⟨plans, _, hins, rfl⟩
    · exact .inl hp
    · exact (Table.mem_insert hins p).mp hp
  refine ⟨?_, ?_, ?_, ?_⟩
  · rw [hdefs]
    exact hu.definitions
  · intro p hp
    rcases hmem p hp with hp | rfl
    · exact hu.plans p hp
    · exact ⟨rfl, rfl⟩
  · rw [hdefs]
    intro p hp id hid
    rcases hmem p hp with hp | rfl
    · exact hu.defined p hp id hid
    · obtain ⟨d, hd, rfl⟩ := List.mem_map.mp hid
      exact List.mem_map_of_mem (hadded d hd)
  · rw [hruns]
    intro run hrun
    obtain ⟨p, hp, hfits⟩ := hu.runs run hrun
    exact ⟨p, Table.find?_mem (plans_of_withPlan hplan (Table.find?_of_mem hp)), hfits⟩

/-- The invariant, and what later states keep of a stored run and a stored plan. -/
structure Extends (ids : PlanIds) (s t : PlanStore) : Prop where
  catalog : t.toCatalog = s.toCatalog
  planned : t.Planned ids
  plans : ∀ id p, s.plans.find? id = some p → t.plans.find? id = some p
  runs : ∀ id run, s.runs.find? id = some run →
    ∃ later, t.runs.find? id = some later ∧ later.planId = run.planId

theorem Extends.refl (hs : s.Planned ids) : Extends ids s s :=
  ⟨rfl, hs, fun _ _ h => h, fun _ run h => ⟨run, h, rfl⟩⟩

theorem Extends.trans (h : Extends ids s t) (h' : Extends ids t u) : Extends ids s u where
  catalog := h'.catalog.trans h.catalog
  planned := h'.planned
  plans id p hp := h'.plans id p (h.plans id p hp)
  runs id run hrun := by
    obtain ⟨later, hlater, hid⟩ := h.runs id run hrun
    obtain ⟨last, hlast, hid'⟩ := h'.runs id later hlater
    exact ⟨last, hlast, hid'.trans hid⟩

theorem Defines.extends (h : Defines ids (request.definitions ids) s u) (hs : s.Planned ids) :
    Extends ids s u where
  catalog := h.catalog
  planned := h.planned hs
  plans id p hp := by rwa [h.plans]
  runs id run hrun := ⟨run, by rwa [h.runs], rfl⟩

theorem extends_of_withPlan (hu : u.Planned ids)
    (hadded : ∀ d ∈ request.definitions ids, d ∈ u.definitions.rows)
    (hplan : PlanStore.withPlan (request.plan ids r now) u t) : Extends ids u t where
  catalog := (PlanStore.runs_of_withPlan hplan).2.2
  planned := planned_of_withPlan hu hadded hplan
  plans _ _ hp := plans_of_withPlan hplan hp
  runs id run hrun := ⟨run, by rwa [(PlanStore.runs_of_withPlan hplan).1], rfl⟩

theorem Outcome.extends {result : Except JobError EvaluationRun} (hu : u.Planned ids)
    (hadded : ∀ d ∈ request.definitions ids, d ∈ u.definitions.rows)
    (h : Outcome ids request index now r u result t) : Extends ids u t := by
  cases h with
  | reused | notRetried | invalid => exact .refl hu
  | taken h hattempt hlive hplan hstored hne => exact extends_of_withPlan hu hadded hplan
  | repeated h hattempt hlive hplan hstored => exact extends_of_withPlan hu hadded hplan
  | @created attempt t runs h hattempt hlive hplan hnew hruns =>
    have hext := extends_of_withPlan hu hadded hplan
    obtain ⟨p, hp, hpayload, _⟩ := plan_of_withPlan hu hplan
    refine hext.trans ⟨rfl, ⟨hext.planned.definitions, hext.planned.plans,
      hext.planned.defined, ?_⟩, fun _ _ h => h, ?_⟩
    · intro run hrun
      rcases (Table.mem_insert hruns run).mp hrun with hrun | rfl
      · rw [← (PlanStore.runs_of_withPlan hplan).1] at hrun
        exact hext.planned.runs run hrun
      · exact ⟨p, Table.find?_mem hp, request.run_fits ids r attempt index now
          (Table.find?_key hp) hpayload⟩
    · intro id run hrun
      rw [(PlanStore.runs_of_withPlan hplan).1] at hrun
      exact ⟨run, Table.find?_insert_of_some hruns hrun, rfl⟩

theorem extends_prepare (hs : s.Planned ids) :
    Extends ids s ((prepareRun ids request index now).runOn s).2 := by
  rcases prepareRun_outcome request index now hs with
    ⟨e, _, hrun⟩ | ⟨r, u, _, hdef, hout⟩
  · rw [hrun]
    exact .refl hs
  · exact (hdef.extends hs).trans (hout.extends (hdef.planned hs) hdef.added)

theorem EvaluationRun.Fits.progress {p : EvaluationPlan} (h : run.Fits ids p)
    (progress : RunProgress) : (run.progress progress).Fits ids p :=
  ⟨h.planId, h.hash, h.runId, h.dataset, h.subject, h.mode, h.seed, h.cases, h.adapters, h.metrics⟩

theorem extends_update (hs : s.Planned ids) {runId : String} {progress : RunProgress}
    (h : s.updateRun runId progress = .ok t) : Extends ids s t := by
  unfold PlanStore.updateRun at h
  obtain ⟨current, hcurrent, h⟩ := except_bind_eq_ok_iff.mp h
  obtain ⟨_, _, h⟩ := except_bind_eq_ok_iff.mp h
  obtain ⟨_, _, h⟩ := except_bind_eq_ok_iff.mp h
  obtain ⟨_, _, h⟩ := except_bind_eq_ok_iff.mp h
  rw [orError_eq_ok_iff] at hcurrent
  cases h
  have hown : current.runId = runId := Table.find?_key hcurrent
  have hkey : (current.progress progress).runId = runId := hown
  have hsome : (s.runs.find? (current.progress progress).runId).isSome := by
    rw [hkey, hcurrent]
    rfl
  refine ⟨rfl, ⟨hs.definitions, hs.plans, hs.defined, ?_⟩, fun _ _ h => h, ?_⟩
  · intro run hrun
    rcases (Table.mem_replace hsome run).mp hrun with rfl | ⟨hrun, _⟩
    · obtain ⟨p, hp, hfits⟩ := hs.runs current (Table.find?_mem hcurrent)
      exact ⟨p, hp, hfits.progress progress⟩
    · exact hs.runs run hrun
  · intro id run hrun
    by_cases hid : id = runId
    · rw [hid] at hrun ⊢
      obtain rfl : current = run := Option.some.inj (hcurrent.symm.trans hrun)
      exact ⟨_, Table.find?_replace_of_key hkey (by rw [hrun]; rfl), rfl⟩
    · exact ⟨run, by rw [Table.find?_replace_of_ne _ (hkey ▸ hid), hrun], rfl⟩

theorem extends_planStep (hs : s.Planned ids) (event : PlanEvent) :
    Extends ids s (planStep ids s event) := by
  cases event with
  | prepare request index now => exact extends_prepare hs
  | update runId progress =>
    cases h : s.updateRun runId progress with
    | ok t =>
      rw [planStep, h]
      exact extends_update hs h
    | error e =>
      rw [planStep, h]
      exact .refl hs

theorem extends_history (hs : s.Planned ids) (events : List PlanEvent) :
    Extends ids s (events.foldl (planStep ids) s) := by
  induction events generalizing s with
  | nil => exact .refl hs
  | cons event events ih =>
    have hstep := extends_planStep hs event
    exact hstep.trans (ih hstep.planned)

end CodeResearch.Evaluation
