import CodeResearch.Research.Graph

/-!
# What one node execution does

Every execution of a node is one of the moves below. All invariants of the graph
are derived from this list.
-/
namespace CodeResearch.Research

def Node.Stops (node : Node) : Prop :=
  node ∈ [routeQuery, validatePlan, resolveStepArguments, assessEvidence]

/-- The nodes that pass a cancellation on, with their successors. -/
def Node.Passes (node next : Node) : Prop :=
  (node, next) ∈ [(directRetrieve, assessEvidence), (createPlan, validatePlan),
    (markStepRunning, executeStep), (executeStep, assessEvidence),
    (buildContext, generateAnswer), (generateAnswer, validateCitations)]

def Node.Misses (node next : Node) : Prop :=
  (node, next) ∈ [(resolveStepArguments, assessEvidence), (markStepRunning, executeStep),
    (executeStep, assessEvidence)]

/-- The state after `route_query`. -/
def ResearchState.routed (s : ResearchState) (d : RouteDecision) : ResearchState :=
  { s with queryType := some d.queryType, route := d.route, routeReason := d.reasons,
           status := .routing }

/-- The state after `create_plan`. -/
def ResearchState.proposed (s : ResearchState) (plan : ResearchPlan) : ResearchState :=
  { s with
    pendingPlan := some plan
    planHistoryIds :=
      if plan.planId ∈ s.planHistoryIds then s.planHistoryIds
      else s.planHistoryIds ++ [plan.planId]
    route := .planned
    status := if s.plan.isNone then .planning else .replanning }

/-- The state after an accepted `validate_plan`. -/
def ResearchState.adopted (s : ResearchState) (plan : ResearchPlan) : ResearchState :=
  { s with
    plan := some plan
    pendingPlan := none
    currentStepIndex := 0
    stepRuntime := s.stepRuntime.filter (fun r => r.planVersion ≠ plan.planVersion) ++
      plan.steps.map fun step =>
        { stepId := step.stepId, planVersion := plan.planVersion, status := .pending }
    status := .planning }

def ResearchState.resolving (s : ResearchState) (plan : ResearchPlan) (step : PlanStep)
    (resolved : ResolvedStepArguments) : ResearchState :=
  { s with
    resolvedArguments := resolved.arguments
    stepResolutionFailed := false
    stepRuntime := replaceRuntime s.stepRuntime
      { stepId := step.stepId, planVersion := plan.planVersion, status := .resolving }
    status := .executing }

/-- The state after `mark_step_running`. -/
def ResearchState.marked (rt : Runtime) (s : ResearchState) (plan : ResearchPlan)
    (step : PlanStep) : ResearchState :=
  { s with
    stepRuntime := replaceRuntime s.stepRuntime
      { stepId := step.stepId
        planVersion := plan.planVersion
        status := .running
        stepExecutionId := some (stepExecutionId rt s.runId plan.planVersion step.stepId) }
    status := .executing }

/-- The assessment that `assess_evidence` makes. -/
def ResearchState.assessment (rt : Runtime) (s : ResearchState) (queryType : QueryType) :
    EvidenceAssessment :=
  assess queryType s.route s.observations (hasRemaining s) s.directEscalatedToPlanned
    (rt.limits.CanReplan s)

/-- The state after `assess_evidence`. -/
def ResearchState.assessed (s : ResearchState) (a : EvidenceAssessment) : ResearchState :=
  { s with
    evidenceAssessment := some a
    evidenceSufficient := a.sufficient
    missingEvidence := a.missingEvidence
    evidenceIds := unique (s.evidenceIds ++ a.coveredEvidenceIds)
    entityIds := unique (s.entityIds ++ a.coveredEntityIds)
    status := .assessing
    directEscalatedToPlanned :=
      if a.nextAction = .escalateToPlan then true else s.directEscalatedToPlanned }

def ResearchRoute.node : ResearchRoute → Node
  | direct => .directRetrieve
  | planned => .createPlan

/-- The answer phase changes no field that the planning phase reads. -/
structure Answering (s t : ResearchState) : Prop where
  queryType : t.queryType = s.queryType
  plan : t.plan = s.plan
  currentStepIndex : t.currentStepIndex = s.currentStepIndex
  observations : t.observations = s.observations
  toolCallCount : t.toolCallCount = s.toolCallCount
  replanCount : t.replanCount = s.replanCount
  toolFailureCount : t.toolFailureCount = s.toolFailureCount
  evidenceAssessment : t.evidenceAssessment = s.evidenceAssessment
  answerEnabled : t.answerEnabled = s.answerEnabled
  cancelRequested : t.cancelRequested = s.cancelRequested

/-- The moves of the graph. -/
inductive Move (rt : Runtime) (i : Input) : Node → ResearchState → Position → Prop
  | stopped {node s} (cancelled : Cancelled i s) (stops : node.Stops) :
    Move rt i node s (.ended s.cancel)
  | passed {node next s} (cancelled : Cancelled i s) (passes : node.Passes next) :
    Move rt i node s (.running next s.cancel)
  | routed {s} (live : ¬ Cancelled i s) :
    Move rt i .routeQuery s (.running i.decision.route.node (s.routed i.decision))
  | retrieved {s t queryType resolved} (live : ¬ Cancelled i s)
    (found : s.queryType = some queryType)
    (resolves : resolve rt (directStep s.query queryType) "direct" s.observations = .ok resolved)
    (run : runStep rt i s (directStep s.query queryType) "direct" resolved = .ok t) :
    Move rt i .directRetrieve s (.running .assessEvidence { t with status := .retrieving })
  | proposed {s} (live : ¬ Cancelled i s) :
    Move rt i .createPlan s (.running .validatePlan (s.proposed (ownPlan rt s i.plan)))
  | adopted {s pending plan} (live : ¬ Cancelled i s) (found : s.pendingPlan = some pending)
    (valid : validatePlan rt pending = .ok plan) :
    Move rt i .validatePlan s (.running .resolveStepArguments (s.adopted plan))
  | refused {s code message} (live : ¬ Cancelled i s)
    (invalid : ∀ pending, s.pendingPlan = some pending →
      validatePlan rt pending = .error (.planValidation code message)) :
    Move rt i .validatePlan s (.running .finishPartial (s.failure code message))
  | missing {node next s} (live : ¬ Cancelled i s) (none : currentStep s = none)
    (misses : node.Misses next) : Move rt i node s (.running next (stepMissing s))
  | unresolved {s plan step fault} (live : ¬ Cancelled i s)
    (current : currentStep s = some (plan, step))
    (fails : resolve rt step plan.planVersion s.observations = .error fault) :
    Move rt i .resolveStepArguments s (.running .assessEvidence (failedStep s step plan.planVersion
      (fault.errorCode "step_argument_resolution_failed") fault.message))
  | resolved {s plan step resolved} (live : ¬ Cancelled i s)
    (current : currentStep s = some (plan, step))
    (resolves : resolve rt step plan.planVersion s.observations = .ok resolved) :
    Move rt i .resolveStepArguments s (.running .markStepRunning (s.resolving plan step resolved))
  | marked {s plan step} (live : ¬ Cancelled i s) (current : currentStep s = some (plan, step)) :
    Move rt i .markStepRunning s (.running .executeStep (s.marked rt plan step))
  | changed {s plan step spec dump resolved} (live : ¬ Cancelled i s)
    (current : currentStep s = some (plan, step)) (tool : rt.getTool step.toolName = .ok spec)
    (dumped : spec.revalidate s.resolvedArguments = .ok dump)
    (resolves : resolve rt step plan.planVersion s.observations = .ok resolved)
    (differs : resolved.canonicalJson ≠ rt.canonical dump) :
    Move rt i .executeStep s (.running .assessEvidence (s.failure "resolved_arguments_changed"
      "Resolved arguments changed before execution."))
  | exceeded {s plan step resolved code} (live : ¬ Cancelled i s)
    (current : currentStep s = some (plan, step))
    (resolves : resolve rt step plan.planVersion s.observations = .ok resolved)
    (run : runStep rt i s step plan.planVersion resolved = .error (.budgetExceeded code)) :
    Move rt i .executeStep s (.running .assessEvidence (s.failure code code))
  | executed {s t plan step resolved} (live : ¬ Cancelled i s)
    (current : currentStep s = some (plan, step))
    (resolves : resolve rt step plan.planVersion s.observations = .ok resolved)
    (run : runStep rt i s step plan.planVersion resolved = .ok t) :
    Move rt i .executeStep s (.running .assessEvidence t)
  | assessed {s queryType} (live : ¬ Cancelled i s) (found : s.queryType = some queryType) :
    Move rt i .assessEvidence s (.running (s.assessment rt queryType).nextAction.node
      (s.assessed (s.assessment rt queryType)))
  | replanned {s} (available : rt.limits.CanReplan s) :
    Move rt i .replan s (.running .createPlan
      { s with replanCount := s.replanCount + 1, status := .replanning })
  | exhausted {s} (exhausted : ¬ rt.limits.CanReplan s) :
    Move rt i .replan s (.running .createPlan
      { s with stopReason := some "replan_budget_exhausted", status := .assessing })
  | skipped {s t} (answering : Answering s t) :
    Move rt i .markRemainingStepsSkipped s (.running .buildContext t)
  | built {s} (live : ¬ Cancelled i s) : Move rt i .buildContext s (.running .generateAnswer
      { s with context := some i.context, status := .buildingContext })
  | generated {s t} (live : ¬ Cancelled i s) (answering : Answering s t)
    (context : t.context = s.context)
    (draft : s.context ≠ none → s.answerEnabled = true → t.draftAnswer ≠ none) :
    Move rt i .generateAnswer s (.running .validateCitations t)
  | cited {s t} (answering : Answering s t)
    (draft : s.answerEnabled = true → t.draftAnswer ≠ none) :
    Move rt i .validateCitations s (.running .verifyClaims t)
  | verified {s t} (answering : Answering s t)
    (validated : s.answerEnabled = true → t.validatedAnswer ≠ none) :
    Move rt i .verifyClaims s (.running .finalizeAnswer t)
  | finalized {s t} (answering : Answering s t) (status : t.status.Terminal) :
    Move rt i .finalizeAnswer s (.ended t)
  | partially {s t} (answering : Answering s t) (status : t.status = .partialResult) :
    Move rt i .finishPartial s (.ended t)
  | raised {node s fault} (fails : runNode rt i s node = .error fault) :
    Move rt i node s (.raised node s fault)

section Executions

variable {rt : Runtime} {i : Input} {node : Node} {s t : ResearchState}

theorem execute_error {fault : AgentFault} (h : runNode rt i s node = .error fault) :
    Position.execute rt i node s = .raised node s fault := by
  rw [Position.execute, h]

theorem execute_next {next : Node} (h : runNode rt i s node = .ok t)
    (hnext : nextNode t node = .ok (some next)) :
    Position.execute rt i node s = .running next t := by
  rw [Position.execute, h]
  dsimp only
  rw [hnext]

theorem execute_end (h : runNode rt i s node = .ok t) (hnext : nextNode t node = .ok none) :
    Position.execute rt i node s = .ended t := by
  rw [Position.execute, h]
  dsimp only
  rw [hnext]

variable {body : Except AgentFault ResearchState}

theorem unlessCancelled_cancelled (h : Cancelled i s) : unlessCancelled i s body = .ok s.cancel :=
  if_pos h

theorem unlessCancelled_live (h : ¬ Cancelled i s) : unlessCancelled i s body = body :=
  if_neg h

theorem move_of_run (hok : ∀ t, runNode rt i s node = .ok t →
    Move rt i node s (Position.execute rt i node s)) :
    Move rt i node s (Position.execute rt i node s) := by
  cases h : runNode rt i s node with
  | error fault =>
    rw [execute_error h]
    exact .raised h
  | ok t => exact hok t h

theorem move_cancelled (h : Cancelled i s) (hrun : runNode rt i s node = .ok s.cancel)
    (hnode : node.Stops ∧ nextNode s.cancel node = .ok none ∨
      ∃ next, node.Passes next ∧ nextNode s.cancel node = .ok (some next)) :
    Move rt i node s (Position.execute rt i node s) := by
  rcases hnode with ⟨hstops, hnext⟩ | ⟨next, hpasses, hnext⟩
  · rw [execute_end hrun hnext]
    exact .stopped h hstops
  · rw [execute_next hrun hnext]
    exact .passed h hpasses

theorem move_of_live (hcancelled : Cancelled i s → runNode rt i s node = .ok s.cancel)
    (hnode : node.Stops ∧ nextNode s.cancel node = .ok none ∨
      ∃ next, node.Passes next ∧ nextNode s.cancel node = .ok (some next))
    (hlive : ∀ t, ¬ Cancelled i s → runNode rt i s node = .ok t →
      Move rt i node s (Position.execute rt i node s)) :
    Move rt i node s (Position.execute rt i node s) := by
  by_cases hc : Cancelled i s
  · exact move_cancelled hc (hcancelled hc) hnode
  · exact move_of_run fun t hrun => hlive t hc hrun

theorem move_routeQuery : Move rt i .routeQuery s (Position.execute rt i .routeQuery s) := by
  by_cases hc : Cancelled i s
  · exact move_cancelled hc (unlessCancelled_cancelled hc) (.inl ⟨by simp [Node.Stops], rfl⟩)
  · have hrun : runNode rt i s .routeQuery = .ok (s.routed i.decision) := unlessCancelled_live hc
    have hnext : nextNode (s.routed i.decision) .routeQuery = .ok (some i.decision.route.node) := by
      cases hroute : i.decision.route <;>
        simp [nextNode, routeAfterRouter, ResearchState.routed, ResearchRoute.node, hroute]
    rw [execute_next hrun hnext]
    exact .routed hc

theorem move_directRetrieve :
    Move rt i .directRetrieve s (Position.execute rt i .directRetrieve s) := by
  refine move_of_live unlessCancelled_cancelled (.inr ⟨_, by simp [Node.Passes], rfl⟩)
    fun t hc hrun => ?_
  rw [execute_next hrun rfl]
  simp only [runNode, directRetrieve, unlessCancelled_live hc, except_bind_eq_ok_iff,
    orError_eq_ok_iff, except_pure_eq_ok_iff] at hrun
  obtain ⟨queryType, hq, resolved, hresolves, u, hu, rfl⟩ := hrun
  exact .retrieved hc hq hresolves hu

theorem move_createPlan : Move rt i .createPlan s (Position.execute rt i .createPlan s) := by
  refine move_of_live unlessCancelled_cancelled (.inr ⟨_, by simp [Node.Passes], rfl⟩)
    fun t hc hrun => ?_
  rw [execute_next hrun rfl]
  simp only [runNode, createPlan, unlessCancelled_live hc, except_bind_eq_ok_iff,
    except_pure_eq_ok_iff] at hrun
  obtain ⟨_, _, rfl⟩ := hrun
  exact .proposed hc

theorem move_validatePlan : Move rt i .validatePlan s (Position.execute rt i .validatePlan s) := by
  refine move_of_live unlessCancelled_cancelled (.inl ⟨by simp [Node.Stops], rfl⟩)
    fun t hc hrun => ?_
  have hbody : validatePendingPlan rt i s = .ok t := hrun
  rw [validatePendingPlan, unlessCancelled_live hc] at hbody
  split at hbody
  · rename_i hnone
    cases hbody
    rw [execute_next hrun rfl]
    exact .refused hc fun pending hp => by rw [hnone] at hp; cases hp
  · rename_i pending hpending
    split at hbody
    · rename_i code message hinvalid
      cases hbody
      rw [execute_next hrun rfl]
      refine .refused hc fun p hp => ?_
      rw [hpending] at hp
      cases hp
      exact hinvalid
    · cases hbody
    · rename_i plan hvalid
      cases hbody
      rw [execute_next hrun rfl]
      exact .adopted hc hpending hvalid

theorem move_resolveStepArguments : Move rt i .resolveStepArguments s
    (Position.execute rt i .resolveStepArguments s) := by
  refine move_of_live unlessCancelled_cancelled (.inl ⟨by simp [Node.Stops], rfl⟩)
    fun t hc hrun => ?_
  have hbody : resolveStepArguments rt i s = .ok t := hrun
  rw [resolveStepArguments, unlessCancelled_live hc] at hbody
  split at hbody
  · rename_i hnone
    cases hbody
    rw [execute_next hrun rfl]
    exact .missing hc hnone (by simp [Node.Misses])
  · rename_i plan step hstep
    split at hbody
    · rename_i fault hfault
      cases hbody
      have hnext : nextNode (failedStep s step plan.planVersion
          (fault.errorCode "step_argument_resolution_failed") fault.message)
          .resolveStepArguments = .ok (some .assessEvidence) := by
        simp [nextNode, routeAfterResolution, failedStep]
      rw [execute_next hrun hnext]
      exact .unresolved hc hstep hfault
    · rename_i resolved hresolved
      cases hbody
      rw [execute_next hrun rfl]
      exact .resolved hc hstep hresolved

theorem move_markStepRunning :
    Move rt i .markStepRunning s (Position.execute rt i .markStepRunning s) := by
  refine move_of_live unlessCancelled_cancelled (.inr ⟨_, by simp [Node.Passes], rfl⟩)
    fun t hc hrun => ?_
  have hbody : markStepRunning rt i s = .ok t := hrun
  rw [markStepRunning, unlessCancelled_live hc] at hbody
  rw [execute_next hrun rfl]
  split at hbody
  · rename_i hnone
    cases hbody
    exact .missing hc hnone (by simp [Node.Misses])
  · rename_i plan step hstep
    cases hbody
    exact .marked hc hstep

theorem move_executeStep : Move rt i .executeStep s (Position.execute rt i .executeStep s) := by
  refine move_of_live unlessCancelled_cancelled (.inr ⟨_, by simp [Node.Passes], rfl⟩)
    fun t hc hrun => ?_
  have hbody : executeStep rt i s = .ok t := hrun
  rw [executeStep, unlessCancelled_live hc] at hbody
  rw [execute_next hrun rfl]
  split at hbody
  · rename_i hnone
    cases hbody
    exact .missing hc hnone (by simp [Node.Misses])
  · rename_i plan step hstep
    simp only [except_bind_eq_ok_iff] at hbody
    obtain ⟨spec, hspec, dump, hdump, resolved, hresolved, hbody⟩ := hbody
    split_ifs at hbody with hsame
    · cases hbody
      have hdumped : spec.revalidate s.resolvedArguments = .ok dump := by
        cases hr : spec.revalidate s.resolvedArguments <;> rw [hr] at hdump <;> cases hdump
        rfl
      exact .changed hc hstep hspec hdumped hresolved hsame
    · split at hbody
      · rename_i code hexceeded
        cases hbody
        exact .exceeded hc hstep hresolved hexceeded
      · cases hbody
      · rename_i u hu
        cases hbody
        exact .executed hc hstep hresolved hu

theorem move_assessEvidence :
    Move rt i .assessEvidence s (Position.execute rt i .assessEvidence s) := by
  refine move_of_live unlessCancelled_cancelled (.inl ⟨by simp [Node.Stops], rfl⟩)
    fun t hc hrun => ?_
  have hbody : assessEvidence rt i s = .ok t := hrun
  rw [assessEvidence, unlessCancelled_live hc] at hbody
  simp only [except_bind_eq_ok_iff, orError_eq_ok_iff, except_pure_eq_ok_iff] at hbody
  obtain ⟨queryType, hq, rfl⟩ := hbody
  rw [execute_next hrun rfl]
  exact .assessed hc hq

theorem move_replan : Move rt i .replan s (Position.execute rt i .replan s) := by
  by_cases h : rt.limits.CanReplan s
  · have hrun : runNode rt i s .replan =
        .ok { s with replanCount := s.replanCount + 1, status := .replanning } := if_pos h
    rw [execute_next hrun rfl]
    exact .replanned h
  · have hrun : runNode rt i s .replan =
        .ok { s with stopReason := some "replan_budget_exhausted", status := .assessing } := if_neg h
    rw [execute_next hrun rfl]
    exact .exhausted h

theorem answering_refl (s : ResearchState) : Answering s s :=
  ⟨rfl, rfl, rfl, rfl, rfl, rfl, rfl, rfl, rfl, rfl⟩

theorem move_markRemainingStepsSkipped : Move rt i .markRemainingStepsSkipped s
    (Position.execute rt i .markRemainingStepsSkipped s) := by
  apply move_of_run
  intro t hrun
  rw [execute_next hrun rfl]
  have hbody : markRemainingStepsSkipped s = .ok t := hrun
  rw [markRemainingStepsSkipped] at hbody
  split at hbody
  · cases hbody
    exact .skipped (answering_refl s)
  · simp only [except_bind_eq_ok_iff, except_pure_eq_ok_iff] at hbody
    obtain ⟨runtimes, _, rfl⟩ := hbody
    exact .skipped ⟨rfl, rfl, rfl, rfl, rfl, rfl, rfl, rfl, rfl, rfl⟩

theorem move_buildContext : Move rt i .buildContext s (Position.execute rt i .buildContext s) := by
  by_cases hc : Cancelled i s
  · exact move_cancelled hc (unlessCancelled_cancelled hc)
      (.inr ⟨_, by simp [Node.Passes], rfl⟩)
  · have hrun : runNode rt i s .buildContext =
        .ok { s with context := some i.context, status := .buildingContext } :=
      unlessCancelled_live hc
    rw [execute_next hrun rfl]
    exact .built hc

theorem move_generateAnswer :
    Move rt i .generateAnswer s (Position.execute rt i .generateAnswer s) := by
  refine move_of_live unlessCancelled_cancelled (.inr ⟨_, by simp [Node.Passes], rfl⟩)
    fun t hc hrun => ?_
  have hbody : generateAnswer i s = .ok t := hrun
  rw [generateAnswer, unlessCancelled_live hc] at hbody
  rw [execute_next hrun rfl]
  split at hbody
  · rename_i hnone
    cases hbody
    exact .generated hc ⟨rfl, rfl, rfl, rfl, rfl, rfl, rfl, rfl, rfl, rfl⟩ rfl fun h => absurd hnone h
  · split_ifs at hbody with henabled
    · cases hbody
      exact .generated hc ⟨rfl, rfl, rfl, rfl, rfl, rfl, rfl, rfl, rfl, rfl⟩ rfl fun _ _ => by simp
    · cases hbody
      exact .generated hc ⟨rfl, rfl, rfl, rfl, rfl, rfl, rfl, rfl, rfl, rfl⟩ rfl
        fun _ h => absurd h henabled

theorem move_validateCitations :
    Move rt i .validateCitations s (Position.execute rt i .validateCitations s) := by
  apply move_of_run
  intro t hrun
  rw [execute_next hrun rfl]
  have hbody : validateDraftCitations s = .ok t := hrun
  rw [validateDraftCitations] at hbody
  split_ifs at hbody with henabled
  · simp only [except_bind_eq_ok_iff, except_pure_eq_ok_iff] at hbody
    obtain ⟨draft, _, context, _, rfl⟩ := hbody
    exact .cited ⟨rfl, rfl, rfl, rfl, rfl, rfl, rfl, rfl, rfl, rfl⟩ fun _ => by simp
  · cases hbody
    exact .cited ⟨rfl, rfl, rfl, rfl, rfl, rfl, rfl, rfl, rfl, rfl⟩ fun h => absurd h henabled

theorem move_verifyClaims : Move rt i .verifyClaims s (Position.execute rt i .verifyClaims s) := by
  apply move_of_run
  intro t hrun
  rw [execute_next hrun rfl]
  have hbody : verifyDraftClaims s = .ok t := hrun
  rw [verifyDraftClaims] at hbody
  split_ifs at hbody with henabled
  · simp only [except_bind_eq_ok_iff, except_pure_eq_ok_iff] at hbody
    obtain ⟨draft, _, rfl⟩ := hbody
    exact .verified ⟨rfl, rfl, rfl, rfl, rfl, rfl, rfl, rfl, rfl, rfl⟩ fun _ => by simp
  · cases hbody
    exact .verified ⟨rfl, rfl, rfl, rfl, rfl, rfl, rfl, rfl, rfl, rfl⟩ fun h => absurd h henabled

theorem move_finalizeAnswer :
    Move rt i .finalizeAnswer s (Position.execute rt i .finalizeAnswer s) := by
  apply move_of_run
  intro t hrun
  rw [execute_end hrun rfl]
  have hbody : finalizeAnswer s = .ok t := hrun
  simp only [finalizeAnswer, except_bind_eq_ok_iff, except_pure_eq_ok_iff] at hbody
  obtain ⟨answer, _, confidence, _, rfl⟩ := hbody
  refine .finalized ⟨rfl, rfl, rfl, rfl, rfl, rfl, rfl, rfl, rfl, rfl⟩ ?_
  dsimp only [finalStatus]
  split_ifs <;> decide

end Executions

/-- Every node execution is one of the moves. -/
theorem move (rt : Runtime) (i : Input) (node : Node) (s : ResearchState) :
    Move rt i node s (Position.execute rt i node s) := by
  cases node with
  | routeQuery => exact move_routeQuery
  | directRetrieve => exact move_directRetrieve
  | createPlan => exact move_createPlan
  | validatePlan => exact move_validatePlan
  | resolveStepArguments => exact move_resolveStepArguments
  | markStepRunning => exact move_markStepRunning
  | executeStep => exact move_executeStep
  | assessEvidence => exact move_assessEvidence
  | replan => exact move_replan
  | markRemainingStepsSkipped => exact move_markRemainingStepsSkipped
  | buildContext => exact move_buildContext
  | generateAnswer => exact move_generateAnswer
  | validateCitations => exact move_validateCitations
  | verifyClaims => exact move_verifyClaims
  | finalizeAnswer => exact move_finalizeAnswer
  | finishPartial =>
    rw [execute_end rfl rfl]
    exact .partially ⟨rfl, rfl, rfl, rfl, rfl, rfl, rfl, rfl, rfl, rfl⟩ rfl

end CodeResearch.Research
