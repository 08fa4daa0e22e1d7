import CodeResearch.Research.GraphSpec

/-!
# Invariants of the planning phase

A step that is resolved, marked or executed is there, and its arguments still
resolve to what was stored. Plans keep their size and replanning its budget.
-/
namespace CodeResearch.Research

section Executor

variable {rt : Runtime} {i : Input} {s t : ResearchState} {step : PlanStep} {planVersion : String}
  {resolved : ResolvedStepArguments}

/-- What an executed step changes: a new call or a reused observation. -/
structure Ran (rt : Runtime) (s t : ResearchState) (step : PlanStep) (planVersion : String)
    (resolved : ResolvedStepArguments) : Prop where
  plan : t.plan = s.plan
  queryType : t.queryType = s.queryType
  route : t.route = s.route
  directEscalatedToPlanned : t.directEscalatedToPlanned = s.directEscalatedToPlanned
  replanCount : t.replanCount = s.replanCount
  cancelRequested : t.cancelRequested = s.cancelRequested
  currentStepIndex : t.currentStepIndex =
    if planVersion ≠ "direct" then s.currentStepIndex + 1 else 0
  stepRuntime : ∃ r : PlanStepRuntime, t.stepRuntime = replaceRuntime s.stepRuntime r
  observed : ∃ o, t.observations = s.observations ++ [o] ∧
    ((∃ r, reusable s (semanticToolCallKey rt s step.toolName resolved.canonicalJson) = some r) ∧
        o.reused = true ∧ t.toolCallCount = s.toolCallCount ∧
        t.toolFailureCount = s.toolFailureCount ∨
      reusable s (semanticToolCallKey rt s step.toolName resolved.canonicalJson) = none ∧
        rt.limits.CanCallTool s ∧ o.reused = false ∧ t.toolCallCount = s.toolCallCount + 1 ∧
        t.toolFailureCount = s.toolFailureCount +
          if o.status = .failed ∨ o.status = .timeout then 1 else 0)

theorem runStep_ok (h : runStep rt i s step planVersion resolved = .ok t) :
    Ran rt s t step planVersion resolved := by
  simp only [runStep, except_bind_eq_ok_iff, except_pure_eq_ok_iff] at h
  obtain ⟨outcome, hout, rfl⟩ := h
  unfold execute at hout
  dsimp only at hout
  refine ⟨rfl, rfl, rfl, rfl, rfl, rfl, rfl, ⟨_, rfl⟩, outcome.observation, rfl, ?_⟩
  split at hout
  · rename_i o ho
    cases hout
    exact .inl ⟨⟨o, ho⟩, rfl, rfl, rfl⟩
  · rename_i hnone
    by_cases hcall : rt.limits.CanCallTool s
    · rw [if_pos hcall] at hout
      cases hout
      exact .inr ⟨hnone, hcall, rfl, rfl, rfl⟩
    · rw [if_neg hcall] at hout
      cases hout

/-- A step fails only for want of a tool call. -/
theorem runStep_error {fault : AgentFault}
    (h : runStep rt i s step planVersion resolved = .error fault) :
    fault = .budgetExceeded "tool_call_budget_exhausted" ∧
      reusable s (semanticToolCallKey rt s step.toolName resolved.canonicalJson) = none ∧
      ¬ rt.limits.CanCallTool s := by
  simp only [runStep, except_bind_eq_error_iff] at h
  rcases h with h | ⟨_, _, h⟩
  · unfold execute at h
    dsimp only at h
    split at h
    · cases h
    · rename_i hnone
      split_ifs at h with hcall
      cases h
      exact ⟨rfl, hnone, hcall⟩
  · cases h

theorem resolve_ok {observations : List ToolObservation}
    (h : resolve rt step planVersion observations = .ok resolved) :
    ∃ spec, rt.getTool step.toolName = .ok spec ∧
      spec.revalidate resolved.arguments = .ok resolved.arguments ∧
      resolved.canonicalJson = rt.canonical resolved.arguments := by
  simp only [resolve, except_bind_eq_ok_iff] at h
  obtain ⟨bound, _, spec, hspec, h⟩ := h
  split at h
  · rename_i dump hdump
    cases h
    exact ⟨spec, hspec, spec.revalidate_dump _ _ hdump, rfl⟩
  · cases h

end Executor

theorem validatePlan_ok {rt : Runtime} {pending plan : ResearchPlan}
    (h : validatePlan rt pending = .ok plan) : plan.steps.length ≤ rt.limits.maxPlanSteps := by
  simp only [validatePlan, except_bind_eq_ok_iff, ensure_eq_ok_iff, except_pure_eq_ok_iff] at h
  obtain ⟨_, hsize, _, _, _, _, _, _, rfl⟩ := h
  simpa [orderedSteps, List.length_insertionSort] using hsize

theorem currentStep_adopted (s : ResearchState) (plan : ResearchPlan) :
    ∃ step, currentStep (s.adopted plan) = some (plan, step) := by
  obtain ⟨step, hstep⟩ : ∃ step, plan.steps[0]? = some step :=
    ⟨_, List.getElem?_eq_getElem (List.length_pos_iff.mpr plan.nonempty)⟩
  exact ⟨step, by simp [currentStep, ResearchState.adopted, hstep]⟩

theorem currentStep_lt {s : ResearchState} {plan : ResearchPlan} {step : PlanStep}
    (h : currentStep s = some (plan, step)) :
    s.plan = some plan ∧ s.currentStepIndex < plan.steps.length := by
  simp only [currentStep, Option.bind_eq_some_iff, Option.map_eq_some_iff, Prod.mk.injEq] at h
  obtain ⟨p, hp, st, hst, rfl, rfl⟩ := h
  exact ⟨hp, (List.getElem?_eq_some_iff.mp hst).1⟩

theorem currentStep_of_hasRemaining {s : ResearchState} (h : hasRemaining s = true) :
    ∃ plan step, currentStep s = some (plan, step) := by
  unfold hasRemaining at h
  cases hp : s.plan with
  | none => simp [hp] at h
  | some plan =>
    have hlt : s.currentStepIndex < plan.steps.length := by simpa [hp] using h
    exact ⟨plan, plan.steps[s.currentStepIndex], by
      simp [currentStep, hp, List.getElem?_eq_getElem hlt]⟩

section Assessment

variable {queryType : QueryType} {route : ResearchRoute} {observations : List ToolObservation}
  {remaining escalated replannable : Bool}

theorem assess_resolveNext
    (h : (assess queryType route observations remaining escalated replannable).nextAction =
      .resolveNext) : remaining = true := by
  unfold assess at h
  dsimp only at h
  split_ifs at h with _ hremaining
  exact hremaining

theorem assess_escalateToPlan
    (h : (assess queryType route observations remaining escalated replannable).nextAction =
      .escalateToPlan) : route = .direct ∧ escalated = false := by
  unfold assess at h
  dsimp only at h
  split_ifs at h with _ _ hdirect
  exact ⟨hdirect.1, by simpa using hdirect.2⟩

theorem assess_replan
    (h : (assess queryType route observations remaining escalated replannable).nextAction =
      .replan) : route = .planned ∧ replannable = true := by
  unfold assess at h
  dsimp only at h
  split_ifs at h with _ _ _ hplanned
  exact hplanned

end Assessment

/-- What holds when a node is about to run. -/
structure Sane (rt : Runtime) (node : Node) (s : ResearchState) : Prop where
  size : ∀ plan, s.plan = some plan → plan.steps.length ≤ rt.limits.maxPlanSteps
  planned : node = .validatePlan → s.cancelRequested = true ∨ s.route = .planned
  current : node = .resolveStepArguments ∨ node = .markStepRunning ∨
    (node = .executeStep ∧ s.cancelRequested = false) → ∃ plan step, currentStep s = some (plan, step)
  arguments : node = .markStepRunning ∨ (node = .executeStep ∧ s.cancelRequested = false) →
    ∀ plan step, currentStep s = some (plan, step) → ∃ resolved,
      resolve rt step plan.planVersion s.observations = .ok resolved ∧
        s.resolvedArguments = resolved.arguments
  replans : node = .replan → rt.limits.CanReplan s

def Position.Sane (rt : Runtime) : Position → Prop
  | running node s => Research.Sane rt node s
  | _ => True

section Preservation

variable {rt : Runtime} {i : Input} {node : Node} {s t : ResearchState} {next : Node}

theorem Sane.quiet (h : Sane rt node s) (hplan : t.plan = s.plan)
    (hnext : next ≠ .validatePlan ∧ next ≠ .resolveStepArguments ∧ next ≠ .markStepRunning ∧
      next ≠ .executeStep ∧ next ≠ .replan) : Sane rt next t := by
  obtain ⟨h₁, h₂, h₃, h₄, h₅⟩ := hnext
  refine ⟨hplan ▸ h.size, fun h => absurd h h₁, ?_, ?_, fun h => absurd h h₅⟩
  · rintro (h | h | ⟨h, _⟩) <;> contradiction
  · rintro (h | ⟨h, _⟩) <;> contradiction

theorem Sane.cancel (h : Sane rt node s) (hpasses : node.Passes next) : Sane rt next s.cancel := by
  refine ⟨h.size, fun _ => .inl rfl, ?_, ?_, ?_⟩
  · rintro (h | h | ⟨_, h⟩)
    · simp [Node.Passes, h] at hpasses
    · simp [Node.Passes, h] at hpasses
    · simp [ResearchState.cancel] at h
  · rintro (h | ⟨_, h⟩)
    · simp [Node.Passes, h] at hpasses
    · simp [ResearchState.cancel] at h
  · intro h
    simp [Node.Passes, h] at hpasses

theorem not_cancelled (h : ¬ Cancelled i s) : s.cancelRequested = false := by
  simpa using fun hs => h (.inl hs)

theorem Sane.not_missing (h : Sane rt node s) (hlive : ¬ Cancelled i s) (hmisses : node.Misses next)
    : currentStep s ≠ none := by
  have hcurrent : ∃ plan step, currentStep s = some (plan, step) := by
    apply h.current
    simp only [Node.Misses, List.mem_cons, Prod.mk.injEq, List.not_mem_nil, or_false] at hmisses
    rcases hmisses with ⟨hnode, _⟩ | ⟨hnode, _⟩ | ⟨hnode, _⟩
    · exact .inl hnode
    · exact .inr (.inl hnode)
    · exact .inr (.inr ⟨hnode, not_cancelled hlive⟩)
  obtain ⟨plan, step, hstep⟩ := hcurrent
  simp [hstep]

/-- The stored arguments of a step are those that it resolves to again. -/
theorem Sane.not_changed (h : Sane rt .executeStep s) (hlive : ¬ Cancelled i s)
    {plan : ResearchPlan} {step : PlanStep} {spec : ToolSpec} {dump : String}
    {resolved : ResolvedStepArguments} (hcurrent : currentStep s = some (plan, step))
    (htool : rt.getTool step.toolName = .ok spec)
    (hdump : spec.revalidate s.resolvedArguments = .ok dump)
    (hresolves : resolve rt step plan.planVersion s.observations = .ok resolved) :
    resolved.canonicalJson = rt.canonical dump := by
  obtain ⟨r, hr, hstored⟩ := h.arguments (.inr ⟨rfl, not_cancelled hlive⟩) plan step hcurrent
  cases hresolves.symm.trans hr
  obtain ⟨spec', htool', hsame, hcanonical⟩ := resolve_ok hresolves
  cases htool.symm.trans htool'
  rw [hstored, hsame] at hdump
  cases hdump
  exact hcanonical

/-- The successor of an assessment finds what the assessment has seen. -/
theorem Sane.assessed (h : Sane rt node s) (queryType : QueryType) :
    Sane rt (s.assessment rt queryType).nextAction.node
      (s.assessed (s.assessment rt queryType)) := by
  cases hnext : (s.assessment rt queryType).nextAction with
  | buildContext | escalateToPlan | finishPartial => exact h.quiet rfl (by simp [NextAction.node])
  | resolveNext =>
    obtain ⟨plan, step, hstep⟩ := currentStep_of_hasRemaining (assess_resolveNext hnext)
    refine ⟨h.size, ?_, fun _ => ⟨plan, step, hstep⟩, ?_, ?_⟩ <;> simp [NextAction.node]
  | replan =>
    have hcan : rt.limits.CanReplan s := by simpa using (assess_replan hnext).2
    refine ⟨h.size, ?_, ?_, ?_, fun _ => hcan⟩ <;> simp [NextAction.node]

/-- One node execution keeps the invariant. -/
theorem sane_execute (h : Sane rt node s) : (Position.execute rt i node s).Sane rt := by
  have hmove := move rt i node s
  generalize Position.execute rt i node s = p at hmove
  cases hmove with
  | stopped | finalized | partially | raised => trivial
  | passed _ hpasses => exact h.cancel hpasses
  | routed _ =>
    cases i.decision.route <;> exact h.quiet rfl (by simp [ResearchRoute.node])
  | retrieved _ _ _ hrun | executed _ _ _ hrun => exact h.quiet (runStep_ok hrun).plan (by simp)
  | proposed _ =>
    refine ⟨h.size, fun _ => .inr rfl, ?_, ?_, ?_⟩ <;> simp
  | @adopted _ _ plan _ _ hvalid =>
    refine ⟨?_, by simp, ?_, by simp, by simp⟩
    · intro p hp
      cases hp
      exact validatePlan_ok hvalid
    · intro _
      obtain ⟨step, hstep⟩ := currentStep_adopted s plan
      exact ⟨plan, step, hstep⟩
  | refused | unresolved | changed | exceeded | replanned | exhausted | built =>
      exact h.quiet rfl (by simp)
  | missing hlive hnone hmisses => exact absurd hnone (h.not_missing hlive hmisses)
  | @resolved _ plan step resolved _ hcurrent hresolves =>
    refine ⟨h.size, by simp, fun _ => ⟨plan, step, hcurrent⟩, ?_, by simp⟩
    intro _ plan' step' hcurrent'
    cases hcurrent.symm.trans hcurrent'
    exact ⟨resolved, hresolves, rfl⟩
  | marked hlive hcurrent =>
    refine ⟨h.size, by simp, fun _ => ⟨_, _, hcurrent⟩, ?_, by simp⟩
    intro _ plan' step' hcurrent'
    exact h.arguments (.inl rfl) plan' step' hcurrent'
  | assessed _ _ => exact h.assessed _
  | skipped hanswering => exact h.quiet hanswering.plan (by simp)
  | generated _ hanswering _ _ => exact h.quiet hanswering.plan (by simp)
  | cited hanswering _ | verified hanswering _ => exact h.quiet hanswering.plan (by simp)

end Preservation

section Runs

variable {rt : Runtime}

theorem sane_start (request : ResearchRequest) : (Position.start request).Sane rt := by
  refine ⟨?_, ?_, ?_, ?_, ?_⟩ <;> simp [initialResearchState]

theorem sane_step {p q : Position} {i : Input} (h : p.Sane rt) (hstep : p.step rt i = some q) :
    q.Sane rt := by
  cases p with
  | running node s =>
    cases hstep
    exact sane_execute h
  | ended | raised => cases hstep

end Runs

end CodeResearch.Research
