import CodeResearch.Research.Invariant

/-!
# When no node raises

The plan validator raises nothing but `PlanValidationError` on plans within the
size limit, and a node finds the keys that it reads, unless a cancellation is
first seen where the answer is being produced.
-/
namespace CodeResearch.Research

section Validation

variable {rt : Runtime} {ordered : List PlanStep} {step : PlanStep} {fault : AgentFault}

variable {ordinal : ℕ} {stepId : String}

theorem requirePrior_ok {source : PlanStep} (h : requirePrior ordered ordinal stepId = .ok source) :
    source ∈ ordered ∧ source.ordinal < ordinal := by
  simp only [requirePrior, orError_eq_ok_iff, Option.filter_eq_some_iff] at h
  exact ⟨List.mem_of_find?_eq_some h.1, by simpa using h.2⟩

theorem requirePrior_error (h : requirePrior ordered ordinal stepId = .error fault) :
    ∃ code message, fault = .planValidation code message := by
  simp only [requirePrior, orError_eq_error_iff] at h
  exact ⟨_, _, h.2.symm⟩

theorem ensure_planValidation {c : Prop} [Decidable c] {code message : String}
    (h : ensure c (.planValidation code message) = .error fault) :
    ∃ code message, fault = .planValidation code message := by
  rw [ensure_eq_error_iff] at h
  exact ⟨_, _, h.2.symm⟩

theorem validateBinding_error {spec : ToolSpec} {binding : ArgumentBinding}
    (hprior : ∀ source ∈ ordered, source.ordinal < step.ordinal →
      ∃ sourceSpec, rt.registry source.toolName = some sourceSpec)
    (h : validateBinding rt ordered step spec binding = .error fault) :
    ∃ code message, fault = .planValidation code message := by
  simp only [validateBinding, except_bind_eq_error_iff] at h
  rcases h with h | ⟨source, hsource, h | ⟨_, _, h | ⟨sourceSpec, _, h | ⟨_, _, h | ⟨_, _, h⟩⟩⟩⟩⟩
  · exact requirePrior_error h
  · exact ensure_planValidation h
  · obtain ⟨hmem, hlt⟩ := requirePrior_ok hsource
    obtain ⟨sourceSpec, hspec⟩ := hprior source hmem hlt
    rw [Runtime.getTool, hspec] at h
    cases h
  · exact ensure_planValidation h
  · exact ensure_planValidation h
  · exact ensure_planValidation h

theorem validateStep_ok (h : validateStep rt ordered step = .ok ⟨⟩) :
    ∃ spec, rt.registry step.toolName = some spec := by
  simp only [validateStep, except_bind_eq_ok_iff, orError_eq_ok_iff] at h
  obtain ⟨spec, hspec, _⟩ := h
  exact ⟨spec, hspec⟩

theorem validateStep_error
    (hprior : ∀ source ∈ ordered, source.ordinal < step.ordinal →
      ∃ sourceSpec, rt.registry source.toolName = some sourceSpec)
    (h : validateStep rt ordered step = .error fault) :
    ∃ code message, fault = .planValidation code message := by
  simp only [validateStep, except_bind_eq_error_iff, orError_eq_error_iff] at h
  rcases h with ⟨_, h⟩ | ⟨spec, _, h | ⟨_, _, h | ⟨_, _, h | ⟨_, _, h⟩⟩⟩⟩
  · exact ⟨_, _, h.symm⟩
  · exact ensure_planValidation h
  · obtain ⟨_, dependency, _, _, _, h⟩ := except_forM_error h
    simp only [except_bind_eq_error_iff] at h
    rcases h with h | ⟨_, _, h⟩
    · exact requirePrior_error h
    · cases h
  · obtain ⟨_, binding, _, _, _, h⟩ := except_forM_error h
    exact validateBinding_error hprior h
  · obtain ⟨_, literal, _, _, _, h⟩ := except_forM_error h
    exact ensure_planValidation h

/-- Within the size limit, a refused plan is refused by `PlanValidationError`. -/
theorem validatePlan_error {plan : ResearchPlan}
    (hsize : plan.steps.length ≤ rt.limits.maxPlanSteps)
    (h : validatePlan rt plan = .error fault) :
    ∃ code message, fault = .planValidation code message := by
  simp only [validatePlan, except_bind_eq_error_iff, ensure_eq_error_iff] at h
  rcases h with ⟨h, _⟩ | ⟨_, _, ⟨_, h⟩ | ⟨_, hordinals, ⟨_, h⟩ | ⟨_, _, h | ⟨_, _, h⟩⟩⟩⟩
  · exact absurd hsize h
  · exact ⟨_, _, h.symm⟩
  · exact ⟨_, _, h.symm⟩
  · obtain ⟨before, step, after, hsplit, hbefore, hfails⟩ := except_forM_error h
    refine validateStep_error ?_ hfails
    intro source hsource hlt
    -- the steps with smaller ordinals stand before this one, and were accepted
    have hsorted : (orderedSteps plan).Pairwise fun a b => a.ordinal < b.ordinal := by
      rw [← List.pairwise_map, (ensure_eq_ok_iff.mp hordinals)]
      exact List.pairwise_lt_range
    rw [hsplit] at hsource hsorted
    rcases List.mem_append.mp hsource with hmem | hmem
    · exact validateStep_ok (hbefore source hmem)
    · have htail := (List.pairwise_append.mp hsorted).2.1
      rcases List.mem_cons.mp hmem with rfl | hmem
      · exact absurd hlt (Nat.lt_irrefl _)
      · exact absurd hlt (Nat.lt_asymm ((List.pairwise_cons.mp htail).1 source hmem))
  · cases h

end Validation

def Covered (runtimes : List PlanStepRuntime) (planVersion stepId : String) : Prop :=
  ∃ r ∈ runtimes, r.stepId = stepId ∧ r.planVersion = planVersion

theorem Covered.replaceRuntime {runtimes : List PlanStepRuntime} {planVersion stepId : String}
    (h : Covered runtimes planVersion stepId) (r : PlanStepRuntime) :
    Covered (replaceRuntime runtimes r) planVersion stepId := by
  induction runtimes with
  | nil =>
    obtain ⟨_, hmem, _⟩ := h
    cases hmem
  | cons item rest ih =>
    obtain ⟨x, hx, hid, hversion⟩ := h
    unfold Research.replaceRuntime
    split_ifs with hsame
    · rcases List.mem_cons.mp hx with rfl | hx
      · exact ⟨r, List.mem_cons_self, hsame.1.symm.trans hid, hsame.2.symm.trans hversion⟩
      · exact ⟨x, List.mem_cons_of_mem _ hx, hid, hversion⟩
    · rcases List.mem_cons.mp hx with rfl | hx
      · exact ⟨x, List.mem_cons_self, hid, hversion⟩
      · obtain ⟨y, hy, hkey⟩ := ih ⟨x, hx, hid, hversion⟩
        exact ⟨y, List.mem_cons_of_mem _ hy, hkey⟩

def Node.Concludes (node : Node) : Prop :=
  node ∈ [markRemainingStepsSkipped, buildContext, generateAnswer, validateCitations, verifyClaims,
    finalizeAnswer]

def Runtime.Searches (rt : Runtime) (query : String) : Prop :=
  ∀ queryType, ∃ resolved, resolve rt (directStep query queryType) "direct" [] = .ok resolved

/-- What a node reads is there. -/
structure Ready (rt : Runtime) (node : Node) (s : ResearchState) : Prop where
  queryType : node ≠ .routeQuery → s.queryType ≠ none
  pending : node = .validatePlan → s.cancelRequested = false → ∀ pending,
    s.pendingPlan = some pending → pending.steps.length ≤ rt.limits.maxPlanSteps
  direct : node = .directRetrieve ∨ node = .routeQuery →
    s.observations = [] ∧ rt.Searches s.query
  covered : (node.Concludes → node = .markRemainingStepsSkipped) → ∀ plan, s.plan = some plan →
    ∀ step ∈ plan.steps, Covered s.stepRuntime plan.planVersion step.stepId
  assessment : node.Concludes → s.evidenceAssessment ≠ none
  context : node = .generateAnswer → s.cancelRequested = true ∨ s.context ≠ none
  draft : node = .validateCitations → s.answerEnabled = true →
    s.draftAnswer ≠ none ∧ s.context ≠ none
  verified : node = .verifyClaims → s.answerEnabled = true → s.draftAnswer ≠ none
  validated : node = .finalizeAnswer → s.answerEnabled = true → s.validatedAnswer ≠ none

variable (rt : Runtime)

def Position.Serves : Position → Input → Prop
  | running .directRetrieve s, i => Cancelled i s ∨ rt.limits.CanCallTool s
  | running .createPlan _, i => i.plan.steps.length ≤ rt.limits.maxPlanSteps
  | running .buildContext s, i => ¬ Cancelled i s ∨ s.answerEnabled = false
  | running .generateAnswer s, i => ¬ Cancelled i s ∨ s.answerEnabled = false
  | _, _ => True

instance (p : Position) (i : Input) : Decidable (p.Serves rt i) := by
  unfold Position.Serves
  split <;> infer_instance

variable {rt} {i : Input} {node : Node} {s t : ResearchState}

theorem exists_unlessCancelled {body : Except AgentFault ResearchState}
    (h : ¬ Cancelled i s → ∃ t, body = .ok t) : ∃ t, unlessCancelled i s body = .ok t := by
  by_cases hc : Cancelled i s
  · exact ⟨_, unlessCancelled_cancelled hc⟩
  · rw [unlessCancelled_live hc]
    exact h hc

/-- An executed step raises nothing: its tool is there, and a spent budget is caught. -/
theorem exists_executeStep (hsane : Sane rt .executeStep s) :
    ∃ t, executeStep rt i s = .ok t := by
  apply exists_unlessCancelled
  intro hc
  cases hcurrent : currentStep s with
  | none => exact ⟨_, rfl⟩
  | some p =>
    obtain ⟨plan, step⟩ := p
    obtain ⟨resolved, hresolves, hstored⟩ :=
      hsane.arguments (.inr ⟨rfl, not_cancelled hc⟩) plan step hcurrent
    obtain ⟨spec, htool, hdump, _⟩ := resolve_ok hresolves
    rw [← hstored] at hdump
    dsimp only
    rw [htool, except_bind_ok, hdump, Except.mapError, except_bind_ok, hresolves, except_bind_ok]
    split_ifs
    · exact ⟨_, rfl⟩
    · cases hrun : runStep rt i s step plan.planVersion resolved with
      | ok t => exact ⟨t, rfl⟩
      | error fault =>
        obtain ⟨rfl, _⟩ := runStep_error hrun
        exact ⟨_, rfl⟩

theorem exists_directRetrieve (h : Ready rt .directRetrieve s)
    (hserves : Cancelled i s ∨ rt.limits.CanCallTool s) : ∃ t, directRetrieve rt i s = .ok t := by
  apply exists_unlessCancelled
  intro hc
  obtain ⟨queryType, hq⟩ := Option.ne_none_iff_exists'.mp (h.queryType (by simp))
  obtain ⟨hnone, hsearches⟩ := h.direct (.inl rfl)
  obtain ⟨resolved, hresolves⟩ := hsearches queryType
  rw [← hnone] at hresolves
  rw [hq, orError_some, except_bind_ok]
  dsimp only
  rw [hresolves, except_bind_ok]
  cases hrun : runStep rt i s (directStep s.query queryType) "direct" resolved with
  | ok t => exact ⟨_, rfl⟩
  | error fault =>
    rcases hserves with hcancel | hcan
    · exact absurd hcancel hc
    · exact absurd hcan (runStep_error hrun).2.2

theorem exists_skipped (h : Ready rt .markRemainingStepsSkipped s) :
    ∃ t, markRemainingStepsSkipped s = .ok t := by
  unfold markRemainingStepsSkipped
  cases hplan : s.plan with
  | none => exact ⟨_, rfl⟩
  | some plan =>
    obtain ⟨runtimes, hruntimes⟩ : ∃ runtimes, skippedRuntimes s plan = .ok runtimes := by
      apply exists_except_mapM
      rintro ⟨step, index⟩ hmem
      dsimp only
      split_ifs
      · exact ⟨_, rfl⟩
      · obtain ⟨r, hr, hid, hversion⟩ :=
          h.covered (fun _ => rfl) plan hplan step (List.fst_mem_of_mem_zipIdx hmem)
        cases hfind : (s.stepRuntime.filter fun r => r.planVersion = plan.planVersion).reverse.find?
            fun r => r.stepId = step.stepId with
        | some x => exact ⟨x, rfl⟩
        | none =>
          have hnone := List.find?_eq_none.mp hfind r (by simp [hr, hversion])
          simp [hid] at hnone
    dsimp only
    rw [hruntimes]
    exact ⟨_, rfl⟩

theorem Ready.not_raises (h : Ready rt node s) (hsane : Sane rt node s)
    (hserves : (Position.running node s).Serves rt i) : ∃ t, runNode rt i s node = .ok t := by
  cases node with
  | routeQuery | buildContext => exact exists_unlessCancelled fun _ => ⟨_, rfl⟩
  | directRetrieve => exact exists_directRetrieve h hserves
  | createPlan | assessEvidence =>
    apply exists_unlessCancelled
    intro _
    obtain ⟨queryType, hq⟩ := Option.ne_none_iff_exists'.mp (h.queryType (by simp))
    rw [hq]
    exact ⟨_, rfl⟩
  | validatePlan =>
    apply exists_unlessCancelled
    intro hc
    cases hpending : s.pendingPlan with
    | none => exact ⟨_, rfl⟩
    | some pending =>
      dsimp only
      cases hvalid : validatePlan rt pending with
      | ok plan => exact ⟨_, rfl⟩
      | error fault =>
        have hsize := h.pending rfl (not_cancelled hc) pending hpending
        obtain ⟨code, message, rfl⟩ := validatePlan_error hsize hvalid
        exact ⟨_, rfl⟩
  | resolveStepArguments =>
    apply exists_unlessCancelled
    intro _
    cases currentStep s with
    | none => exact ⟨_, rfl⟩
    | some p =>
      dsimp only
      cases resolve rt p.2 p.1.planVersion s.observations with
      | ok | error => exact ⟨_, rfl⟩
  | markStepRunning =>
    apply exists_unlessCancelled
    intro _
    cases currentStep s with
    | none | some => exact ⟨_, rfl⟩
  | executeStep => exact exists_executeStep hsane
  | replan => exact ⟨_, if_pos (hsane.replans rfl)⟩
  | markRemainingStepsSkipped => exact exists_skipped h
  | generateAnswer =>
    apply exists_unlessCancelled
    intro _
    cases s.context with
    | none => exact ⟨_, rfl⟩
    | some context =>
      dsimp only
      split_ifs <;> exact ⟨_, rfl⟩
  | validateCitations =>
    unfold runNode validateDraftCitations
    split_ifs with henabled
    · obtain ⟨hdraft, hcontext⟩ := h.draft rfl henabled
      obtain ⟨draft, hd⟩ := Option.ne_none_iff_exists'.mp hdraft
      obtain ⟨context, hx⟩ := Option.ne_none_iff_exists'.mp hcontext
      rw [hd, hx]
      exact ⟨_, rfl⟩
    · exact ⟨_, rfl⟩
  | verifyClaims =>
    unfold runNode verifyDraftClaims
    split_ifs with henabled
    · obtain ⟨draft, hd⟩ := Option.ne_none_iff_exists'.mp (h.verified rfl henabled)
      rw [hd]
      exact ⟨_, rfl⟩
    · exact ⟨_, rfl⟩
  | finalizeAnswer =>
    obtain ⟨assessment, ha⟩ :=
      Option.ne_none_iff_exists'.mp (h.assessment (by simp [Node.Concludes]))
    obtain ⟨answer, hanswer⟩ : ∃ answer, finalAnswer s = .ok answer := by
      unfold finalAnswer
      split_ifs with henabled
      · obtain ⟨validated, hv⟩ := Option.ne_none_iff_exists'.mp (h.validated rfl henabled)
        rw [hv]
        exact ⟨_, rfl⟩
      · exact ⟨_, rfl⟩
    obtain ⟨confidence, hconfidence⟩ : ∃ confidence, finalConfidence s answer = .ok confidence := by
      cases answer with
      | some a => exact ⟨_, rfl⟩
      | none =>
        unfold finalConfidence
        rw [ha]
        exact ⟨_, rfl⟩
    unfold runNode finalizeAnswer
    rw [hanswer, except_bind_ok, hconfidence]
    exact ⟨_, rfl⟩
  | finishPartial => exact ⟨_, rfl⟩

def Node.Plans (node : Node) : Prop :=
  node ∈ [createPlan, resolveStepArguments, markStepRunning, executeStep, assessEvidence, replan,
    finishPartial]

variable {next : Node} {request : ResearchRequest} {p : Position}

theorem Ready.planning (hnext : next.Plans) (hq : t.queryType ≠ none)
    (hcovered : ∀ plan, t.plan = some plan → ∀ step ∈ plan.steps,
      Covered t.stepRuntime plan.planVersion step.stepId) : Ready rt next t := by
  simp only [Node.Plans, List.mem_cons, List.not_mem_nil, or_false] at hnext
  refine ⟨fun _ => hq, ?_, ?_, fun _ => hcovered, ?_, ?_, ?_, ?_, ?_⟩ <;>
    rcases hnext with rfl | rfl | rfl | rfl | rfl | rfl | rfl <;> simp [Node.Concludes]

theorem Ready.quiet (h : Ready rt node s) (hnode : node ≠ .routeQuery)
    (hplans : node.Concludes → node = .markRemainingStepsSkipped)
    (hnext : next.Plans) (hq : t.queryType = s.queryType) (hplan : t.plan = s.plan)
    (hruntime : t.stepRuntime = s.stepRuntime) : Ready rt next t := by
  apply Ready.planning hnext
  · rw [hq]
    exact h.queryType hnode
  · rw [hplan, hruntime]
    exact h.covered hplans

theorem Ready.replaced (h : Ready rt node s) (hnode : node ≠ .routeQuery)
    (hplans : node.Concludes → node = .markRemainingStepsSkipped)
    (hnext : next.Plans) (hq : t.queryType = s.queryType) (hplan : t.plan = s.plan)
    {r : PlanStepRuntime} (hruntime : t.stepRuntime = replaceRuntime s.stepRuntime r) :
    Ready rt next t := by
  apply Ready.planning hnext
  · rw [hq]
    exact h.queryType hnode
  · rw [hplan, hruntime]
    intro plan hp step hstep
    exact (h.covered hplans plan hp step hstep).replaceRuntime r

/-- A node of the answer phase finds the assessment that let it start. -/
theorem Ready.concluding (h : Ready rt node s) (hconcludes : node.Concludes)
    (hq : t.queryType = s.queryType) (ha : t.evidenceAssessment = s.evidenceAssessment)
    (hnext : next ∈ [Node.buildContext, .generateAnswer, .validateCitations, .verifyClaims,
      .finalizeAnswer])
    (hcontext : next = .generateAnswer → t.cancelRequested = true ∨ t.context ≠ none)
    (hdraft : next = .validateCitations → t.answerEnabled = true →
      t.draftAnswer ≠ none ∧ t.context ≠ none)
    (hverified : next = .verifyClaims → t.answerEnabled = true → t.draftAnswer ≠ none)
    (hvalidated : next = .finalizeAnswer → t.answerEnabled = true → t.validatedAnswer ≠ none) :
    Ready rt next t := by
  have hroute : node ≠ .routeQuery := by
    rintro rfl
    simp [Node.Concludes] at hconcludes
  simp only [List.mem_cons, List.not_mem_nil, or_false] at hnext
  refine ⟨?_, ?_, ?_, ?_, ?_, hcontext, hdraft, hverified, hvalidated⟩
  · intro _
    rw [hq]
    exact h.queryType hroute
  · rcases hnext with rfl | rfl | rfl | rfl | rfl <;> simp
  · rcases hnext with rfl | rfl | rfl | rfl | rfl <;> simp
  · rcases hnext with rfl | rfl | rfl | rfl | rfl <;> simp [Node.Concludes]
  · intro _
    rw [ha]
    exact h.assessment hconcludes

def Position.Ready (rt : Runtime) : Position → Prop
  | running node s => Research.Ready rt node s
  | ended _ => True
  | raised _ _ _ => False

theorem covered_adopted (plan : ResearchPlan) : ∀ step ∈ plan.steps,
    Covered (s.adopted plan).stepRuntime plan.planVersion step.stepId := by
  intro step hstep
  refine ⟨{ stepId := step.stepId, planVersion := plan.planVersion, status := .pending }, ?_, rfl,
    rfl⟩
  apply List.mem_append_right
  exact List.mem_map.mpr ⟨step, hstep, rfl⟩

theorem Ready.passed (h : Ready rt node s) (hcancelled : Cancelled i s)
    (hpasses : node.Passes next) (hserves : (Position.running node s).Serves rt i) :
    Ready rt next s.cancel := by
  simp only [Node.Passes, List.mem_cons, Prod.mk.injEq, List.not_mem_nil, or_false] at hpasses
  rcases hpasses with ⟨rfl, rfl⟩ | ⟨rfl, rfl⟩ | ⟨rfl, rfl⟩ | ⟨rfl, rfl⟩ | ⟨rfl, rfl⟩ | ⟨rfl, rfl⟩
  · exact h.quiet (by simp) (by simp [Node.Concludes]) (by simp [Node.Plans]) rfl rfl rfl
  · refine ⟨fun _ => h.queryType (by simp), ?_, ?_, fun _ => h.covered (by simp [Node.Concludes]),
      ?_, ?_, ?_, ?_, ?_⟩ <;> simp [ResearchState.cancel, Node.Concludes]
  · exact h.quiet (by simp) (by simp [Node.Concludes]) (by simp [Node.Plans]) rfl rfl rfl
  · exact h.quiet (by simp) (by simp [Node.Concludes]) (by simp [Node.Plans]) rfl rfl rfl
  · refine h.concluding (by simp [Node.Concludes]) rfl rfl (by simp) (fun _ => .inl rfl) ?_ ?_ ?_ <;>
      simp
  · refine h.concluding (by simp [Node.Concludes]) rfl rfl (by simp) (by simp) ?_ (by simp) (by simp)
    intro _ henabled
    rcases hserves with hlive | hdisabled
    · exact absurd hcancelled hlive
    · exact absurd (hdisabled.symm.trans henabled) (by simp)

/-- A served execution of a ready node leaves the graph ready. -/
theorem ready_execute (h : Ready rt node s) (hsane : Sane rt node s)
    (hserves : (Position.running node s).Serves rt i) :
    (Position.execute rt i node s).Ready rt := by
  obtain ⟨u, hruns⟩ := h.not_raises hsane hserves
  have hmove := move rt i node s
  generalize Position.execute rt i node s = p at hmove
  cases hmove with
  | stopped | finalized | partially => trivial
  | passed hcancelled hpasses => exact h.passed hcancelled hpasses hserves
  | routed _ =>
    cases i.decision.route with
    | direct =>
      refine ⟨?_, ?_, fun _ => h.direct (.inr rfl), fun _ => h.covered (by simp [Node.Concludes]),
        ?_, ?_, ?_, ?_, ?_⟩ <;> simp [ResearchRoute.node, ResearchState.routed, Node.Concludes]
    | planned =>
      apply Ready.planning (by simp [ResearchRoute.node, Node.Plans])
      · simp [ResearchState.routed]
      · exact h.covered (by simp [Node.Concludes])
  | retrieved _ _ _ hrun | executed _ _ _ hrun =>
    obtain ⟨r, hruntime⟩ := (runStep_ok hrun).stepRuntime
    exact h.replaced (by simp) (by simp [Node.Concludes]) (by simp [Node.Plans])
      (runStep_ok hrun).queryType (runStep_ok hrun).plan hruntime
  | proposed hlive =>
    refine ⟨fun _ => h.queryType (by simp), ?_, ?_, fun _ => h.covered (by simp [Node.Concludes]),
      ?_, ?_, ?_, ?_, ?_⟩
    · rintro _ _ pending hpending
      cases hpending
      exact hserves
    all_goals simp [Node.Concludes]
  | @adopted _ _ plan _ _ _ =>
    refine Ready.planning (by simp [Node.Plans]) (h.queryType (by simp)) ?_
    intro p hp
    cases hp
    exact covered_adopted plan
  | refused | changed | exceeded | replanned | exhausted =>
    exact h.quiet (by simp) (by simp [Node.Concludes]) (by simp [Node.Plans]) rfl rfl rfl
  | missing hlive hnone hmisses => exact absurd hnone (hsane.not_missing hlive hmisses)
  | unresolved | resolved | marked =>
    exact h.replaced (by simp) (by simp [Node.Concludes]) (by simp [Node.Plans]) rfl rfl rfl
  | @assessed _ queryType _ _ =>
    cases hnext : (s.assessment rt queryType).nextAction with
    | buildContext =>
      refine ⟨fun _ => h.queryType (by simp), ?_, ?_, fun _ => h.covered (by simp [Node.Concludes]),
        ?_, ?_, ?_, ?_, ?_⟩ <;> simp [NextAction.node, ResearchState.assessed]
    | resolveNext | escalateToPlan | replan | finishPartial =>
      exact h.quiet (by simp) (by simp [Node.Concludes]) (by simp [NextAction.node, Node.Plans])
        rfl rfl rfl
  | skipped hanswering =>
    refine h.concluding (by simp [Node.Concludes]) hanswering.queryType
      hanswering.evidenceAssessment (by simp) ?_ ?_ ?_ ?_ <;> simp
  | built _ =>
    refine h.concluding (by simp [Node.Concludes]) rfl rfl (by simp) ?_ ?_ ?_ ?_ <;> simp
  | generated hlive hanswering hcontext hdraft =>
    have hfound : s.context ≠ none :=
      (h.context rfl).resolve_left (by simp [not_cancelled hlive])
    refine h.concluding (by simp [Node.Concludes]) hanswering.queryType
      hanswering.evidenceAssessment (by simp) (by simp) ?_ (by simp) (by simp)
    intro _ henabled
    constructor
    · exact hdraft hfound (hanswering.answerEnabled.symm.trans henabled)
    · rwa [hcontext]
  | cited hanswering hdraft =>
    refine h.concluding (by simp [Node.Concludes]) hanswering.queryType
      hanswering.evidenceAssessment (by simp) (by simp) (by simp) ?_ (by simp)
    intro _ henabled
    exact hdraft (hanswering.answerEnabled.symm.trans henabled)
  | verified hanswering hvalidated =>
    refine h.concluding (by simp [Node.Concludes]) hanswering.queryType
      hanswering.evidenceAssessment (by simp) (by simp) (by simp) (by simp) ?_
    intro _ henabled
    exact hvalidated (hanswering.answerEnabled.symm.trans henabled)
  | raised hfails =>
    rw [hruns] at hfails
    cases hfails

theorem ready_start (h : rt.Searches request.query) : (Position.start request).Ready rt := by
  refine ⟨by simp, by simp, fun _ => ⟨rfl, h⟩, ?_, ?_, ?_, ?_, ?_, ?_⟩ <;>
    simp [initialResearchState, Node.Concludes]

theorem ready_step {q : Position} (h : p.Ready rt) (hsane : p.Sane rt) (hserves : p.Serves rt i)
    (hstep : p.step rt i = some q) : q.Ready rt := by
  cases p with
  | running node s =>
    cases hstep
    exact ready_execute h hsane hserves
  | ended | raised => cases hstep

theorem ready_run {inputs : List Input} (h : rt.Searches request.query)
    (hrun : (machine rt).Run (Position.Serves rt) (.start request) inputs p) : p.Ready rt := by
  have hboth : p.Sane rt ∧ p.Ready rt := by
    apply Machine.Run.invariant (fun p => p.Sane rt ∧ p.Ready rt) _ hrun
    · exact ⟨sane_start request, ready_start h⟩
    · intro p i q hp hserves hstep
      exact ⟨sane_step hp.1 hstep, ready_step hp.2 hp.1 hserves hstep⟩
  exact hboth.2

end CodeResearch.Research
