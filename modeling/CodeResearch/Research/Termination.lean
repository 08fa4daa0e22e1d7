import CodeResearch.Research.Invariant

/-!
# Termination of the research graph

A rank over the remaining replans, tool calls and plan steps falls with every
node execution. It stays where it is when a step neither advances nor calls a
tool: the budget of tool calls is spent, or the plan calls its version `direct`.
-/
namespace CodeResearch.Research

variable (rt : Runtime)

/-- The current step can be executed without an advance: it repeats a successful
call in a plan of version `direct`, or it would need a call beyond the budget. -/
def Stalls (s : ResearchState) : Prop :=
  match currentStep s with
  | none => False
  | some (plan, step) =>
    match resolve rt step plan.planVersion s.observations with
    | .error _ => False
    | .ok resolved =>
      match reusable s (semanticToolCallKey rt s step.toolName resolved.canonicalJson) with
      | some _ => plan.planVersion = "direct"
      | none => ¬ rt.limits.CanCallTool s

instance (s : ResearchState) : Decidable (Stalls rt s) := by
  unfold Stalls
  split
  · infer_instance
  · split
    · infer_instance
    · split <;> infer_instance

def Position.Advances : Position → Input → Prop
  | running .executeStep s, i => Cancelled i s ∨ ¬ Stalls rt s
  | running .directRetrieve s, i => Cancelled i s ∨ rt.limits.CanCallTool s
  | _, _ => True

instance (p : Position) (i : Input) : Decidable (p.Advances rt i) := by
  unfold Position.Advances
  cases p with
  | running node s => cases node <;> infer_instance
  | _ => infer_instance

def base (s : ResearchState) : ℕ :=
  (rt.limits.maxReplanCount - s.replanCount) * (3 + 4 * rt.limits.maxPlanSteps) +
    (rt.limits.maxToolCalls - s.toolCallCount) * (4 * rt.limits.maxPlanSteps)

def remainingSteps (s : ResearchState) : ℕ :=
  (s.plan.elim 0 fun plan => plan.steps.length) - s.currentStepIndex

def escalation (s : ResearchState) : ℕ :=
  if s.route = .direct ∧ s.directEscalatedToPlanned = false then 2 + 4 * rt.limits.maxPlanSteps
  else 0

def liveRank (s : ResearchState) : Node → ℕ
  | .routeQuery => base rt s + 8 * rt.limits.maxPlanSteps + 11
  | .directRetrieve => base rt s + 8 * rt.limits.maxPlanSteps + 10
  | .createPlan => base rt s + 4 * rt.limits.maxPlanSteps + 8
  | .validatePlan => base rt s + 4 * rt.limits.maxPlanSteps + 7
  | .assessEvidence => base rt s + 4 * remainingSteps s + escalation rt s + 7
  | .resolveStepArguments => base rt s + 4 * remainingSteps s + escalation rt s + 6
  | .markStepRunning => base rt s + 4 * remainingSteps s + escalation rt s + 5
  | .executeStep => base rt s + 4 * remainingSteps s + escalation rt s + 4
  | .replan => base rt s + 6
  | .markRemainingStepsSkipped => 6
  | .buildContext => 5
  | .generateAnswer => 4
  | .validateCitations => 3
  | .verifyClaims => 2
  | .finalizeAnswer => 1
  | .finishPartial => 1

/-- The longest way of a cancelled state to the end. -/
def cancelledRank : Node → ℕ
  | .markRemainingStepsSkipped => 6
  | .buildContext => 5
  | .generateAnswer => 4
  | .validateCitations => 3
  | .markStepRunning => 3
  | .replan => 3
  | .verifyClaims => 2
  | .executeStep => 2
  | .directRetrieve => 2
  | .createPlan => 2
  | _ => 1

def Position.rank : Position → ℕ
  | running node s => if s.cancelRequested then cancelledRank node else liveRank rt s node
  | _ => 0

section Ranks

variable {rt} {i : Input} {node next : Node} {s t : ResearchState}

theorem rank_cancelled (h : s.cancelRequested = true) :
    (Position.running node s).rank rt = cancelledRank node :=
  if_pos h

theorem rank_live (h : s.cancelRequested = false) :
    (Position.running node s).rank rt = liveRank rt s node :=
  if_neg (by simp [h])

theorem rank_pos : 0 < (Position.running node s).rank rt := by
  by_cases h : s.cancelRequested
  · rw [rank_cancelled h]
    cases node <;> simp [cancelledRank]
  · rw [rank_live (by simpa using h)]
    cases node <;> simp [liveRank]

theorem cancelledRank_le : cancelledRank node ≤ liveRank rt s node := by
  cases node <;> simp [cancelledRank, liveRank]

theorem cancelledRank_passes (h : node.Passes next) : cancelledRank next < cancelledRank node := by
  simp only [Node.Passes, List.mem_cons, Prod.mk.injEq, List.not_mem_nil, or_false] at h
  rcases h with ⟨rfl, rfl⟩ | ⟨rfl, rfl⟩ | ⟨rfl, rfl⟩ | ⟨rfl, rfl⟩ | ⟨rfl, rfl⟩ | ⟨rfl, rfl⟩ <;>
    decide

theorem rank_passes (h : node.Passes next) :
    (Position.running next s.cancel).rank rt < (Position.running node s).rank rt := by
  have hpasses := cancelledRank_passes h
  rw [rank_cancelled rfl]
  by_cases hs : s.cancelRequested
  · rwa [rank_cancelled hs]
  · rw [rank_live (by simpa using hs)]
    exact Nat.lt_of_lt_of_le hpasses cancelledRank_le

theorem base_congr (hreplan : t.replanCount = s.replanCount)
    (hcalls : t.toolCallCount = s.toolCallCount) : base rt t = base rt s := by
  rw [base, base, hreplan, hcalls]

theorem base_replan (h : rt.limits.CanReplan s) (hreplan : t.replanCount = s.replanCount + 1)
    (hcalls : t.toolCallCount = s.toolCallCount) :
    base rt t + (3 + 4 * rt.limits.maxPlanSteps) = base rt s := by
  have hleft : rt.limits.maxReplanCount - s.replanCount =
      (rt.limits.maxReplanCount - t.replanCount) + 1 := by
    unfold AgentBudgetLimits.CanReplan at h
    omega
  rw [base, base, hcalls, hleft, Nat.add_mul, Nat.one_mul]
  omega

theorem base_call (h : rt.limits.CanCallTool s) (hreplan : t.replanCount = s.replanCount)
    (hcalls : t.toolCallCount = s.toolCallCount + 1) :
    base rt t + 4 * rt.limits.maxPlanSteps = base rt s := by
  have hleft : rt.limits.maxToolCalls - s.toolCallCount =
      (rt.limits.maxToolCalls - t.toolCallCount) + 1 := by
    unfold AgentBudgetLimits.CanCallTool at h
    omega
  rw [base, base, hreplan, hleft, Nat.add_mul, Nat.one_mul]
  omega

variable {plan : ResearchPlan} {resolved : ResolvedStepArguments} {step : PlanStep}

/-- What an advancing step finds: a call to reuse, or one that the budget allows. -/
theorem not_stalls (h : ¬ Stalls rt s) (hcurrent : currentStep s = some (plan, step))
    (hresolves : resolve rt step plan.planVersion s.observations = .ok resolved) :
    ((∃ o, reusable s (semanticToolCallKey rt s step.toolName resolved.canonicalJson) = some o) →
        plan.planVersion ≠ "direct") ∧
      (reusable s (semanticToolCallKey rt s step.toolName resolved.canonicalJson) = none →
        rt.limits.CanCallTool s) := by
  unfold Stalls at h
  rw [hcurrent] at h
  dsimp only at h
  rw [hresolves] at h
  dsimp only at h
  constructor
  · rintro ⟨o, ho⟩
    rwa [ho] at h
  · intro hnone
    rw [hnone] at h
    exact Decidable.not_not.mp h

/-- An executed step that advances lowers the rank. -/
theorem rank_executed (h : Sane rt .executeStep s) (hcurrent : currentStep s = some (plan, step))
    (hresolves : resolve rt step plan.planVersion s.observations = .ok resolved)
    (hadvances : ¬ Stalls rt s) (hran : Ran rt s t step plan.planVersion resolved) :
    liveRank rt t .assessEvidence < liveRank rt s .executeStep := by
  obtain ⟨hplan, hlt⟩ := currentStep_lt hcurrent
  obtain ⟨hreuse, hcall⟩ := not_stalls hadvances hcurrent hresolves
  have hsize := h.size plan hplan
  have hescalation : escalation rt t = escalation rt s := by
    rw [escalation, escalation, hran.route, hran.directEscalatedToPlanned]
  have hs : remainingSteps s = plan.steps.length - s.currentStepIndex := by
    simp [remainingSteps, hplan]
  have ht : remainingSteps t = plan.steps.length - t.currentStepIndex := by
    simp [remainingSteps, hran.plan, hplan]
  have hindex := hran.currentStepIndex
  obtain ⟨o, _, ⟨hr, _, hcalls, _⟩ | ⟨hnone, hcan, _, hcalls, _⟩⟩ := hran.observed
  · rw [if_pos (hreuse hr)] at hindex
    have hbase : base rt t = base rt s := base_congr hran.replanCount hcalls
    simp only [liveRank]
    omega
  · have hbase := base_call hcan hran.replanCount hcalls
    simp only [liveRank]
    split_ifs at hindex <;> omega

/-- A direct search lowers the rank. -/
theorem rank_retrieved {planVersion : String}
    (h : Sane rt node s) (hran : Ran rt s t step planVersion resolved) :
    liveRank rt { t with status := .retrieving } .assessEvidence <
      liveRank rt s .directRetrieve := by
  have hremaining : remainingSteps { t with status := .retrieving } ≤ rt.limits.maxPlanSteps := by
    simp only [remainingSteps, hran.plan]
    cases hplan : s.plan with
    | none => simp
    | some plan =>
      have hsize := h.size plan hplan
      simp only [Option.elim_some]
      omega
  have hescalation : escalation rt { t with status := .retrieving } ≤
      2 + 4 * rt.limits.maxPlanSteps := by
    unfold escalation
    split_ifs <;> omega
  have hbase : base rt { t with status := .retrieving } ≤ base rt s := by
    obtain ⟨_, _, ⟨_, _, hcalls, _⟩ | ⟨_, hcan, _, hcalls, _⟩⟩ := hran.observed
    · exact Nat.le_of_eq (base_congr hran.replanCount hcalls)
    · have hpaid : base rt { t with status := .retrieving } + 4 * rt.limits.maxPlanSteps =
          base rt s := base_call hcan hran.replanCount hcalls
      omega
  simp only [liveRank]
  omega

/-- An assessment lowers the rank. -/
theorem rank_assessed (queryType : QueryType) :
    liveRank rt (s.assessed (s.assessment rt queryType))
      (s.assessment rt queryType).nextAction.node < liveRank rt s .assessEvidence := by
  have hbase : base rt (s.assessed (s.assessment rt queryType)) = base rt s := base_congr rfl rfl
  have hremaining : remainingSteps (s.assessed (s.assessment rt queryType)) = remainingSteps s := rfl
  cases hnext : (s.assessment rt queryType).nextAction with
  | buildContext | replan | finishPartial =>
    simp only [NextAction.node, liveRank]
    omega
  | resolveNext =>
    have hescalation : escalation rt (s.assessed (s.assessment rt queryType)) = escalation rt s := by
      simp [escalation, ResearchState.assessed, hnext]
    simp only [NextAction.node, liveRank]
    omega
  | escalateToPlan =>
    have hescalation : escalation rt s = 2 + 4 * rt.limits.maxPlanSteps :=
      if_pos (assess_escalateToPlan hnext)
    simp only [NextAction.node, liveRank]
    omega

theorem rank_lt_of_live (hs : s.cancelRequested = false) (ht : t.cancelRequested = false)
    (h : liveRank rt t next < liveRank rt s node) :
    (Position.running next t).rank rt < (Position.running node s).rank rt := by
  rwa [rank_live hs, rank_live ht]

theorem rank_lt_of_kept (hkept : t.cancelRequested = s.cancelRequested)
    (hcancelled : cancelledRank next < cancelledRank node)
    (hlive : liveRank rt t next < liveRank rt s node) :
    (Position.running next t).rank rt < (Position.running node s).rank rt := by
  by_cases hs : s.cancelRequested = true
  · rwa [rank_cancelled hs, rank_cancelled (hkept.trans hs)]
  · have hs' : s.cancelRequested = false := by simpa using hs
    exact rank_lt_of_live hs' (hkept.trans hs') hlive

/-- Every node execution that advances lowers the rank. -/
theorem rank_execute (h : Sane rt node s) (hadvances : (Position.running node s).Advances rt i) :
    (Position.execute rt i node s).rank rt < (Position.running node s).rank rt := by
  have hmove := move rt i node s
  generalize Position.execute rt i node s = p at hmove
  cases hmove with
  | stopped | finalized | partially | raised => exact rank_pos
  | passed _ hpasses => exact rank_passes hpasses
  | routed hlive =>
    have hs := not_cancelled hlive
    have hbase : base rt (s.routed i.decision) = base rt s := base_congr rfl rfl
    apply rank_lt_of_live hs
    · exact hs
    · cases i.decision.route <;>
      · simp only [ResearchRoute.node, liveRank]
        omega
  | @retrieved _ t _ _ hlive _ _ hrun =>
    have hs := not_cancelled hlive
    apply rank_lt_of_live hs
    · exact (runStep_ok hrun).cancelRequested.trans hs
    · exact rank_retrieved h (runStep_ok hrun)
  | proposed hlive =>
    have hs := not_cancelled hlive
    have hbase : base rt (s.proposed (ownPlan rt s i.plan)) = base rt s := base_congr rfl rfl
    apply rank_lt_of_live hs
    · exact hs
    · simp only [liveRank]
      omega
  | @adopted _ _ plan hlive _ hvalid =>
    have hs := not_cancelled hlive
    have hbase : base rt (s.adopted plan) = base rt s := base_congr rfl rfl
    have hsize := validatePlan_ok hvalid
    have hremaining : remainingSteps (s.adopted plan) = plan.steps.length := rfl
    have hescalation : escalation rt (s.adopted plan) = 0 := by
      rcases h.planned rfl with hcancel | hplanned
      · rw [hs] at hcancel
        cases hcancel
      · exact if_neg (by simp [ResearchState.adopted, hplanned])
    apply rank_lt_of_live hs
    · exact hs
    · simp only [liveRank]
      omega
  | refused hlive _ =>
    have hs := not_cancelled hlive
    apply rank_lt_of_live hs
    · exact hs
    · simp only [liveRank]
      omega
  | missing hlive hnone hmisses => exact absurd hnone (h.not_missing hlive hmisses)
  | @unresolved _ plan step fault hlive hcurrent _ =>
    have hs := not_cancelled hlive
    obtain ⟨hplan, hlt⟩ := currentStep_lt hcurrent
    have hbase : base rt (failedStep s step plan.planVersion
        (fault.errorCode "step_argument_resolution_failed") fault.message) = base rt s :=
      base_congr rfl rfl
    have hescalation : escalation rt (failedStep s step plan.planVersion
        (fault.errorCode "step_argument_resolution_failed") fault.message) = escalation rt s := rfl
    have hremaining : remainingSteps (failedStep s step plan.planVersion
        (fault.errorCode "step_argument_resolution_failed") fault.message) + 1 =
        remainingSteps s := by
      simp only [remainingSteps, failedStep, hplan, Option.elim_some]
      omega
    apply rank_lt_of_live hs
    · exact hs
    · simp only [liveRank]
      omega
  | resolved hlive hcurrent hresolves =>
    have hs := not_cancelled hlive
    apply rank_lt_of_live hs
    · exact hs
    · exact Nat.lt_succ_self _
  | marked hlive hcurrent =>
    have hs := not_cancelled hlive
    apply rank_lt_of_live hs
    · exact hs
    · exact Nat.lt_succ_self _
  | changed hlive hcurrent htool hdump hresolves hdiffers =>
    exact absurd (h.not_changed hlive hcurrent htool hdump hresolves) hdiffers
  | exceeded hlive hcurrent hresolves hrun =>
    obtain ⟨_, hnone, hspent⟩ := runStep_error hrun
    rcases hadvances with hcancel | hadvances
    · exact absurd hcancel hlive
    · exact absurd ((not_stalls hadvances hcurrent hresolves).2 hnone) hspent
  | executed hlive hcurrent hresolves hrun =>
    have hs := not_cancelled hlive
    have hran := runStep_ok hrun
    rcases hadvances with hcancel | hadvances
    · exact absurd hcancel hlive
    · exact rank_lt_of_live hs (hran.cancelRequested.trans hs)
        (rank_executed h hcurrent hresolves hadvances hran)
  | assessed hlive _ =>
    have hs := not_cancelled hlive
    exact rank_lt_of_live hs hs (rank_assessed _)
  | replanned hcan =>
    have hbase : base rt { s with replanCount := s.replanCount + 1, status := .replanning } +
        (3 + 4 * rt.limits.maxPlanSteps) = base rt s := base_replan hcan rfl rfl
    apply rank_lt_of_kept
    · rfl
    · decide
    · simp only [liveRank]
      omega
  | exhausted hspent => exact absurd (h.replans rfl) hspent
  | skipped hanswering =>
    exact rank_lt_of_kept hanswering.cancelRequested (by decide) (by simp [liveRank])
  | built hlive => exact rank_lt_of_kept rfl (by decide) (by simp [liveRank])
  | generated hlive hanswering _ _ =>
    exact rank_lt_of_kept hanswering.cancelRequested (by decide) (by simp [liveRank])
  | cited hanswering _ | verified hanswering _ =>
    exact rank_lt_of_kept hanswering.cancelRequested (by decide) (by simp [liveRank])

theorem rank_step {p q : Position} (h : p.Sane rt) (hadvances : p.Advances rt i)
    (hstep : p.step rt i = some q) : q.rank rt < p.rank rt := by
  cases p with
  | running node s =>
    cases hstep
    exact rank_execute h hadvances
  | ended | raised => cases hstep

end Ranks

end CodeResearch.Research
