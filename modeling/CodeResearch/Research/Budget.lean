import CodeResearch.Research.Livelock

/-!
# The budget of an agent

Tool calls, replans and plan sizes are checked where they are spent. Failures are
counted by two nodes, and no node asks whether the budget still has one.
-/
namespace CodeResearch.Research

/-- The counters of a state keep to the limits. -/
structure Spends (rt : Runtime) (s : ResearchState) : Prop where
  toolCalls : s.toolCallCount ≤ rt.limits.maxToolCalls
  replans : s.replanCount ≤ rt.limits.maxReplanCount
  planSize : ∀ plan, s.plan = some plan → plan.steps.length ≤ rt.limits.maxPlanSteps
  counted : s.toolCallCount = s.observations.countP fun o => !o.reused

/-- The counters and the failures keep to the limits. -/
structure WithinBudget (rt : Runtime) (s : ResearchState) : Prop extends Spends rt s where
  failures : s.toolFailureCount ≤ rt.limits.maxToolFailures

def CallFails (rt : Runtime) (i : Input) (s : ResearchState) (step : PlanStep)
    (planVersion : String) : Prop :=
  match resolve rt step planVersion s.observations with
  | .error _ => False
  | .ok resolved =>
    reusable s (semanticToolCallKey rt s step.toolName resolved.canonicalJson) = none ∧
      rt.limits.CanCallTool s ∧
      (invoke step.toolName i.cancelBefore i.outcome i.cancelAfter).status ∈
        [ToolStatus.failed, .timeout]

instance (rt : Runtime) (i : Input) (s : ResearchState) (step : PlanStep) (planVersion : String) :
    Decidable (CallFails rt i s step planVersion) := by
  unfold CallFails
  split <;> infer_instance

def ResolutionFails (rt : Runtime) (s : ResearchState) (step : PlanStep) (planVersion : String) :
    Prop :=
  match resolve rt step planVersion s.observations with
  | .error _ => True
  | .ok _ => False

instance (rt : Runtime) (s : ResearchState) (step : PlanStep) (planVersion : String) :
    Decidable (ResolutionFails rt s step planVersion) := by
  unfold ResolutionFails
  split <;> infer_instance

/-- A node fails only while the budget has a failure left. -/
def Position.Spares (rt : Runtime) : Position → Input → Prop
  | running .directRetrieve s, i => Cancelled i s ∨ rt.limits.FailuresAvailable s ∨
      ∀ queryType ∈ s.queryType, ¬ CallFails rt i s (directStep s.query queryType) "direct"
  | running .resolveStepArguments s, i => Cancelled i s ∨ rt.limits.FailuresAvailable s ∨
      ∀ p ∈ currentStep s, ¬ ResolutionFails rt s p.2 p.1.planVersion
  | running .executeStep s, i => Cancelled i s ∨ rt.limits.FailuresAvailable s ∨
      ∀ p ∈ currentStep s, ¬ CallFails rt i s p.2 p.1.planVersion
  | _, _ => True

section Steps

variable {rt : Runtime} {i : Input} {node : Node} {s t : ResearchState}

theorem Spends.congr (h : Spends rt s) (hcalls : t.toolCallCount = s.toolCallCount)
    (hreplans : t.replanCount = s.replanCount) (hplan : t.plan = s.plan)
    (hobs : t.observations = s.observations) : Spends rt t where
  toolCalls := hcalls ▸ h.toolCalls
  replans := hreplans ▸ h.replans
  planSize := hplan ▸ h.planSize
  counted := by rw [hcalls, hobs, h.counted]

variable {planVersion : String} {resolved : ResolvedStepArguments} {step : PlanStep}
  {p q : Position}

/-- An executed step pays for the call that it makes. -/
theorem Spends.ran (h : Spends rt s) (hran : Ran rt s t step planVersion resolved) :
    Spends rt t := by
  obtain ⟨o, hobs, ⟨_, hreused, hcalls, _⟩ | ⟨_, hcan, hreused, hcalls, _⟩⟩ := hran.observed
  all_goals
    refine ⟨?_, hran.replanCount ▸ h.replans, hran.plan ▸ h.planSize, ?_⟩
    rotate_left
    · rw [hcalls, hobs, List.countP_append, h.counted]
      simp [hreused]
    rw [hcalls]
  · exact h.toolCalls
  · exact hcan

theorem Spends.answering (h : Spends rt s) (hanswering : Answering s t) : Spends rt t :=
  h.congr hanswering.toolCallCount hanswering.replanCount hanswering.plan hanswering.observations

/-- One node execution keeps to the limits of calls, replans and plans. -/
theorem spends_execute (h : Spends rt s) : Spends rt (Position.execute rt i node s).state := by
  have hmove := move rt i node s
  generalize Position.execute rt i node s = p at hmove
  cases hmove with
  | retrieved _ _ _ hrun => exact (h.ran (runStep_ok hrun)).congr rfl rfl rfl rfl
  | executed _ _ _ hrun => exact h.ran (runStep_ok hrun)
  | @adopted _ _ plan _ _ hvalid =>
    refine ⟨h.toolCalls, h.replans, ?_, h.counted⟩
    intro p hp
    cases hp
    exact validatePlan_ok hvalid
  | replanned hcan => exact ⟨h.toolCalls, hcan, h.planSize, h.counted⟩
  | skipped hanswering | generated _ hanswering _ _ | cited hanswering _ | verified hanswering _
  | finalized hanswering _ | partially hanswering _ => exact h.answering hanswering
  | _ => exact h.congr rfl rfl rfl rfl

theorem failures_runStep (hresolves : resolve rt step planVersion s.observations = .ok resolved)
    (h : runStep rt i s step planVersion resolved = .ok t) :
    t.toolFailureCount = s.toolFailureCount ∨
      CallFails rt i s step planVersion ∧ t.toolFailureCount = s.toolFailureCount + 1 := by
  simp only [runStep, except_bind_eq_ok_iff, except_pure_eq_ok_iff] at h
  obtain ⟨outcome, hout, rfl⟩ := h
  unfold execute at hout
  dsimp only at hout
  split at hout
  · cases hout
    exact .inl rfl
  · rename_i hnew
    split_ifs at hout with hcan hfails
    · cases hout
      right
      constructor
      · unfold CallFails
        rw [hresolves]
        exact ⟨hnew, hcan, by simpa using hfails⟩
      · rfl
    · cases hout
      exact .inl rfl

theorem failures_le (h : s.toolFailureCount ≤ rt.limits.maxToolFailures) {fails : Prop}
    (hspares : rt.limits.FailuresAvailable s ∨ ¬ fails) {count : ℕ}
    (hcount : count = s.toolFailureCount ∨ fails ∧ count = s.toolFailureCount + 1) :
    count ≤ rt.limits.maxToolFailures := by
  rcases hcount with hcount | ⟨hfails, hcount⟩
  · omega
  · rcases hspares with havailable | hnot
    · have hlt : s.toolFailureCount < rt.limits.maxToolFailures := havailable
      omega
    · exact absurd hfails hnot

/-- One node execution that spares the failures keeps to their limit. -/
theorem failures_execute (h : s.toolFailureCount ≤ rt.limits.maxToolFailures)
    (hspares : (Position.running node s).Spares rt i) :
    (Position.execute rt i node s).state.toolFailureCount ≤ rt.limits.maxToolFailures := by
  have hmove := move rt i node s
  generalize Position.execute rt i node s = p at hmove
  cases hmove with
  | retrieved hlive hq hresolves hrun =>
    have hguard := hspares.resolve_left hlive
    have hcount := failures_runStep hresolves hrun
    exact failures_le h (hguard.imp_right fun hall => hall _ hq) hcount
  | @unresolved _ plan step _ hlive hcurrent hfails =>
    have hguard := hspares.resolve_left hlive
    have hresolution : ResolutionFails rt s step plan.planVersion := by
      unfold ResolutionFails
      rw [hfails]
      trivial
    have havailable := hguard.imp_right fun hall => hall (plan, step) (Option.mem_def.mpr hcurrent)
    have hcount : s.toolFailureCount + 1 = s.toolFailureCount ∨
        ResolutionFails rt s step plan.planVersion ∧
          s.toolFailureCount + 1 = s.toolFailureCount + 1 := .inr ⟨hresolution, rfl⟩
    exact failures_le h havailable hcount
  | @executed _ _ plan step _ hlive hcurrent hresolves hrun =>
    have hguard := hspares.resolve_left hlive
    have hcount := failures_runStep hresolves hrun
    have havailable := hguard.imp_right fun hall =>
      hall (plan, step) (Option.mem_def.mpr hcurrent)
    exact failures_le h havailable hcount
  | skipped hanswering | generated _ hanswering _ _ | cited hanswering _ | verified hanswering _
  | finalized hanswering _ | partially hanswering _ => exact hanswering.toolFailureCount ▸ h
  | _ => exact h

theorem spends_step (h : Spends rt p.state) (hstep : p.step rt i = some q) : Spends rt q.state := by
  cases p with
  | running node s =>
    cases hstep
    exact spends_execute h
  | ended | raised => cases hstep

theorem withinBudget_step (h : WithinBudget rt p.state)
    (hspares : p.Spares rt i) (hstep : p.step rt i = some q) : WithinBudget rt q.state := by
  refine ⟨spends_step h.toSpends hstep, ?_⟩
  cases p with
  | running node s =>
    cases hstep
    exact failures_execute h.failures hspares
  | ended | raised => cases hstep

end Steps

theorem withinBudget_start (rt : Runtime) (request : ResearchRequest) :
    WithinBudget rt (Position.start request).state where
  toolCalls := Nat.zero_le _
  replans := Nat.zero_le _
  planSize _ h := by cases h
  counted := rfl
  failures := Nat.zero_le _

def KeepsBudget (rt : Runtime) (G : Position → Input → Prop) : Prop :=
  ∀ request inputs p, (machine rt).Run G (.start request) inputs p → WithinBudget rt p.state

/-- The budget is kept when nothing fails after the last failure that it allows. -/
theorem keepsBudget_of_spares (rt : Runtime) : KeepsBudget rt (Position.Spares rt) := by
  intro request inputs p hrun
  apply hrun.invariant (fun p => WithinBudget rt p.state)
  · exact fun _ _ _ h hspares hstep => withinBudget_step h hspares hstep
  · exact withinBudget_start rt request

/-- What failures and answers cannot break: in every run the calls, replans and plans keep to
their limits, and the calls paid for are those whose observations are new. -/
def KeepsSpending (rt : Runtime) : Prop :=
  ∀ request inputs p, (machine rt).Run Machine.Free (.start request) inputs p → Spends rt p.state

theorem keepsSpending (rt : Runtime) : KeepsSpending rt := by
  intro request inputs p hrun
  apply hrun.invariant (fun p => Spends rt p.state)
  · exact fun _ _ _ h _ hstep => spends_step h hstep
  · exact (withinBudget_start rt request).toSpends

def failing : Input := { fruitless with outcome := .raised "connection refused" }

/-- The fourth step of a plan fails although the limit is three. -/
theorem not_keepsBudget_failing : ¬ KeepsBudget paperRuntime Machine.Free := by
  intro h
  obtain ⟨p, hp, hfailures⟩ : ∃ p, (machine paperRuntime).exec Machine.Free (.start paperRequest)
      (List.replicate 19 failing) = some p ∧ p.state.toolFailureCount = 4 := by
    rw [← Option.map_eq_some_iff]
    decide +kernel
  have hwithin := (h _ _ _ (Machine.run_of_exec hp)).failures
  rw [hfailures] at hwithin
  exact absurd hwithin (by decide)

end CodeResearch.Research
