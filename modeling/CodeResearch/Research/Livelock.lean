import CodeResearch.Research.Ready
import CodeResearch.Research.Termination

/-!
# A spent budget is never left

`execute_step` answers a spent budget of tool calls with the status `failed`, and
`assess_evidence` overwrites that status before the edges look at it. The step
index has not moved, so the graph goes back to the same step. Runs whose steps
all advance are bounded.
-/
namespace CodeResearch.Research

variable (rt : Runtime)

/-- The current step needs a tool call that the budget no longer allows. -/
structure Spent (s : ResearchState) : Prop where
  live : s.cancelRequested = false
  queryType : s.queryType ≠ none
  insufficient : ∀ queryType, s.queryType = some queryType →
    (criteria queryType s.observations).all EvidenceCriterionResult.satisfied = false
  spent : ¬ rt.limits.CanCallTool s
  current : ∃ plan step resolved, currentStep s = some (plan, step) ∧
    resolve rt step plan.planVersion s.observations = .ok resolved ∧
    s.resolvedArguments = resolved.arguments ∧
    reusable s (semanticToolCallKey rt s step.toolName resolved.canonicalJson) = none

def Node.Loops (node : Node) : Prop :=
  node ∈ [executeStep, assessEvidence, resolveStepArguments, markStepRunning]

/-- The graph goes round in the loop. -/
def Position.Spent : Position → Prop
  | running node s => node.Loops ∧ Research.Spent rt s
  | _ => False

section Loop

variable {rt} {s : ResearchState} {i : Input} {p : Position}

theorem Spent.not_cancelled (h : Spent rt s) (hi : i.cancelRequested = false) :
    ¬ Cancelled i s := by
  simp [Cancelled, h.live, hi]

/-- The spent budget is reported as a failed state. -/
theorem Spent.executeStep (h : Spent rt s) (hi : i.cancelRequested = false) :
    ∃ t, Position.execute rt i .executeStep s = .running .assessEvidence t ∧ Spent rt t := by
  obtain ⟨plan, step, resolved, hcurrent, hresolves, hstored, hnew⟩ := h.current
  obtain ⟨spec, htool, hdump, hcanonical⟩ := resolve_ok hresolves
  have hraises : runStep rt i s step plan.planVersion resolved =
      .error (.budgetExceeded "tool_call_budget_exhausted") := by
    unfold runStep execute
    dsimp only
    rw [hnew, if_neg h.spent]
    rfl
  have hruns : runNode rt i s .executeStep =
      .ok (s.failure "tool_call_budget_exhausted" "tool_call_budget_exhausted") := by
    unfold runNode Research.executeStep
    rw [unlessCancelled_live (h.not_cancelled hi), hcurrent]
    dsimp only
    rw [htool, except_bind_ok, hstored, hdump, Except.mapError, except_bind_ok, hresolves,
      except_bind_ok, if_neg (not_not.mpr hcanonical), hraises]
    rfl
  refine ⟨_, execute_next hruns rfl, ?_⟩
  exact ⟨h.live, h.queryType, h.insufficient, h.spent, h.current⟩

/-- The assessment overwrites the failed status and sees a remaining step. -/
theorem Spent.assessEvidence (h : Spent rt s) (hi : i.cancelRequested = false) :
    ∃ t, Position.execute rt i .assessEvidence s = .running .resolveStepArguments t ∧
      Spent rt t := by
  obtain ⟨queryType, hq⟩ := Option.ne_none_iff_exists'.mp h.queryType
  obtain ⟨plan, step, _, hcurrent, _⟩ := h.current
  obtain ⟨hfound, hlt⟩ := currentStep_lt hcurrent
  have hremaining : hasRemaining s = true := by simp [hasRemaining, hfound, hlt]
  have hnext : (s.assessment rt queryType).nextAction = .resolveNext := by
    unfold ResearchState.assessment assess
    dsimp only
    rw [h.insufficient queryType hq, hremaining]
    rfl
  have hfetch : orError (AgentFault.key "query_type") s.queryType =
      .ok queryType := by rw [hq, orError_some]
  have hruns : runNode rt i s .assessEvidence = .ok (s.assessed (s.assessment rt queryType)) := by
    unfold runNode Research.assessEvidence
    rw [unlessCancelled_live (h.not_cancelled hi), hfetch]
    rfl
  have hedge : nextNode (s.assessed (s.assessment rt queryType)) .assessEvidence =
      .ok (some (s.assessment rt queryType).nextAction.node) := rfl
  rw [hnext] at hedge
  refine ⟨_, execute_next hruns hedge, ?_⟩
  exact ⟨h.live, h.queryType, h.insufficient, h.spent, h.current⟩

theorem Spent.resolveStepArguments (h : Spent rt s) (hi : i.cancelRequested = false) :
    ∃ t, Position.execute rt i .resolveStepArguments s = .running .markStepRunning t ∧
      Spent rt t := by
  obtain ⟨plan, step, resolved, hcurrent, hresolves, _, hnew⟩ := h.current
  have hruns : runNode rt i s .resolveStepArguments = .ok (s.resolving plan step resolved) := by
    unfold runNode Research.resolveStepArguments
    rw [unlessCancelled_live (h.not_cancelled hi), hcurrent]
    dsimp only
    rw [hresolves]
    rfl
  refine ⟨_, execute_next hruns rfl, ?_⟩
  exact ⟨h.live, h.queryType, h.insufficient, h.spent, plan, step, resolved, hcurrent, hresolves,
    rfl, hnew⟩

theorem Spent.markStepRunning (h : Spent rt s) (hi : i.cancelRequested = false) :
    ∃ t, Position.execute rt i .markStepRunning s = .running .executeStep t ∧ Spent rt t := by
  obtain ⟨plan, step, _, hcurrent, _⟩ := h.current
  have hruns : runNode rt i s .markStepRunning = .ok (s.marked rt plan step) := by
    unfold runNode Research.markStepRunning
    rw [unlessCancelled_live (h.not_cancelled hi), hcurrent]
    rfl
  refine ⟨_, execute_next hruns rfl, ?_⟩
  exact ⟨h.live, h.queryType, h.insufficient, h.spent, h.current⟩

theorem spent_step (h : p.Spent rt) (hi : i.cancelRequested = false) :
    ∃ q, p.step rt i = some q ∧ q.Spent rt := by
  cases p with
  | running node s =>
    obtain ⟨hnode, hs⟩ := h
    simp only [Node.Loops, List.mem_cons, List.not_mem_nil, or_false] at hnode
    rcases hnode with rfl | rfl | rfl | rfl
    · obtain ⟨t, ht, hspent⟩ := hs.executeStep hi
      exact ⟨_, congrArg some ht, by simp [Node.Loops], hspent⟩
    · obtain ⟨t, ht, hspent⟩ := hs.assessEvidence hi
      exact ⟨_, congrArg some ht, by simp [Node.Loops], hspent⟩
    · obtain ⟨t, ht, hspent⟩ := hs.resolveStepArguments hi
      exact ⟨_, congrArg some ht, by simp [Node.Loops], hspent⟩
    · obtain ⟨t, ht, hspent⟩ := hs.markStepRunning hi
      exact ⟨_, congrArg some ht, by simp [Node.Loops], hspent⟩
  | ended | raised => exact h.elim

theorem Position.Spent.serves (h : p.Spent rt) : p.Serves rt i := by
  cases p with
  | running node s =>
    have hnode := h.1
    simp only [Node.Loops, List.mem_cons, List.not_mem_nil, or_false] at hnode
    rcases hnode with rfl | rfl | rfl | rfl <;> trivial
  | ended | raised => exact h.elim

theorem spent_run (h : p.Spent rt) {inputs : List Input}
    (hlive : ∀ i ∈ inputs, i.cancelRequested = false) :
    ∃ q, (machine rt).Run (Position.Serves rt) p inputs q ∧ q.Spent rt := by
  induction inputs generalizing p with
  | nil => exact ⟨p, .nil p, h⟩
  | cons i inputs ih =>
    obtain ⟨q, hstep, hq⟩ := spent_step h (hlive i List.mem_cons_self)
    obtain ⟨r, hrun, hr⟩ := ih hq fun j hj => hlive j (List.mem_cons_of_mem _ hj)
    exact ⟨r, .cons h.serves hstep hrun, hr⟩

end Loop

/-- The budget of tool calls is found spent. -/
def Exhausts (rt : Runtime) (i : Input) (s : ResearchState) : Prop :=
  ∃ plan step resolved code, currentStep s = some (plan, step) ∧
    resolve rt step plan.planVersion s.observations = .ok resolved ∧
    runStep rt i s step plan.planVersion resolved = .error (.budgetExceeded code)

/-- The graph reaches its end after a bounded number of node executions, and a
spent budget of tool calls leads to `finish_partial`. -/
structure Terminates (rt : Runtime) (G : Position → Input → Prop) : Prop where
  bounded : ∃ bound, ∀ request inputs p,
    (machine rt).Run G (.start request) inputs p → inputs.length ≤ bound
  ends : ∀ request inputs p, rt.Searches request.query →
    (machine rt).Run G (.start request) inputs p → ∀ node s fault, p ≠ .raised node s fault
  partially : ∀ request inputs s i t j,
    (machine rt).Run G (.start request) inputs (.running .executeStep s) →
    G (.running .executeStep s) i → ¬ Cancelled i s → Exhausts rt i s →
    Position.execute rt i .executeStep s = .running .assessEvidence t → ¬ Cancelled j t →
    ∃ u, Position.execute rt j .assessEvidence t = .running .finishPartial u

def nodeBudget (limits : AgentBudgetLimits) : ℕ :=
  limits.maxReplanCount * (3 + 4 * limits.maxPlanSteps) +
    limits.maxToolCalls * (4 * limits.maxPlanSteps) + 8 * limits.maxPlanSteps + 11

theorem rank_start (rt : Runtime) (request : ResearchRequest) :
    (Position.start request).rank rt = nodeBudget rt.limits := rfl

/-- Runs that are served and advance at every step terminate. -/
theorem terminates_of_advances (rt : Runtime) :
    Terminates rt fun p i => p.Serves rt i ∧ p.Advances rt i := by
  constructor
  · refine ⟨nodeBudget rt.limits, ?_⟩
    intro request inputs p hrun
    have hbound : inputs.length + p.rank rt ≤ (Position.start request).rank rt := by
      apply Machine.Run.length_add_rank_le (Position.Sane rt) (Position.rank rt) _ _ hrun
        (sane_start request)
      · exact fun _ _ _ h _ hstep => sane_step h hstep
      · exact fun _ _ _ h hG hstep => rank_step h hG.2 hstep
    rw [rank_start] at hbound
    omega
  · intro request inputs p hsearches hrun node s fault hp
    have hready := ready_run hsearches (hrun.mono fun _ _ h => h.1)
    rw [hp] at hready
    exact hready
  · intro request inputs s i t j hrun hG hlive hexhausts _ _
    obtain ⟨plan, step, resolved, code, hcurrent, hresolves, hfails⟩ := hexhausts
    obtain ⟨_, hnew, hspent⟩ := runStep_error hfails
    rcases hG.2 with hcancelled | hadvances
    · exact absurd hcancelled hlive
    · exact absurd ((not_stalls hadvances hcurrent hresolves).2 hnew) hspent

/-- `model_dump` of a `search_paper` input with the default `top_k`. -/
def paperArguments (query : String) : String :=
  "\x7b\"query\":\"" ++ query ++ "\",\"top_k\":10\x7d"

/-- The input model of `search_paper` with the default `top_k`. -/
def searchPaperSpec : ToolSpec where
  properties := ["query", "top_k"]
  expectsCollection _ := false
  acceptsLiteral name value :=
    match name, value with
    | "query", .text query => decide (query ≠ "")
    | _, _ => false
  validate values :=
    match values with
    | [("query", .text query)] => .ok (paperArguments query)
    | _ => .error "invalid_arguments"
  revalidate dump := .ok dump
  revalidate_dump _ _ _ := rfl

def paperRuntime : Runtime where
  registry name := if name = .searchPaper then some searchPaperSpec else none
  sha value := "sha256:" ++ value
  canonical dump := dump

def paperSearch (ordinal : ℕ) (stepId : String) : PlanStep where
  stepId := stepId
  ordinal := ordinal
  toolName := .searchPaper
  literalArguments := [("query", .text "attention")]

def sixSearches : ResearchPlan where
  planId := "plan"
  planVersion := "1"
  steps := [paperSearch 0 "a", paperSearch 1 "b", paperSearch 2 "c", paperSearch 3 "d",
    paperSearch 4 "e", paperSearch 5 "f"]
  nonempty := by simp

/-- A planner and a tool that finds nothing. -/
def fruitless : Input where
  decision := ⟨.planned, .paperAlignment, []⟩
  plan := sixSearches
  outcome := .returned {}
  observationId := "observation"
  context := ⟨[]⟩
  draft := ⟨"", [], [], 0⟩

def paperRequest : ResearchRequest where
  runId := "run"
  repoId := "repo"
  indexVersionId := "version"
  query := "attention"
  queryType := none
  seedEvidenceIds := []
  answerEnabled := true
  externalTextConsent := false

def fruitlessRun : Option Position :=
  (machine paperRuntime).exec (Position.Serves paperRuntime) (.start paperRequest)
    (List.replicate 48 fruitless)

def spentState : ResearchState :=
  (fruitlessRun.map Position.state).getD (initialResearchState paperRequest)

theorem fruitlessRun_eq : fruitlessRun = some (.running .executeStep spentState) := by
  decide +kernel

theorem spent_spentState : Spent paperRuntime spentState where
  live := by decide +kernel
  queryType := by decide +kernel
  insufficient := by
    have hq : spentState.queryType = some .paperAlignment := by decide +kernel
    intro queryType h
    cases hq.symm.trans h
    decide +kernel
  spent := by decide +kernel
  current := by
    refine ⟨ownPlan paperRuntime (initialResearchState paperRequest) sixSearches,
      paperSearch 4 "e", ⟨paperArguments "attention", paperArguments "attention",
        "sha256:" ++ paperArguments "attention"⟩, ?_⟩
    decide +kernel

/-- Two plans of six searches that find nothing never come to an end. -/
theorem not_terminates_fruitless : ¬ Terminates paperRuntime (Position.Serves paperRuntime) := by
  intro h
  obtain ⟨bound, hbound⟩ := h.bounded
  have hreach : (machine paperRuntime).Run (Position.Serves paperRuntime) (.start paperRequest)
      (List.replicate 48 fruitless) (.running .executeStep spentState) :=
    Machine.run_of_exec fruitlessRun_eq
  have hspent : (Position.running .executeStep spentState).Spent paperRuntime :=
    ⟨by simp [Node.Loops], spent_spentState⟩
  have hlive : ∀ i ∈ List.replicate bound fruitless, i.cancelRequested = false := by
    intro i hi
    rw [List.eq_of_mem_replicate hi]
    rfl
  obtain ⟨q, hloop, _⟩ := spent_run hspent hlive
  have hlength := hbound _ _ _ (hreach.append hloop)
  rw [List.length_append, List.length_replicate, List.length_replicate] at hlength
  omega

end CodeResearch.Research
