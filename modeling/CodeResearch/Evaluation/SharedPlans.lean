import CodeResearch.Evaluation.Requested
import Mathlib.Algebra.Field.Rat

/-!
# When a prepared run is the one that was requested

The fingerprint covers neither the concurrency nor the consent, the budget and the trial
of a request, the plan id covers neither its consent nor its budget, and the run id does
not cover its trial group. The metric engine computes every metric of a component,
whatever the plan selects.
-/
namespace CodeResearch.Evaluation

open ControlPlane (JobError Timestamp)
open DomainJobs (evaluationError EvaluationStatus)

variable {K : Type} [Field K] [LinearOrder K] {request : RunRequest} {s : Catalog} {r : Resolved}

theorem resolve_eq_ok (h : request.resolve s = .ok r) :
    s.versions.find? request.datasetVersionId = some r.version ∧
      s.subjects.find? request.subjectId = some r.subject ∧
      (∃ listed, PlanStore.listCases s request.datasetVersionId request.caseIds = .ok listed ∧
        r.cases = listed.filter fun case => case.component ∈ request.components) ∧
      r.cases ≠ [] := by
  unfold RunRequest.resolve at h
  obtain ⟨version, hversion, h⟩ := except_bind_eq_ok_iff.mp h
  obtain ⟨_, _, h⟩ := except_bind_eq_ok_iff.mp h
  obtain ⟨subject, hsubject, h⟩ := except_bind_eq_ok_iff.mp h
  obtain ⟨environment, _, h⟩ := except_bind_eq_ok_iff.mp h
  obtain ⟨listed, hlisted, h⟩ := except_bind_eq_ok_iff.mp h
  obtain ⟨_, hne, h⟩ := except_bind_eq_ok_iff.mp h
  cases h
  exact ⟨orError_eq_ok_iff.mp hversion, orError_eq_ok_iff.mp hsubject, ⟨listed, hlisted, rfl⟩,
    ensure_eq_ok_iff.mp hne⟩

theorem filter_keys_of_filter {α κ : Type} [DecidableEq κ] {key : α → κ} {l : List α}
    (hl : (l.map key).Nodup) (q : α → Bool) :
    (l.filter fun x => key x ∈ (l.filter q).map key) = l.filter q := by
  apply List.filter_congr
  intro x hx
  cases hq : q x with
  | true => exact decide_eq_true (List.mem_map_of_mem (List.mem_filter.mpr ⟨hx, hq⟩))
  | false =>
    apply decide_eq_false
    intro hmem
    obtain ⟨y, hy, hkey⟩ := List.mem_map.mp hmem
    obtain ⟨hyl, hqy⟩ := List.mem_filter.mp hy
    rw [List.inj_on_of_nodup_map hl hyl hx hkey, hq] at hqy
    cases hqy

theorem listCases_eq_ok {versionId : String} {caseIds : List String} {found : List DatasetCase}
    (h : PlanStore.listCases s versionId caseIds = .ok found) :
    ∃ q : DatasetCase → Bool, found =
      ((s.cases.rows.filter fun case => case.datasetVersionId = versionId).insertionSort
        fun a b => a.caseId ≤ b.caseId).filter q := by
  unfold PlanStore.listCases at h
  obtain ⟨_, _, h⟩ := except_bind_eq_ok_iff.mp h
  cases h
  split_ifs
  · exact ⟨fun _ => true, by simp⟩
  · exact ⟨_, rfl⟩

theorem listCases_of_resolve (h : request.resolve s = .ok r) :
    PlanStore.listCases s request.datasetVersionId (r.cases.map fun case => case.caseId) =
      .ok r.cases := by
  obtain ⟨_, _, ⟨listed, hlisted, hcases⟩, hne⟩ := resolve_eq_ok h
  obtain ⟨q, hq⟩ := listCases_eq_ok hlisted
  set items := (s.cases.rows.filter fun case => case.datasetVersionId =
    request.datasetVersionId).insertionSort fun a b => a.caseId ≤ b.caseId with hitems
  have hnodup : (items.map fun case => case.caseId).Nodup := by
    have hperm := (List.perm_insertionSort (fun a b : DatasetCase => a.caseId ≤ b.caseId)
      (s.cases.rows.filter fun case => case.datasetVersionId = request.datasetVersionId)).map
      fun case => case.caseId
    rw [hperm.nodup_iff]
    exact s.cases.nodup.sublist (List.filter_sublist.map _)
  rw [hq, List.filter_filter] at hcases
  have hids : (r.cases.map fun case => case.caseId) ≠ [] := by simpa using hne
  unfold PlanStore.listCases
  simp only [if_neg hids]
  rw [← hitems]
  have hfound : (items.filter fun case => case.caseId ∈ r.cases.map fun case => case.caseId) =
      r.cases := by
    rw [hcases]
    exact filter_keys_of_filter hnodup _
  rw [hfound, ensure_pos (fun _ hid => hid), except_bind_ok]
  rfl

variable (ids : PlanIds) (discount : ℕ → K) (clock : Timestamp)

def Answers (cases : List DatasetCase) (results : List (ScoredResult K)) : Prop :=
  (results.map fun result => (result.caseId, result.component)).Perm
    (cases.map fun case => (case.caseId, case.component))

/-- `process_run` on a run of the plan saves metrics for exactly the definitions that the
plan selects. -/
def StoresSelected (s : PlanStore) (p : EvaluationPlan) (runId : String) : Prop :=
  ∀ (cases : List DatasetCase) (results : List (ScoredResult K)),
    PlanStore.listCases s.toCatalog p.datasetVersionId p.caseIds = .ok cases →
    Answers cases results →
    ∃ rows, saveMetrics s (computeMetrics (cases.map DatasetCase.toScoredCase) results
        ids.toMetricIds discount runId clock) = .ok rows ∧
      ∀ id, id ∈ rows.rows.map MetricResult.metricDefinitionId ↔ id ∈ p.metricDefinitionIds

def RunRequest.SelectsComputed (request : RunRequest) (r : Resolved) : Prop :=
  ∀ id, id ∈ (request.definitions ids).map MetricDefinition.metricDefinitionId ↔
    ∃ case ∈ r.cases, ∃ name ∈ computedNames case.component,
      ids.metricDefinitionId case.component name = id

variable {ids discount clock} {p : EvaluationPlan} {cases : List DatasetCase}

variable (ids discount clock) in
theorem mem_answered_ids {results : List (ScoredResult K)} (h : Answers cases results)
    (runId id : String) :
    id ∈ (computeMetrics (cases.map DatasetCase.toScoredCase) results ids.toMetricIds discount
        runId clock).map MetricResult.metricDefinitionId ↔
      ∃ case ∈ cases, ∃ name ∈ computedNames case.component,
        ids.metricDefinitionId case.component name = id := by
  rw [mem_computeMetrics_ids]
  constructor
  · rintro ⟨result, hresult, _, name, hname, hid⟩
    have hmem := h.mem_iff.mp (List.mem_map_of_mem hresult)
    obtain ⟨case, hcase, heq⟩ := List.mem_map.mp hmem
    have hcomponent : case.component = result.component := congrArg Prod.snd heq
    rw [← hcomponent] at hname hid
    exact ⟨case, hcase, name, hname, hid⟩
  · rintro ⟨case, hcase, name, hname, hid⟩
    have hmem := h.mem_iff.mpr (List.mem_map_of_mem hcase)
    obtain ⟨result, hresult, heq⟩ := List.mem_map.mp hmem
    obtain ⟨hcaseId, hcomponent⟩ := Prod.mk.injEq .. ▸ heq
    rw [← hcomponent] at hname hid
    exact ⟨result, hresult, ⟨case.toScoredCase, List.mem_map_of_mem hcase, hcaseId.symm⟩, name,
      hname, hid⟩

theorem exists_answers (K : Type) (cases : List DatasetCase) :
    ∃ results : List (ScoredResult K), Answers cases results := by
  refine ⟨cases.map fun case =>
    { resultId := "", evaluationRunId := "", caseId := case.caseId, component := case.component
      executionStatus := .completed, evaluationOutcome := none, complete := true
      incompleteReasonCodes := [], executionErrorCode := none, qualityFailureCodes := []
      traceId := none, outputArtifactRefIds := [], finishedAt := none, outcome := none
      latencyMs := none }, ?_⟩
  unfold Answers
  rw [List.map_map]
  rfl

/-- The metrics of a stored plan are those that it selects exactly when it selects those
that are computed for its cases. -/
theorem storesSelected_iff {s : PlanStore} (hs : s.Planned ids) (hp : p ∈ s.plans.rows)
    (hcases : PlanStore.listCases s.toCatalog p.datasetVersionId p.caseIds = .ok cases)
    (runId : String) :
    StoresSelected ids discount clock s p runId ↔
      ∀ id, id ∈ p.metricDefinitionIds ↔ ∃ case ∈ cases, ∃ name ∈ computedNames case.component,
        ids.metricDefinitionId case.component name = id := by
  constructor
  · intro h id
    obtain ⟨results, hresults⟩ := exists_answers K cases
    obtain ⟨rows, hrows, hids⟩ := h cases results hcases hresults
    rw [← hids id, ← mem_answered_ids ids discount clock hresults runId id]
    simp only [List.mem_map, mem_saveMetrics hrows]
  · intro h cases' results hcases' hresults
    rw [hcases] at hcases'
    cases hcases'
    have hcomputed := mem_answered_ids ids discount clock hresults runId
    obtain ⟨rows, hrows⟩ := exists_saveMetrics (s := s)
      (nodup_computeMetrics_ids (cases.map DatasetCase.toScoredCase) results ids discount runId
        clock) (by
        intro m hm
        have hid := (hcomputed m.metricDefinitionId).mp (List.mem_map_of_mem hm)
        exact hs.defined p hp _ ((h _).mpr hid))
    refine ⟨rows, hrows, fun id => ?_⟩
    rw [h id, ← hcomputed id]
    simp only [List.mem_map, mem_saveMetrics hrows]

variable (ids discount clock)

/-- One call of `prepare_run`: an accepted request is given a run whose plan carries what it
demands and whose metrics are those that the plan selects, and a live trial is not refused
for a run of another trial group. -/
def AsRequested (s : PlanStore) : PlanEvent → Prop
  | .update _ _ => True
  | .prepare request index now => ∀ r, request.resolve s.toCatalog = .ok r →
    (∀ run, ((prepareRun ids request index now).runOn s).1 = .ok run →
      ∃ p, (planStep ids s (.prepare request index now)).plans.find? run.planId = some p ∧
        p.demands = request.demands ids r ∧
        StoresSelected ids discount clock (planStep ids s (.prepare request index now)) p
          run.runId) ∧
    ∀ attempt, request.attempt s = .ok attempt → request.liveTrial ≠ none →
      ((prepareRun ids request index now).runOn s).1 = .error (evaluationError
        "evaluation_run_conflict" "UNIQUE constraint failed: evaluation_runs.run_id") →
      ∀ stored, s.runs.find? (request.run ids r attempt index now).runId = some stored →
        stored.trialGroupId = request.liveTrial.map LiveTrialSpec.trialGroupId

/-- Two accepted requests that demand different things share neither a run nor a plan. -/
def NeverShared (s : PlanStore) (events : List PlanEvent) : Prop :=
  ∀ (before : List PlanEvent) (request : RunRequest) (index : Option ℕ) (now : Timestamp)
    (between : List PlanEvent) (request' : RunRequest) (index' : Option ℕ) (now' : Timestamp)
    (after : List PlanEvent) (r r' : Resolved) (run run' : EvaluationRun),
    events = before ++ .prepare request index now ::
      (between ++ .prepare request' index' now' :: after) →
    let first := before.foldl (planStep ids) s
    let second := between.foldl (planStep ids) (planStep ids first (.prepare request index now))
    request.resolve first.toCatalog = .ok r → request'.resolve second.toCatalog = .ok r' →
    ((prepareRun ids request index now).runOn first).1 = .ok run →
    ((prepareRun ids request' index' now').runOn second).1 = .ok run' →
    request.demands ids r ≠ request'.demands ids r' →
    run.runId ≠ run'.runId ∧ run.planId ≠ run'.planId

/-- Prepared runs are the ones that were requested. -/
structure Faithful (s : PlanStore) (events : List PlanEvent) : Prop where
  calls : Machine.EachStep (planStep ids) (AsRequested ids discount clock) s events
  unshared : NeverShared ids s events

/-- The parts of a request that no fingerprint covers. -/
structure EvaluationPlan.SameUnhashed (p : EvaluationPlan) (request : RunRequest) : Prop where
  caseConcurrency : p.caseConcurrency = request.caseConcurrency
  providerConcurrency : p.providerConcurrency = request.providerConcurrency
  externalModelConsent : p.externalModelConsent = request.externalModelConsent
  providerBudget : p.providerBudget = request.providerBudget
  liveTrial : p.liveTrial = request.liveTrial

/-- The condition on a call: a run that it reuses was planned with the parts of the request
that are not hashed, a plan that it finds has its consent and its budget, a run that is
stored under the id of a live trial is of its group, and the request selects the metrics
that are computed for its cases. -/
def Requestable (s : PlanStore) : PlanEvent → Prop
  | .update _ _ => True
  | .prepare request index now => ∀ r, request.resolve s.toCatalog = .ok r →
    (∀ run, request.reusable ids r s = some run → request.SelectsComputed ids r ∧
      ∀ p, s.plans.find? run.planId = some p → p.SameUnhashed request) ∧
    (request.reusable ids r s = none → ∀ attempt, request.attempt s = .ok attempt →
      request.LiveRequirements →
      (request.liveTrial ≠ none → ∀ stored,
        s.runs.find? (request.run ids r attempt index now).runId = some stored →
        stored.trialGroupId = request.liveTrial.map LiveTrialSpec.trialGroupId) ∧
      ((∀ stored, s.runs.find? (request.run ids r attempt index now).runId = some stored →
          stored = request.run ids r attempt index now) →
        request.SelectsComputed ids r ∧
          ∀ p, s.plans.find? (ids.planId (request.planPayload ids r)) = some p →
            p.externalModelConsent = request.externalModelConsent ∧
              p.providerBudget = request.providerBudget))

variable {ids discount clock} {index : Option ℕ} {now : Timestamp}
  {r : Resolved} {s t u : PlanStore}

variable (discount clock) in
/-- Once a plan is found, the demands of a request are met exactly when the parts are that
the plan need not share with it, and its metrics are then those of the request. -/
theorem carried_iff (runId : String) (ht : t.Planned ids) (hcatalog : t.toCatalog = s.toCatalog)
    (hr : request.resolve s.toCatalog = .ok r) {planId : String}
    (hp : t.plans.find? planId = some p) {U : Prop} (hU : p.demands = request.demands ids r ↔ U) :
    (∃ q, t.plans.find? planId = some q ∧ q.demands = request.demands ids r ∧
        StoresSelected ids discount clock t q runId) ↔
      request.SelectsComputed ids r ∧ U := by
  have hstores : p.demands = request.demands ids r →
      (StoresSelected ids discount clock t p runId ↔ request.SelectsComputed ids r) := by
    intro hdemands
    have hcases : PlanStore.listCases t.toCatalog p.datasetVersionId p.caseIds = .ok r.cases := by
      have hversion : p.datasetVersionId = request.datasetVersionId :=
        congrArg Demands.datasetVersionId hdemands
      have hids : p.caseIds = r.cases.map fun case => case.caseId :=
        congrArg Demands.caseIds hdemands
      rw [hcatalog, hversion, hids]
      exact listCases_of_resolve hr
    have hmetrics : p.metricDefinitionIds =
        (request.definitions ids).map MetricDefinition.metricDefinitionId :=
      congrArg Demands.metricDefinitionIds hdemands
    rw [storesSelected_iff ht (Table.find?_mem hp) hcases runId, hmetrics]
    rfl
  constructor
  · rintro ⟨q, hq, hdemands, hstored⟩
    rw [hp] at hq
    cases hq
    exact ⟨(hstores hdemands).mp hstored, hU.mp hdemands⟩
  · rintro ⟨hselects, hUp⟩
    exact ⟨p, hp, hU.mpr hUp, (hstores (hU.mpr hUp)).mpr hselects⟩

theorem demands_of_reused {run : EvaluationRun} (hfits : run.Fits ids p)
    (hr : request.resolve s.toCatalog = .ok r)
    (hhash : run.runFingerprintHash = ids.runFingerprintHash (request.fingerprint ids r)) :
    p.demands = request.demands ids r ↔ p.SameUnhashed request := by
  obtain ⟨hversion, hsubject, _, _⟩ := resolve_eq_ok hr
  have hfp : run.fingerprint = request.fingerprint ids r :=
    ids.runFingerprintHash_injective (hfits.hash.symm.trans hhash)
  have hversionId : r.version.datasetVersionId = request.datasetVersionId :=
    Table.find?_key hversion
  have hsubjectId : r.subject.subjectId = request.subjectId := Table.find?_key hsubject
  constructor
  · intro h
    exact ⟨congrArg Demands.caseConcurrency h, congrArg Demands.providerConcurrency h,
      congrArg Demands.externalModelConsent h, congrArg Demands.providerBudget h,
      congrArg Demands.liveTrial h⟩
  · intro h
    have hdataset : p.datasetVersionId = request.datasetVersionId := by
      rw [← hfits.dataset, hfp]
      exact hversionId
    have hsubject : p.subjectId = request.subjectId := by
      rw [← hfits.subject, hfp]
      exact hsubjectId
    have hmode : p.mode = request.mode := by
      rw [← hfits.mode, hfp]
      rfl
    have hseed : p.randomSeed = request.randomSeed := by
      rw [← hfits.seed, hfp]
      rfl
    have hcases : p.caseIds = r.cases.map fun case => case.caseId := by
      apply ids.caseSetHash_injective
      rw [← hfits.cases, hfp]
      rfl
    have hadapters : p.adapterVersions = request.adapters := by
      apply ids.adapterProfileHash_injective
      rw [← hfits.adapters, hfp]
      rfl
    have hmetrics : p.metricDefinitionIds =
        (request.definitions ids).map MetricDefinition.metricDefinitionId := by
      obtain ⟨ds, hds, hids⟩ := hfits.metrics
      rw [hfp] at hds
      rw [hids, ← ids.metricDefinitionHash_injective hds]
    unfold EvaluationPlan.demands RunRequest.demands
    rw [hdataset, hsubject, hmode, hseed, hcases, hadapters, hmetrics, h.caseConcurrency,
      h.providerConcurrency, h.externalModelConsent, h.providerBudget, h.liveTrial]

theorem demands_of_payload (hr : request.resolve s.toCatalog = .ok r)
    (hp : p.toPlanPayload = request.planPayload ids r) :
    p.demands = request.demands ids r ↔ p.externalModelConsent = request.externalModelConsent ∧
      p.providerBudget = request.providerBudget := by
  obtain ⟨hversion, hsubject, _, _⟩ := resolve_eq_ok hr
  constructor
  · intro h
    exact ⟨congrArg Demands.externalModelConsent h, congrArg Demands.providerBudget h⟩
  · rintro ⟨hconsent, hbudget⟩
    unfold EvaluationPlan.demands
    rw [hp, hconsent, hbudget]
    unfold RunRequest.demands RunRequest.planPayload
    dsimp only
    rw [Table.find?_key hversion, Table.find?_key hsubject]

variable (discount clock) in
/-- The accepted call of a new run. -/
theorem carried_iff_of_withPlan (hs : s.Planned ids) (hdef : Defines ids (request.definitions ids) s u)
    (hr : request.resolve s.toCatalog = .ok r)
    (hplan : PlanStore.withPlan (request.plan ids r now) u t) (ht : t.Planned ids) (runId : String) :
    (∃ q, t.plans.find? (ids.planId (request.planPayload ids r)) = some q ∧
        q.demands = request.demands ids r ∧ StoresSelected ids discount clock t q runId) ↔
      request.SelectsComputed ids r ∧
        ∀ p, s.plans.find? (ids.planId (request.planPayload ids r)) = some p →
          p.externalModelConsent = request.externalModelConsent ∧
            p.providerBudget = request.providerBudget := by
  have hu := hdef.planned hs
  have hcatalog : t.toCatalog = s.toCatalog :=
    (PlanStore.runs_of_withPlan hplan).2.2.trans hdef.catalog
  obtain ⟨p, hp, hpayload, hwhich⟩ := plan_of_withPlan hu hplan
  rw [carried_iff discount clock runId ht hcatalog hr hp (demands_of_payload hr hpayload),
    ← hdef.plans]
  apply and_congr_right'
  rcases hwhich with hfound | ⟨hnone, rfl⟩
  · rw [hfound]
    simp
  · rw [hnone]
    simp [RunRequest.plan]

/-- The step lemma: a call is as requested exactly when it meets the condition. -/
theorem asRequested_iff (hs : s.Planned ids) (event : PlanEvent) :
    AsRequested ids discount clock s event ↔ Requestable ids s event := by
  cases event with
  | update runId progress => exact Iff.rfl
  | prepare request index now =>
    unfold AsRequested Requestable
    rcases prepareRun_outcome request index now hs with
      ⟨e, hresolve, _⟩ | ⟨r, u, hresolve, hdef, hout⟩
    · constructor <;>
      · intro _ r hr
        rw [hresolve] at hr
        cases hr
    · have hu := hdef.planned hs
      have hext := hout.extends hu hdef.added
      have hstep : planStep ids s (.prepare request index now) =
          ((prepareRun ids request index now).runOn s).2 := rfl
      simp only [hstep]
      generalize hresult : ((prepareRun ids request index now).runOn s).1 = result at hout ⊢
      generalize ((prepareRun ids request index now).runOn s).2 = t at hout hext ⊢
      apply forall_congr'
      intro r'
      refine imp_congr_right fun hr' => ?_
      rw [hresolve] at hr'
      cases hr'
      rw [← hdef.reusable, ← hdef.attempt, ← hdef.runs]
      cases hout with
      | @reused run h =>
        obtain ⟨hlive, hrun, hhash⟩ := mem_of_reusable h
        obtain ⟨p, hp, hfits⟩ := hu.runs run hrun
        have hfound : u.plans.find? run.planId = some p := by
          rw [hfits.planId]
          exact Table.find?_of_mem hp
        have hcarried := carried_iff discount clock run.runId hu hdef.catalog hresolve hfound (demands_of_reused hfits hresolve hhash)
        simp only [Except.ok.injEq, forall_eq', reduceCtorEq, IsEmpty.forall_iff, implies_true,
          and_true, h, Option.some.injEq, ← hdef.plans, hfound]
        simpa only [hfound, Option.some.injEq] using hcarried
      | @notRetried e h hattempt => simp [h, hattempt]
      | @invalid attempt h hattempt hlive => simp [h, hattempt, hlive, evaluationError]
      | @taken attempt t stored h hattempt hlive hplan hstored hne =>
        simp only [reduceCtorEq, IsEmpty.forall_iff, implies_true, true_and, h, hattempt,
          Except.ok.injEq, forall_eq', hstored, Option.some.injEq, forall_const, hlive, hne,
          and_true]
      | @repeated attempt t h hattempt hlive hplan hstored =>
        have hcarried := carried_iff_of_withPlan discount clock hs hdef
          hresolve hplan hext.planned (request.run ids r attempt index now).runId
        have hgroup : (request.run ids r attempt index now).trialGroupId =
            request.liveTrial.map LiveTrialSpec.trialGroupId := rfl
        simp only [Except.ok.injEq, forall_eq', reduceCtorEq, IsEmpty.forall_iff, implies_true,
          and_true, h, hattempt, true_and, forall_const, hlive, hstored, Option.some.injEq, hgroup]
        exact hcarried
      | @created attempt t runs h hattempt hlive hplan hnew hruns =>
        have hcarried := carried_iff_of_withPlan discount clock hs hdef
          hresolve hplan (planned_of_withPlan hu hdef.added hplan)
          (request.run ids r attempt index now).runId
        simp only [Except.ok.injEq, forall_eq', reduceCtorEq, IsEmpty.forall_iff, implies_true,
          and_true, h, hattempt, true_and, forall_const, hlive, hnew]
        exact hcarried

/-- An accepted run is stored when its call returns. -/
theorem find?_of_accepted (hs : s.Planned ids) {run : EvaluationRun}
    (h : ((prepareRun ids request index now).runOn s).1 = .ok run) :
    (planStep ids s (.prepare request index now)).runs.find? run.runId = some run := by
  unfold planStep
  rcases prepareRun_outcome request index now hs with
    ⟨e, _, hrun⟩ | ⟨r, u, _, _, hout⟩
  · rw [hrun] at h
    cases h
  · dsimp only
    generalize ((prepareRun ids request index now).runOn s).1 = result at h hout
    generalize ((prepareRun ids request index now).runOn s).2 = t at hout ⊢
    subst h
    cases hout with
    | reused h => exact Table.find?_of_mem (mem_of_reusable h).2.1
    | repeated h hattempt hlive hplan hstored =>
      rw [(PlanStore.runs_of_withPlan hplan).1]
      exact hstored
    | created h hattempt hlive hplan hnew hruns => exact Table.find?_insert_self hruns

/-- Where every call is as requested, requests that demand different things are separated. -/
theorem neverShared_of_calls (hs : s.Planned ids) {events : List PlanEvent}
    (h : Machine.EachStep (planStep ids) (AsRequested ids discount clock) s events) :
    NeverShared ids s events := by
  intro before request index now between request' index' now' after r r' run run' hevents first
    second hr hr' hrun hrun' hdemands
  rw [hevents, Machine.eachStep_append] at h
  obtain ⟨_, hcall, h⟩ := h
  rw [Machine.eachStep_append] at h
  obtain ⟨_, hcall', _⟩ := h
  have hfirst : first.Planned ids := (extends_history hs before).planned
  have hafter := extends_planStep hfirst (.prepare request index now)
  have hbetween : Extends ids _ second := extends_history hafter.planned between
  have hlast := hbetween.trans (extends_planStep hbetween.planned (.prepare request' index' now'))
  obtain ⟨p, hp, hpd, _⟩ := (hcall r hr).1 run hrun
  obtain ⟨p', hp', hpd', _⟩ := (hcall' r' hr').1 run' hrun'
  have hplans : run.planId ≠ run'.planId := by
    intro heq
    have hlater := hlast.plans _ _ hp
    rw [heq, hp'] at hlater
    cases hlater
    exact hdemands (hpd.symm.trans hpd')
  refine ⟨fun heq => ?_, hplans⟩
  obtain ⟨later, hlater, hid⟩ := hlast.runs _ _ (find?_of_accepted hfirst hrun)
  rw [heq, find?_of_accepted hbetween.planned hrun'] at hlater
  cases hlater
  exact hplans hid.symm

def Catalog.store (catalog : Catalog) : PlanStore := { toCatalog := catalog }

variable (ids) in
theorem Catalog.store_planned (catalog : Catalog) : catalog.store.Planned ids where
  definitions := by simp [Catalog.store]
  plans := by simp [Catalog.store]
  defined := by simp [Catalog.store]
  runs := by simp [Catalog.store]

/-- Prepared runs are the ones that were requested exactly when every request meets the
condition on what is stored. -/
theorem faithful_iff_requestable (ids : PlanIds) (discount : ℕ → K) (clock : Timestamp)
    (catalog : Catalog) (events : List PlanEvent) :
    Faithful ids discount clock catalog.store events ↔
      Machine.EachStep (planStep ids) (Requestable ids) catalog.store events := by
  have hplanned := catalog.store_planned ids
  have hiff := Machine.eachStep_iff (planStep ids) (PlanStore.Planned ids)
    (P := AsRequested ids discount clock) (G := Requestable ids)
    (fun s event hs _ => (extends_planStep hs event).planned)
    (fun s event hs => asRequested_iff hs event) hplanned events
  constructor
  · exact fun h => hiff.mp h.calls
  · intro h
    have hcalls := hiff.mpr h
    exact ⟨hcalls, neverShared_of_calls hplanned hcalls⟩

def smallCatalog : Catalog where
  versions := ⟨[⟨"v1", true, "gold", "fixture"⟩], by simp⟩
  subjects := ⟨[⟨"subject", .codeCommit, none, "", ""⟩], by simp⟩
  environments := ⟨[⟨"environment", "environment"⟩], by simp⟩
  cases := ⟨[{ caseId := "case", stableCaseFamilyId := "family", component := .index
               split := "dev", source := "human_authored", repoId := "repo", tags := []
               gold := .observability, datasetVersionId := "v1", fixtureVersion := "1" }], by simp⟩

def smallRequest (caseConcurrency : ℕ) : RunRequest where
  datasetVersionId := "v1"
  subjectId := "subject"
  environmentId := "environment"
  mode := .deterministicFixture
  components := [.index]
  caseConcurrency

variable (ids) in
theorem created_on_empty {catalog : Catalog} (hr : request.resolve catalog = .ok r)
    (hretry : request.retryOfRunId = none) (hlive : request.LiveRequirements) (index : Option ℕ)
    (now : Timestamp) :
    ((prepareRun ids request index now).runOn catalog.store).1 =
        .ok (request.run ids r 1 index now) ∧
      (planStep ids catalog.store (.prepare request index now)).runs.rows =
        [request.run ids r 1 index now] := by
  have hplanned := catalog.store_planned ids
  have hreuse : ∀ u : PlanStore, u.runs.rows = [] → request.reusable ids r u = none := by
    intro u hu
    simp [RunRequest.reusable, PlanStore.findReusableRun, hu]
  have hattempt : ∀ u, request.attempt u = .ok 1 := by
    intro u
    simp [RunRequest.attempt, hretry]
  rcases prepareRun_outcome request index now hplanned with
    ⟨e, he, _⟩ | ⟨r', u, hr', hdef, hout⟩
  · have herror : request.resolve catalog = .error e := he
    rw [hr] at herror
    cases herror
  · obtain rfl : r = r' := Except.ok.inj (hr.symm.trans hr')
    have hempty : u.runs.rows = [] := by rw [hdef.runs]; rfl
    have hfind : ∀ id, u.runs.find? id = none := by
      intro id
      rw [Table.find?_eq_none_iff, hempty]
      simp
    unfold planStep
    dsimp only
    generalize ((prepareRun ids request index now).runOn _).1 = result at hout ⊢
    generalize ((prepareRun ids request index now).runOn _).2 = t at hout ⊢
    cases hout with
    | reused h =>
      rw [hreuse u hempty] at h
      cases h
    | notRetried h herror =>
      rw [hattempt u] at herror
      cases herror
    | invalid h hok hnot => exact absurd hlive hnot
    | taken h hok hlive hplan hstored hne =>
      rw [hfind] at hstored
      cases hstored
    | repeated h hok hlive hplan hstored =>
      rw [hfind] at hstored
      cases hstored
    | created h hok hlive hplan hnew hruns =>
      obtain rfl := Except.ok.inj ((hattempt u).symm.trans hok)
      refine ⟨rfl, ?_⟩
      rw [Table.rows_insert hruns, hempty, List.nil_append]

/-- Requests that differ in their concurrency are given one run, with the plan of the first. -/
theorem requests_share_a_run : Nonempty PlanIds ∧ ∀ ids : PlanIds,
    ¬ Faithful ids (fun _ => (1 : ℚ)) 0 smallCatalog.store
      [.prepare (smallRequest 1) none 0, .prepare (smallRequest 8) none 1] := by
  refine ⟨exists_planIds, fun ids h => ?_⟩
  obtain ⟨hfirst, hsecond, _⟩ := h.calls
  obtain ⟨r, hr⟩ : ∃ r, (smallRequest 1).resolve smallCatalog = .ok r := ⟨_, rfl⟩
  have hr' : (smallRequest 8).resolve smallCatalog = .ok r := hr
  obtain ⟨hrun, hrows⟩ := created_on_empty ids hr rfl (by decide) none 0
  have hplanned := smallCatalog.store_planned ids
  have hstep := extends_planStep hplanned (.prepare (smallRequest 1) none 0)
  obtain ⟨p, hp, hdemands, _⟩ := (hfirst r hr).1 _ hrun
  generalize planStep ids _ _ = s at hp hsecond hrows hstep
  have hresolve : (smallRequest 8).resolve s.toCatalog = .ok r := by
    rw [hstep.catalog]
    exact hr'
  have hreuse : (smallRequest 8).reusable ids r s = some ((smallRequest 1).run ids r 1 none 0) := by
    have hsame : (smallRequest 8).fingerprint ids r = (smallRequest 1).fingerprint ids r := rfl
    unfold RunRequest.reusable
    rw [if_pos ⟨rfl, rfl⟩, hsame]
    unfold PlanStore.findReusableRun
    rw [hrows]
    simp [RunRequest.run]
  have hother := (((asRequested_iff hstep.planned _).mp hsecond r hresolve).1 _ hreuse).2 p hp
  have hconcurrency : p.caseConcurrency = 1 := congrArg Demands.caseConcurrency hdemands
  rw [hother.caseConcurrency] at hconcurrency
  exact absurd hconcurrency (by decide)

end CodeResearch.Evaluation
