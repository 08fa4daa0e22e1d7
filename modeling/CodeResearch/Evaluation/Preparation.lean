import CodeResearch.Evaluation.Plans

/-!
# What a preparation does to the store

A request that resolves is given a reusable run, is refused, meets a run under the id of
its own, or has its run stored. Every stored run fits its plan: its fingerprint is that of
the plan's payload, except for the parts that no fingerprint covers.
-/
namespace CodeResearch.Evaluation

open ControlPlane (JobError Timestamp)
open DomainJobs (evaluationError EvaluationStatus)

namespace BadCaseStore

/-- A table keeps its rows under an immutable write, which adds the row that was written. -/
theorem mem_of_immutableJson {ρ : Type} [DecidableEq ρ] {key : ρ → String} {code : String} {r : ρ}
    {t u : Table key} (h : immutableJson code r t = .ok u) (x : ρ) :
    x ∈ u.rows ↔ x ∈ t.rows ∨ x = r := by
  unfold immutableJson at h
  cases hfind : t.find? (key r) with
  | some stored =>
    rw [hfind] at h
    dsimp only at h
    split_ifs at h with heq
    cases h
    constructor
    · exact .inl
    · rintro (hx | rfl)
      · exact hx
      · exact heq ▸ Table.find?_mem hfind
  | none =>
    rw [hfind] at h
    exact Table.mem_insert (orError_eq_ok_iff.mp h) x

theorem exists_immutableJson {ρ : Type} [DecidableEq ρ] {key : ρ → String} (code : String) {r : ρ}
    {t : Table key} (h : ∀ x ∈ t.rows, key x = key r → x = r) :
    ∃ u, immutableJson code r t = .ok u := by
  unfold immutableJson
  cases hfind : t.find? (key r) with
  | some stored =>
    have hstored : stored = r := h stored (Table.find?_mem hfind) (Table.find?_key hfind)
    exact ⟨t, if_pos hstored⟩
  | none =>
    obtain ⟨u, hu⟩ := Table.exists_insert (t.find?_eq_none_iff.mp hfind)
    exact ⟨u, by rw [hu, orError_some]⟩

end BadCaseStore

variable (ids : PlanIds)

theorem defaultMetricDefinitions_eq {d d' : MetricDefinition}
    (hd : d ∈ defaultMetricDefinitions ids.toMetricIds)
    (hd' : d' ∈ defaultMetricDefinitions ids.toMetricIds)
    (h : d.metricDefinitionId = d'.metricDefinitionId) : d = d' := by
  obtain ⟨⟨c, name, direction, aggregation⟩, hspec, rfl⟩ := List.mem_map.mp hd
  obtain ⟨⟨c', name', direction', aggregation'⟩, hspec', rfl⟩ := List.mem_map.mp hd'
  have hkey : (c, name) = (c', name') := ids.metricDefinitionId_injective h
  have hnodup : (metricSpecs.map fun spec => (spec.1, spec.2.1)).Nodup := by decide
  have hspecs := List.inj_on_of_nodup_map hnodup hspec hspec' hkey
  cases hspecs
  rfl

/-- The stored definitions are default ones, and those of a list are among them. -/
structure Defines (ds : List MetricDefinition) (s t : PlanStore) : Prop where
  catalog : t.toCatalog = s.toCatalog
  plans : t.plans = s.plans
  runs : t.runs = s.runs
  kept : ∀ d ∈ s.definitions.rows, d ∈ t.definitions.rows
  added : ∀ d ∈ ds, d ∈ t.definitions.rows
  known : ∀ d ∈ t.definitions.rows, d ∈ defaultMetricDefinitions ids.toMetricIds

variable {ids} {s : PlanStore}

/-- Default definitions can always be saved. -/
theorem saveDefinitions_defines {ds : List MetricDefinition}
    (hs : ∀ d ∈ s.definitions.rows, d ∈ defaultMetricDefinitions ids.toMetricIds)
    (hds : ∀ d ∈ ds, d ∈ defaultMetricDefinitions ids.toMetricIds) :
    ∃ t, (ds.forM fun d => Exec.command (PlanStore.saveMetricDefinition d)).runOn s =
      ((.ok ⟨⟩ : Except JobError PUnit), t) ∧ Defines ids ds s t := by
  induction ds generalizing s with
  | nil => exact ⟨s, rfl, rfl, rfl, rfl, fun _ h => h, by simp, hs⟩
  | cons d ds ih =>
    have hd := hds d List.mem_cons_self
    obtain ⟨u, hu⟩ : ∃ u, BadCaseStore.immutableJson "evaluation_metric_definition_immutable" d
        s.definitions = .ok u :=
      BadCaseStore.exists_immutableJson _ fun x hx hkey =>
        defaultMetricDefinitions_eq ids (hs x hx) hd hkey
    have hmem := BadCaseStore.mem_of_immutableJson hu
    have hsave : PlanStore.saveMetricDefinition d s = .ok { s with definitions := u } := by
      rw [PlanStore.saveMetricDefinition, hu]
      rfl
    obtain ⟨t, ht, hdef⟩ := @ih { s with definitions := u }
      (by
        intro x hx
        rcases (hmem x).mp hx with hx | rfl
        · exact hs x hx
        · exact hd)
      fun x hx => hds x (List.mem_cons_of_mem d hx)
    refine ⟨t, ?_, hdef.catalog, hdef.plans, hdef.runs, ?_, ?_, hdef.known⟩
    · change (Exec.command (PlanStore.saveMetricDefinition d) >>= fun _ => ds.forM _).runOn s = _
      rw [Exec.runOn_bind_ok (Exec.runOn_command_ok hsave)]
      exact ht
    · intro x hx
      exact hdef.kept x ((hmem x).mpr (.inl hx))
    · intro x hx
      rcases List.mem_cons.mp hx with rfl | hx
      · exact hdef.kept x ((hmem x).mpr (.inr rfl))
      · exact hdef.added x hx

theorem mem_definitions {request : RunRequest} {d : MetricDefinition}
    (hd : d ∈ request.definitions ids) : d ∈ defaultMetricDefinitions ids.toMetricIds :=
  (List.mem_filter.mp hd).1

variable (ids)

/-- A run was made for a plan. -/
structure EvaluationRun.Fits (run : EvaluationRun) (p : EvaluationPlan) : Prop where
  planId : run.planId = p.planId
  hash : run.runFingerprintHash = ids.runFingerprintHash run.fingerprint
  runId : run.runId = ids.runId run.runFingerprintHash run.attemptNumber run.retryOfRunId
    run.repeatIndex
  dataset : run.fingerprint.datasetVersionId = p.datasetVersionId
  subject : run.fingerprint.subjectId = p.subjectId
  mode : run.fingerprint.executionMode = p.mode
  seed : run.fingerprint.randomSeed = p.randomSeed
  cases : run.fingerprint.caseSetHash = ids.caseSetHash p.caseIds
  adapters : run.fingerprint.adapterProfileHash = ids.adapterProfileHash p.adapterVersions
  metrics : ∃ ds : List MetricDefinition,
    run.fingerprint.metricDefinitionHash = ids.metricDefinitionHash ds ∧
      p.metricDefinitionIds = ds.map MetricDefinition.metricDefinitionId

/-- The invariant of the store. -/
structure PlanStore.Planned (s : PlanStore) : Prop where
  definitions : ∀ d ∈ s.definitions.rows, d ∈ defaultMetricDefinitions ids.toMetricIds
  plans : ∀ p ∈ s.plans.rows, p.planId = ids.planId p.toPlanPayload ∧
    p.frozenConfigHash = ids.frozenConfigHash p.toPlanPayload
  defined : ∀ p ∈ s.plans.rows, ∀ id ∈ p.metricDefinitionIds,
    id ∈ s.definitions.rows.map MetricDefinition.metricDefinitionId
  runs : ∀ run ∈ s.runs.rows, ∃ p ∈ s.plans.rows, run.Fits ids p

/-- A new run and the plan under its plan id, whoever stored it. -/
theorem RunRequest.run_fits (request : RunRequest) (r : Resolved) (attempt : ℕ) (index : Option ℕ)
    (now : Timestamp) {p : EvaluationPlan} (hid : p.planId = ids.planId (request.planPayload ids r))
    (hp : p.toPlanPayload = request.planPayload ids r) :
    (request.run ids r attempt index now).Fits ids p where
  planId := hid.symm
  hash := rfl
  runId := rfl
  dataset := (congrArg PlanPayload.datasetVersionId hp).symm
  subject := (congrArg PlanPayload.subjectId hp).symm
  mode := (congrArg PlanPayload.mode hp).symm
  seed := (congrArg PlanPayload.randomSeed hp).symm
  cases := congrArg ids.caseSetHash (congrArg PlanPayload.caseIds hp).symm
  adapters := congrArg ids.adapterProfileHash (congrArg PlanPayload.adapterVersions hp).symm
  metrics := ⟨request.definitions ids, rfl, congrArg PlanPayload.metricDefinitionIds hp⟩

def PlanStore.withPlan (plan : EvaluationPlan) (s t : PlanStore) : Prop :=
  ((s.plans.find? plan.planId).isSome ∧ t = s) ∨
    ∃ plans, s.plans.find? plan.planId = none ∧ s.plans.insert plan = some plans ∧
      t = { s with plans }

/-- What a preparation that resolves can come to; `u` is the store with the definitions. -/
inductive Outcome (request : RunRequest) (index : Option ℕ) (now : Timestamp) (r : Resolved)
    (u : PlanStore) : Except JobError EvaluationRun → PlanStore → Prop
  | reused {run : EvaluationRun} (h : request.reusable ids r u = some run) :
      Outcome request index now r u (.ok run) u
  | notRetried {e : JobError} (h : request.reusable ids r u = none)
      (hattempt : request.attempt u = .error e) : Outcome request index now r u (.error e) u
  | invalid {attempt : ℕ} (h : request.reusable ids r u = none)
      (hattempt : request.attempt u = .ok attempt) (hlive : ¬ request.LiveRequirements) :
      Outcome request index now r u (.error (.other none "ValidationError")) u
  | taken {attempt : ℕ} {t : PlanStore} {stored : EvaluationRun}
      (h : request.reusable ids r u = none) (hattempt : request.attempt u = .ok attempt)
      (hlive : request.LiveRequirements) (hplan : PlanStore.withPlan (request.plan ids r now) u t)
      (hstored : u.runs.find? (request.run ids r attempt index now).runId = some stored)
      (hne : stored ≠ request.run ids r attempt index now) :
      Outcome request index now r u (.error (evaluationError "evaluation_run_conflict"
        "UNIQUE constraint failed: evaluation_runs.run_id")) t
  | repeated {attempt : ℕ} {t : PlanStore} (h : request.reusable ids r u = none)
      (hattempt : request.attempt u = .ok attempt) (hlive : request.LiveRequirements)
      (hplan : PlanStore.withPlan (request.plan ids r now) u t)
      (hstored : u.runs.find? (request.run ids r attempt index now).runId =
        some (request.run ids r attempt index now)) :
      Outcome request index now r u (.ok (request.run ids r attempt index now)) t
  | created {attempt : ℕ} {t : PlanStore} {runs : Table EvaluationRun.runId}
      (h : request.reusable ids r u = none) (hattempt : request.attempt u = .ok attempt)
      (hlive : request.LiveRequirements) (hplan : PlanStore.withPlan (request.plan ids r now) u t)
      (hnew : u.runs.find? (request.run ids r attempt index now).runId = none)
      (hruns : u.runs.insert (request.run ids r attempt index now) = some runs) :
      Outcome request index now r u (.ok (request.run ids r attempt index now))
        { t with runs }

variable {ids} {request : RunRequest} {index : Option ℕ} {now : Timestamp} {r : Resolved}

theorem PlanStore.Planned.payload_eq (hs : s.Planned ids) {p : EvaluationPlan}
    {payload : PlanPayload} (hp : s.plans.find? (ids.planId payload) = some p) :
    p.toPlanPayload = payload :=
  ids.planId_injective ((hs.plans p (Table.find?_mem hp)).1.symm.trans (Table.find?_key hp))

theorem PlanStore.runs_of_withPlan {plan : EvaluationPlan} {s t : PlanStore}
    (h : PlanStore.withPlan plan s t) : t.runs = s.runs ∧ t.definitions = s.definitions ∧
      t.toCatalog = s.toCatalog := by
  rcases h with ⟨_, rfl⟩ | ⟨_, _, _, rfl⟩ <;> exact ⟨rfl, rfl, rfl⟩

variable (request now r) in
/-- The plan of a request is stored or found, and never in conflict. -/
theorem storePlan_withPlan (hs : s.Planned ids) :
    ∃ t, PlanStore.storePlan (request.plan ids r now) s = .ok t ∧
      PlanStore.withPlan (request.plan ids r now) s t := by
  unfold PlanStore.storePlan
  cases hfind : s.plans.find? (request.plan ids r now).planId with
  | some stored =>
    have hpayload : stored.toPlanPayload = request.planPayload ids r := hs.payload_eq hfind
    have hhash : stored.frozenConfigHash = (request.plan ids r now).frozenConfigHash := by
      rw [(hs.plans stored (Table.find?_mem hfind)).2, hpayload]
      rfl
    exact ⟨s, if_pos hhash, .inl ⟨by rw [hfind]; rfl, rfl⟩⟩
  | none =>
    obtain ⟨plans, hplans⟩ := Table.exists_insert (s.plans.find?_eq_none_iff.mp hfind)
    exact ⟨{ s with plans }, by rw [hplans]; rfl, .inr ⟨plans, hfind, hplans, rfl⟩⟩

theorem prepareResolved_outcome {u : PlanStore} (hu : u.Planned ids) :
    Outcome ids request index now r u ((prepareResolved ids request r index now).runOn u).1
      ((prepareResolved ids request r index now).runOn u).2 := by
  have hquery : (Exec.query fun s => .ok (request.reusable ids r s)).runOn u =
      ((.ok (request.reusable ids r u) : Except JobError _), u) := rfl
  unfold prepareResolved
  rw [Exec.runOn_bind_ok hquery]
  cases hreuse : request.reusable ids r u with
  | some run => exact .reused hreuse
  | none =>
    dsimp only
    cases hattempt : request.attempt u with
    | error e =>
      rw [Exec.runOn_bind_error (by rw [Exec.runOn_query, hattempt])]
      exact .notRetried hreuse hattempt
    | ok attempt =>
      rw [Exec.runOn_bind_ok (by rw [Exec.runOn_query, hattempt])]
      by_cases hlive : request.LiveRequirements
      · rw [Exec.runOn_bind_ok (Exec.runOn_check_pos hlive _ _)]
        obtain ⟨t, hstore, hplan⟩ := storePlan_withPlan request now r hu
        rw [Exec.runOn_bind_ok (Exec.runOn_command_ok hstore)]
        have hruns := (PlanStore.runs_of_withPlan hplan).1
        cases hins : t.runs.insert (request.run ids r attempt index now) with
        | some runs =>
          have hsave : PlanStore.saveRun (request.run ids r attempt index now) t =
              .ok { t with runs } := by
            rw [PlanStore.saveRun, hins]
          rw [Exec.runOn_bind_ok (Exec.runOn_command_ok hsave)]
          rw [hruns] at hins
          exact .created hreuse hattempt hlive hplan
            (u.runs.find?_eq_none_iff.mpr (Table.insert_fresh hins)) hins
        | none =>
          have htaken : ∃ stored, u.runs.find? (request.run ids r attempt index now).runId =
              some stored := by
            cases hfind : u.runs.find? (request.run ids r attempt index now).runId with
            | some stored => exact ⟨stored, rfl⟩
            | none =>
              obtain ⟨runs, hnew⟩ := Table.exists_insert (u.runs.find?_eq_none_iff.mp hfind)
              rw [hruns, hnew] at hins
              cases hins
          obtain ⟨stored, hstored⟩ := htaken
          by_cases heq : stored = request.run ids r attempt index now
          · subst heq
            have hsave : PlanStore.saveRun (request.run ids r attempt index now) t = .ok t := by
              rw [PlanStore.saveRun, hins]
              exact if_pos (by rw [hruns, hstored])
            rw [Exec.runOn_bind_ok (Exec.runOn_command_ok hsave)]
            exact .repeated hreuse hattempt hlive hplan hstored
          · have hsave : PlanStore.saveRun (request.run ids r attempt index now) t =
                .error (evaluationError "evaluation_run_conflict"
                  "UNIQUE constraint failed: evaluation_runs.run_id") := by
              rw [PlanStore.saveRun, hins]
              refine if_neg ?_
              rw [hruns, hstored]
              exact fun h => heq (Option.some.inj h)
            rw [Exec.runOn_bind_error (Exec.runOn_command_error hsave)]
            exact .taken hreuse hattempt hlive hplan hstored heq
      · rw [Exec.runOn_bind_error (Exec.runOn_check_neg hlive _ _)]
        exact .invalid hreuse hattempt hlive

end CodeResearch.Evaluation
