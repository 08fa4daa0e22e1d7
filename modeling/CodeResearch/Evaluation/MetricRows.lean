import CodeResearch.Evaluation.Preparation

/-!
# The metric rows of a run

`compute` yields, for each group, the metrics that `_values` knows and the default
definitions name. Their rows are stored one by one, each under the foreign key of its
definition.
-/
namespace CodeResearch.Evaluation

open ControlPlane (JobError Timestamp)

variable {K : Type} [Field K] [LinearOrder K]

/-- The defined metrics that `_values` yields. -/
def computedNames (component : Component) : List String :=
  (metricNames component).filter fun name => name ≠ "recorder_overhead_ms"

theorem groupValues_names (rows : List (Row K)) (discount : ℕ → K) (component : Component) :
    ((groupValues rows discount component).map MetricValue.name).Perm (computedNames component) := by
  cases component with
  | index =>
    change ["case_pass_rate", "entity_recall", "edge_recall", "evidence_recall",
      "chunk_recall"].Perm _
    decide
  | retrieval =>
    change ["recall_at_1", "recall_at_5", "recall_at_10", "recall_at_20", "mrr", "ndcg_at_10",
      "empty_rate", "graph_path_recall", "fallback_rate", "latency_ms"].Perm _
    decide
  | agent =>
    change ["task_success", "invalid_tool_call", "route_accuracy", "tool_selection_accuracy",
      "evidence_sufficiency", "budget_compliance"].Perm _
    decide
  | alignment =>
    change ["candidate_recall_at_20", "pair_f1", "exact_set", "selective_accuracy", "coverage",
      "abstention_accuracy", "no_implementation_accuracy", "evidence_recall", "brier", "ece"].Perm _
    decide
  | answer =>
    change ["case_pass_rate", "claim_coverage", "answer_completeness", "supported_claim_rate",
      "citation_validity"].Perm _
    decide
  | observability =>
    change ["trace_completeness", "integrity_flag_rate", "missing_span_rate", "link_validity",
      "redaction_validity", "drop_rate", "secret_leak"].Perm _
    decide

theorem mem_metricNames_of_computed {component : Component} {name : String}
    (h : name ∈ computedNames component) : name ∈ metricNames component :=
  (List.mem_filter.mp h).1

def groupMetrics (cases : List ScoredCase) (results : List (ScoredResult K)) (ids : MetricIds)
    (discount : ℕ → K) (runId : String) (computedAt : Timestamp) (key : GroupKey) :
    List (MetricResult K) :=
  (groupValues (groupRows cases results key) discount key.1).filterMap
    (metricResult ids runId key computedAt)

section Compute

variable (cases : List ScoredCase) (results : List (ScoredResult K)) (ids : MetricIds)
  (discount : ℕ → K) (runId : String) (clock : Timestamp)

theorem computeMetrics_eq : computeMetrics cases results ids discount runId clock =
    (groupOrder cases results).flatMap
      (groupMetrics cases results ids discount runId (computedAt results clock)) := rfl

variable {cases results ids discount runId clock} in
theorem mem_computeMetrics {m : MetricResult K} :
    m ∈ computeMetrics cases results ids discount runId clock ↔
      ∃ group ∈ groupOrder cases results,
        ∃ v ∈ groupValues (groupRows cases results group) discount group.1,
          metricResult ids runId group (computedAt results clock) v = some m := by
  simp only [computeMetrics, List.mem_flatMap, List.mem_filterMap]

/-- The ids of the metrics of a group are those of its component's computed names. -/
theorem groupMetrics_ids (t : Timestamp) (key : GroupKey) :
    ((groupMetrics cases results ids discount runId t key).map fun m =>
      (m.metricDefinitionId, m.metricResultId)).Perm
      ((computedNames key.1).map fun name => (ids.metricDefinitionId key.1 name,
        ids.metricResultId runId (ids.metricDefinitionId key.1 name) key.2)) := by
  have hnames := groupValues_names (groupRows cases results key) discount key.1
  refine List.Perm.trans (List.Perm.of_eq ?_) (hnames.map _)
  rw [groupMetrics, List.map_map, List.map_filterMap]
  rw [← List.filterMap_eq_map]
  apply List.filterMap_congr
  intro v hv
  have hdefined : v.name ∈ metricNames key.1 :=
    mem_metricNames_of_computed (hnames.mem_iff.mp (List.mem_map_of_mem hv))
  simp [metricResult, hdefined]

omit [Field K] [LinearOrder K] in
theorem mem_groupOrder (key : GroupKey) :
    key ∈ groupOrder cases results ↔ ∃ row, (key, row) ∈ groupEntries cases results := by
  simp [groupOrder]

omit [Field K] [LinearOrder K] in
/-- The groups of a run are those of its results' components. -/
theorem component_of_mem_groupOrder {key : GroupKey} (h : key ∈ groupOrder cases results) :
    ∃ result ∈ results, (∃ case ∈ cases, case.caseId = result.caseId) ∧
      key.1 = result.component := by
  obtain ⟨row, hrow⟩ := (mem_groupOrder cases results key).mp h
  obtain ⟨result, hresult, hin⟩ := List.mem_flatMap.mp hrow
  cases hfind : cases.find? fun case => case.caseId = result.caseId with
  | none =>
    rw [hfind] at hin
    cases hin
  | some case =>
    rw [hfind] at hin
    obtain ⟨k, hk, heq⟩ := List.mem_map.mp hin
    have hkey : k = key := congrArg Prod.fst heq
    subst hkey
    refine ⟨result, hresult, ⟨case, List.mem_of_find?_eq_some hfind, by
      simpa using List.find?_some hfind⟩, ?_⟩
    simp only [groupKeys, List.mem_append, List.mem_cons, List.not_mem_nil, or_false,
      List.mem_map] at hk
    rcases hk with (rfl | rfl | rfl | rfl) | ⟨tag, _, rfl⟩ <;> rfl

omit [Field K] [LinearOrder K] in
theorem mem_groupOrder_overall {result : ScoredResult K} (hresult : result ∈ results)
    (hcase : ∃ case ∈ cases, case.caseId = result.caseId) :
    (result.component, []) ∈ groupOrder cases results := by
  apply (mem_groupOrder cases results _).mpr
  obtain ⟨case, hmem, hid⟩ := hcase
  cases hfind : cases.find? fun case => case.caseId = result.caseId with
  | none =>
    have := List.find?_eq_none.mp hfind case hmem
    simp [hid] at this
  | some found =>
    refine ⟨(found, result), List.mem_flatMap.mpr ⟨result, hresult, ?_⟩⟩
    rw [hfind]
    exact List.mem_map.mpr ⟨(result.component, []), by simp [groupKeys], rfl⟩

theorem mem_computeMetrics_ids (id : String) :
    id ∈ (computeMetrics cases results ids discount runId clock).map
        MetricResult.metricDefinitionId ↔
      ∃ result ∈ results, (∃ case ∈ cases, case.caseId = result.caseId) ∧
        ∃ name ∈ computedNames result.component,
          ids.metricDefinitionId result.component name = id := by
  have hgroup : ∀ key : GroupKey, id ∈ (groupMetrics cases results ids discount runId
      (computedAt results clock) key).map MetricResult.metricDefinitionId ↔
      ∃ name ∈ computedNames key.1, ids.metricDefinitionId key.1 name = id := by
    intro key
    have hperm := (groupMetrics_ids cases results ids discount runId (computedAt results clock)
      key).map Prod.fst
    rw [List.map_map, List.map_map] at hperm
    exact hperm.mem_iff.trans List.mem_map
  rw [computeMetrics_eq, List.map_flatMap, List.mem_flatMap]
  constructor
  · rintro ⟨key, hkey, hid⟩
    obtain ⟨result, hresult, hcase, hcomponent⟩ := component_of_mem_groupOrder cases results hkey
    have hname := (hgroup key).mp hid
    rw [hcomponent] at hname
    exact ⟨result, hresult, hcase, hname⟩
  · rintro ⟨result, hresult, hcase, hname⟩
    exact ⟨_, mem_groupOrder_overall cases results hresult hcase, (hgroup _).mpr hname⟩

end Compute

theorem nodup_computedNames (component : Component) : (computedNames component).Nodup := by
  cases component <;> decide

/-- No two metrics of a run share an id. -/
theorem nodup_computeMetrics_ids (cases : List ScoredCase) (results : List (ScoredResult K))
    (ids : PlanIds) (discount : ℕ → K) (runId : String) (clock : Timestamp) :
    ((computeMetrics cases results ids.toMetricIds discount runId clock).map
      MetricResult.metricResultId).Nodup := by
  have hgroup : ∀ key : GroupKey, ((groupMetrics cases results ids.toMetricIds discount runId
      (computedAt results clock) key).map MetricResult.metricResultId).Perm
      ((computedNames key.1).map fun name => ids.metricResultId runId
        (ids.metricDefinitionId key.1 name) key.2) := by
    intro key
    have hperm := (groupMetrics_ids cases results ids.toMetricIds discount runId
      (computedAt results clock) key).map Prod.snd
    rwa [List.map_map, List.map_map] at hperm
  have hinj : ∀ (key key' : GroupKey) (name name' : String),
      ids.metricResultId runId (ids.metricDefinitionId key.1 name) key.2 =
        ids.metricResultId runId (ids.metricDefinitionId key'.1 name') key'.2 →
      key = key' ∧ name = name' := by
    intro key key' name name' h
    have hids : (runId, ids.metricDefinitionId key.1 name, key.2) =
        (runId, ids.metricDefinitionId key'.1 name', key'.2) := ids.metricResultId_injective h
    rw [Prod.mk.injEq, Prod.mk.injEq] at hids
    have hdef : (key.1, name) = (key'.1, name') := ids.metricDefinitionId_injective hids.2.1
    rw [Prod.mk.injEq] at hdef
    exact ⟨Prod.ext hdef.1 hids.2.2, hdef.2⟩
  rw [computeMetrics_eq, List.map_flatMap, List.nodup_flatMap]
  constructor
  · intro key _
    rw [(hgroup key).nodup_iff]
    apply (nodup_computedNames key.1).map
    intro name name' h
    exact (hinj key key name name' h).2
  · have hnodup : (groupOrder cases results).Nodup := by
      rw [groupOrder, List.nodup_reverse]
      exact List.nodup_dedup _
    refine hnodup.imp ?_
    intro key key' hne id hid hid'
    obtain ⟨name, _, rfl⟩ := List.mem_map.mp ((hgroup key).mem_iff.mp hid)
    obtain ⟨name', _, hname'⟩ := List.mem_map.mp ((hgroup key').mem_iff.mp hid')
    exact hne (hinj key' key name' name hname').1.symm

abbrev MetricRows (K : Type) := Table (MetricResult.metricResultId (K := K))

/-- `save_metric_result`; a new row needs its definition. -/
def saveMetricResult (s : PlanStore) (m : MetricResult K) (t : MetricRows K) :
    Except JobError (MetricRows K) := do
  ensure ((t.find? m.metricResultId).isSome ∨
      m.metricDefinitionId ∈ s.definitions.rows.map MetricDefinition.metricDefinitionId)
    (.other none "IntegrityError")
  BadCaseStore.immutableJson "metric_result_immutable" m t

/-- The metrics that `process_run` saves, in a table that holds none of its run. -/
def saveMetrics (s : PlanStore) (ms : List (MetricResult K)) : Except JobError (MetricRows K) :=
  ms.foldlM (fun t m => saveMetricResult s m t) .empty

variable {ms : List (MetricResult K)} {s : PlanStore}

omit [Field K] in
theorem saveAll_mem {t u : MetricRows K}
    (h : ms.foldlM (fun t m => saveMetricResult s m t) t = .ok u) (x : MetricResult K) :
    x ∈ u.rows ↔ x ∈ t.rows ∨ x ∈ ms := by
  induction ms generalizing t with
  | nil =>
    cases h
    simp
  | cons m ms ih =>
    rw [List.foldlM_cons, except_bind_eq_ok_iff] at h
    obtain ⟨v, hv, hu⟩ := h
    obtain ⟨_, _, hsave⟩ := except_bind_eq_ok_iff.mp hv
    rw [ih hu, BadCaseStore.mem_of_immutableJson hsave, List.mem_cons, or_assoc]

omit [Field K] in
theorem mem_saveMetrics {rows : MetricRows K}
    (h : saveMetrics s ms = .ok rows) (x : MetricResult K) : x ∈ rows.rows ↔ x ∈ ms := by
  have hmem := saveAll_mem h x
  simpa using hmem

omit [Field K] in
theorem exists_saveAll {t : MetricRows K} (hnodup : (t.rows.map MetricResult.metricResultId ++
      ms.map MetricResult.metricResultId).Nodup)
    (hdefined : ∀ m ∈ ms, m.metricDefinitionId ∈
      s.definitions.rows.map MetricDefinition.metricDefinitionId) :
    ∃ u, ms.foldlM (fun t m => saveMetricResult s m t) t = .ok u := by
  induction ms generalizing t with
  | nil => exact ⟨t, rfl⟩
  | cons m ms ih =>
    rw [List.map_cons, List.nodup_append] at hnodup
    have hfresh : m.metricResultId ∉ t.rows.map MetricResult.metricResultId := by
      intro hm
      exact hnodup.2.2 _ hm _ List.mem_cons_self rfl
    obtain ⟨v, hv⟩ := Table.exists_insert hfresh
    have hsave : saveMetricResult s m t = .ok v := by
      unfold saveMetricResult BadCaseStore.immutableJson
      rw [ensure_pos (.inr (hdefined m List.mem_cons_self)), except_bind_ok,
        t.find?_eq_none_iff.mpr hfresh]
      dsimp only
      rw [hv, orError_some]
    obtain ⟨u, hu⟩ := @ih v (by
      rw [Table.rows_insert hv, List.map_append, List.append_assoc, List.nodup_append]
      exact hnodup) fun m hm => hdefined m (List.mem_cons_of_mem _ hm)
    exact ⟨u, by rw [List.foldlM_cons, hsave, except_bind_ok, hu]⟩

omit [Field K] in
theorem exists_saveMetrics (hnodup : (ms.map MetricResult.metricResultId).Nodup)
    (hdefined : ∀ m ∈ ms, m.metricDefinitionId ∈
      s.definitions.rows.map MetricDefinition.metricDefinitionId) :
    ∃ rows, saveMetrics s ms = .ok rows :=
  exists_saveAll (by simpa using hnodup) hdefined

end CodeResearch.Evaluation
