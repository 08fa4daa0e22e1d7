import CodeResearch.Evaluation.RuleProbes
import CodeResearch.Evaluation.MetricOrder

/-!
# Cases that only one of two runs has

The scope of a comparison excludes the cases that only one of the runs has, but its
differences are taken from the metrics of the whole runs. A run is compared on common
cases only where it has a result for every case of the dataset in each component that it
covers.
-/
namespace CodeResearch.Evaluation

open ControlPlane (Timestamp)

section Shapes

variable {K : Type}

def MetricResult.shape (m : MetricResult K) : MetricResult K :=
  { m with metricResultId := "", evaluationRunId := "", computedAt := 0 }

def ComparedRun.keys (side : ComparedRun K) : List (List String) := side.metrics.map metricKey

def ComparedRun.shapeUnder (side : ComparedRun K) (key : List String) : Option (MetricResult K) :=
  (metricUnder side.metrics key).map MetricResult.shape

theorem sorted_congr {α : Type} [DecidableEq α] {r : α → α → Prop} [DecidableRel r] [Std.Total r]
    [IsTrans α r] [Std.Antisymm r] {l l' : List α} (h : ∀ a, a ∈ l ↔ a ∈ l') :
    l.dedup.insertionSort r = l'.dedup.insertionSort r := by
  have hperm : l.dedup.Perm l'.dedup := by
    rw [List.perm_ext_iff_of_nodup (List.nodup_dedup l) (List.nodup_dedup l')]
    simpa using h
  apply List.Perm.eq_of_pairwise' (List.pairwise_insertionSort _ _) (List.pairwise_insertionSort _ _)
  exact (List.perm_insertionSort _ _).trans (hperm.trans (List.perm_insertionSort _ _).symm)

/-- Two pairs of runs have the same metrics under the keys that the pairs share. -/
structure SharedAlike (b c b' c' : ComparedRun K) : Prop where
  keys : ∀ key, key ∈ b.keys ∧ key ∈ c.keys ↔ key ∈ b'.keys ∧ key ∈ c'.keys
  baseline : ∀ key, key ∈ b.keys → key ∈ c.keys → b.shapeUnder key = b'.shapeUnder key
  candidate : ∀ key, key ∈ b.keys → key ∈ c.keys → c.shapeUnder key = c'.shapeUnder key
  environments : b.environment.environmentHash = c.environment.environmentHash ↔
    b'.environment.environmentHash = c'.environment.environmentHash

variable {b c b' c' : ComparedRun K}

theorem pairedMetrics_shapes (b c : ComparedRun K) :
    (pairedMetrics b c).map (Prod.map MetricResult.shape MetricResult.shape) =
      (sorted (b.keys.filter fun key => key ∈ c.keys)).filterMap fun key => do
        let x ← b.shapeUnder key
        let y ← c.shapeUnder key
        return (x, y) := by
  unfold pairedMetrics ComparedRun.keys ComparedRun.shapeUnder
  rw [List.map_filterMap]
  apply List.filterMap_congr
  intro key _
  cases metricUnder b.metrics key <;> cases metricUnder c.metrics key <;> rfl

theorem SharedAlike.pairs (h : SharedAlike b c b' c') :
    (pairedMetrics b c).map (Prod.map MetricResult.shape MetricResult.shape) =
      (pairedMetrics b' c').map (Prod.map MetricResult.shape MetricResult.shape) := by
  rw [pairedMetrics_shapes, pairedMetrics_shapes]
  have hsorted : sorted (b.keys.filter fun key => key ∈ c.keys) =
      sorted (b'.keys.filter fun key => key ∈ c'.keys) := by
    apply sorted_congr
    intro key
    simpa using h.keys key
  rw [← hsorted]
  apply List.filterMap_congr
  intro key hkey
  have hmem : key ∈ b.keys ∧ key ∈ c.keys := by
    simpa [sorted] using hkey
  rw [h.baseline key hmem.1 hmem.2, h.candidate key hmem.1 hmem.2]

variable [Field K] [LinearOrder K]

theorem comparedDeltas_eq (b c : ComparedRun K) (names : String → String) :
    comparedDeltas b c names =
      (((pairedMetrics b c).map (Prod.map MetricResult.shape MetricResult.shape)).filter fun pair =>
        Comparable b c names pair).map fun (b, c) => metricDelta b c := by
  unfold comparedDeltas
  rw [List.filter_map, List.map_map]
  rfl

theorem SharedAlike.deltas (h : SharedAlike b c b' c') (names : String → String) :
    comparedDeltas b c names = comparedDeltas b' c' names := by
  rw [comparedDeltas_eq, comparedDeltas_eq, h.pairs]
  congr 1
  apply List.filter_congr
  intro pair _
  apply decide_eq_decide.mpr
  unfold Comparable
  rw [h.environments]

end Shapes

section Verdict

variable {K : Type}

theorem mem_ite_nil {p : Prop} [Decidable p] {x y : String} :
    x ∈ (if p then [] else [y]) ↔ x = y ∧ ¬ p := by
  split_ifs with h <;> simp [h]

def hashFields (run : EvaluationRun) : List String :=
  [run.fingerprint.goldHash, run.fingerprint.fixtureHash, run.fingerprint.adapterMajorHash,
    run.fingerprint.metricDefinitionHash]

theorem hash_reason_iff (b c : ComparedRun K) :
    (∃ reason ∈ incompatibilityReasons b c, reason ∈ ["gold_hash_mismatch",
        "fixture_hash_mismatch", "adapter_major_hash_mismatch",
        "metric_definition_hash_mismatch"]) ↔ hashFields b.run ≠ hashFields c.run := by
  simp only [incompatibilityReasons, fingerprintFields, List.mem_append, mem_ite_nil,
    List.zip_cons_cons, List.zip_nil_right, List.mem_filterMap, List.mem_cons, List.not_mem_nil,
    or_false, exists_eq_or_imp, exists_eq_left, Option.ite_none_left_eq_some, Option.some.injEq,
    and_or_left, exists_or, exists_eq_right, hashFields]
  simp
  tauto

variable [Field K] [LinearOrder K] {b c b' c' : ComparedRun K}

/-- Pairs that share the same metrics and the same cases are judged alike. -/
theorem SharedAlike.verdict (h : SharedAlike b c b' c')
    (hcommon : commonCases b c = commonCases b' c')
    (hhashes : hashFields b.run = hashFields c.run ↔ hashFields b'.run = hashFields c'.run)
    (input : PipelineInput) (config : RegressionGateConfig K) :
    (pipeline input b c config).verdict = (pipeline input b' c' config).verdict := by
  have hdeltas := h.deltas input.metricNames
  have hnil : ∀ b c : ComparedRun K, ((pairedMetrics b c).filter fun pair =>
      Comparable b c input.metricNames pair) = [] ↔ comparedDeltas b c input.metricNames = [] := by
    intro b c
    exact List.map_eq_nil_iff.symm
  have hcompatible : compatibility b c input.metricNames = .incompatible ↔
      compatibility b' c' input.metricNames = .incompatible := by
    rw [incompatible_iff, incompatible_iff, hash_reason_iff, hash_reason_iff, hcommon, hnil, hnil,
      hdeltas, Ne, Ne, hhashes]
  rw [pipeline_verdict, pipeline_verdict, if_congr hcompatible rfl rfl]
  unfold comparedRows
  rw [hdeltas]

end Verdict

section Keys

variable {K : Type} [Field K] [LinearOrder K] {cases : List ScoredCase}
  {results : List (ScoredResult K)} {ids : PlanIds} {discount : ℕ → K} {runId : String}
  {clock : Timestamp}

def keyOf (ids : MetricIds) (group : GroupKey) (name : String) : List String :=
  ids.metricDefinitionId group.1 name :: group.2.flatMap fun item => [item.1, item.2]

omit [Field K] [LinearOrder K] in
variable {group : GroupKey} {m : MetricResult K} {key : List String}

theorem length_of_mem_groupOrder (h : group ∈ groupOrder cases results) : group.2.length ≤ 1 := by
  rw [mem_groupOrder_iff_rows, groupRows_eq, Ne, List.flatMap_eq_nil_iff] at h
  push Not at h
  obtain ⟨result, _, hrows⟩ := h
  unfold rowsOf at hrows
  split at hrows
  · exact absurd rfl hrows
  · obtain ⟨row, hrow⟩ := List.exists_mem_of_ne_nil _ hrows
    obtain ⟨k, hk, _⟩ := List.mem_map.mp hrow
    obtain ⟨hkeys, heq⟩ := List.mem_filter.mp hk
    obtain rfl : k = group := of_decide_eq_true heq
    exact (of_mem_groupKeys hkeys).2

/-- Groups have at most one subgroup, so keys tell them apart. -/
theorem keyOf_inj {group' : GroupKey} (hg : group.2.length ≤ 1) (hg' : group'.2.length ≤ 1)
    {name name' : String} (h : keyOf ids.toMetricIds group name = keyOf ids.toMetricIds group' name') :
    group = group' ∧ name = name' := by
  obtain ⟨component, sub⟩ := group
  obtain ⟨component', sub'⟩ := group'
  obtain ⟨hid, hsub⟩ := List.cons.inj h
  have hdef : (component, name) = (component', name') := ids.metricDefinitionId_injective hid
  obtain ⟨rfl, rfl⟩ := Prod.mk.inj hdef
  have hsubs : sub = sub' := by
    match sub, sub', hg, hg' with
    | [], [], _, _ => rfl
    | [], [_], _, _ => cases hsub
    | [_], [], _, _ => cases hsub
    | [item], [item'], _, _ =>
      simp only [List.flatMap_cons, List.flatMap_nil, List.append_nil, List.cons.injEq,
        and_true] at hsub
      rw [Prod.ext hsub.1 hsub.2]
  exact ⟨by rw [hsubs], rfl⟩

omit [Field K] [LinearOrder K] in
theorem metricKey_of_length (h : m.subgroup.length ≤ 1) :
    metricKey m = m.metricDefinitionId :: m.subgroup.flatMap fun item => [item.1, item.2] := by
  unfold metricKey
  match hm : m.subgroup, h with
  | [], _ => rfl
  | [item], _ => rfl

omit [Field K] [LinearOrder K] in
theorem metricKey_of_metricResult {ids : MetricIds} (hg : group.2.length ≤ 1)
    {v : MetricValue K} (h : metricResult ids runId group clock v = some m) :
    metricKey m = keyOf ids group v.name := by
  unfold metricResult at h
  split_ifs at h
  cases h
  exact metricKey_of_length hg

omit [Field K] [LinearOrder K] in
theorem metricResult_shape (ids : MetricIds) (runId : String) (group : GroupKey)
    (clock : Timestamp) (v : MetricValue K) :
    (metricResult ids runId group clock v).map MetricResult.shape =
      (metricResult ids "" group 0 v).map MetricResult.shape := by
  unfold metricResult
  split_ifs <;> rfl

/-- No two metrics of a run share a key. -/
theorem nodup_computeMetrics_keys :
    ((computeMetrics cases results ids.toMetricIds discount runId clock).map metricKey).Nodup := by
  have hids := nodup_computeMetrics_ids cases results ids discount runId clock
  rw [List.nodup_map_iff_inj_on (List.Nodup.of_map _ hids)]
  intro m hm m' hm' hkey
  apply List.inj_on_of_nodup_map hids hm hm'
  obtain ⟨group, hgroup, v, _, hv⟩ := mem_computeMetrics.mp hm
  obtain ⟨group', hgroup', v', _, hv'⟩ := mem_computeMetrics.mp hm'
  have hg := length_of_mem_groupOrder hgroup
  have hg' := length_of_mem_groupOrder hgroup'
  rw [metricKey_of_metricResult hg hv, metricKey_of_metricResult hg' hv'] at hkey
  obtain ⟨rfl, hname⟩ := keyOf_inj hg hg' hkey
  unfold metricResult at hv hv'
  split_ifs at hv hv'
  cases hv
  cases hv'
  rw [hname]

omit [Field K] [LinearOrder K] in
/-- With distinct keys, the dictionary holds every metric. -/
theorem metricUnder_eq_some_iff {metrics : List (MetricResult K)}
    (h : (metrics.map metricKey).Nodup) :
    metricUnder metrics key = some m ↔ m ∈ metrics ∧ metricKey m = key := by
  unfold metricUnder
  constructor
  · intro hfind
    exact ⟨List.mem_reverse.mp (List.mem_of_find?_eq_some hfind), by
      simpa using List.find?_some hfind⟩
  · rintro ⟨hm, rfl⟩
    cases hfind : metrics.reverse.find? fun x => metricKey x = metricKey m with
    | none =>
      have hne := List.find?_eq_none.mp hfind m (List.mem_reverse.mpr hm)
      simp at hne
    | some found =>
      have hmem := List.mem_reverse.mp (List.mem_of_find?_eq_some hfind)
      have hkey : metricKey found = metricKey m := by simpa using List.find?_some hfind
      rw [List.inj_on_of_nodup_map h hmem hm hkey]

omit [Field K] [LinearOrder K] in
theorem mem_keys_iff {side : ComparedRun K} : key ∈ side.keys ↔ (side.shapeUnder key).isSome := by
  unfold ComparedRun.keys ComparedRun.shapeUnder metricUnder
  rw [Option.isSome_map, List.find?_isSome]
  simp

end Keys

abbrev CaseTable := Table fun case : ScoredCase => case.caseId

/-- A run that evaluates some cases of a dataset, with at most one result of each. -/
structure DatasetRun (K : Type) (dataset : CaseTable) where
  run : EvaluationRun
  environment : ExecutionEnvironment
  cases : List ScoredCase
  results : List (ScoredResult K)
  computedAt : Timestamp
  cases_mem : ∀ case ∈ cases, case ∈ dataset.rows
  nodup : (results.map fun result => result.caseId).Nodup
  known : ∀ result ∈ results, ∃ case ∈ cases, case.caseId = result.caseId ∧
    case.component = result.component

namespace DatasetRun

variable {K : Type} {dataset : CaseTable} (r r' fixed : DatasetRun K dataset)

def caseIds : List String := r.results.map fun result => result.caseId

def commonResults : List (ScoredResult K) :=
  (r.results.filter fun result => result.caseId ∈ fixed.caseIds).map ScoredResult.blank

variable [Field K] [LinearOrder K] (ids : MetricIds) (discount : ℕ → K)

/-- The run with the metrics that `MetricEngine.compute` yields for it. -/
def compared : ComparedRun K where
  run := r.run
  environment := r.environment
  caseResults := r.results.map ScoredResult.toCaseResult
  metrics := computeMetrics r.cases r.results ids discount r.run.runId r.computedAt

omit [Field K] [LinearOrder K] in
theorem find_case {result : ScoredResult K} (h : result ∈ r.results) :
    (r.cases.find? fun case => case.caseId = result.caseId) =
      dataset.rows.find? fun case => case.caseId = result.caseId := by
  obtain ⟨case, hcase, hid, _⟩ := r.known result h
  have hfound : dataset.find? result.caseId = some case :=
    hid ▸ Table.find?_of_mem (r.cases_mem case hcase)
  cases hfind : r.cases.find? fun case => case.caseId = result.caseId with
  | none =>
    have hne := List.find?_eq_none.mp hfind case hcase
    simp [hid] at hne
  | some found =>
    have hmem := r.cases_mem found (List.mem_of_find?_eq_some hfind)
    have hkey : found.caseId = result.caseId := by simpa using List.find?_some hfind
    rw [← hkey]
    exact (Table.find?_of_mem hmem).symm

omit [Field K] [LinearOrder K] in
theorem groupEntries_eq : groupEntries r.cases r.results = groupEntries dataset.rows r.results := by
  unfold groupEntries
  apply List.flatMap_congr
  intro result hresult
  rw [r.find_case hresult]

theorem compared_metrics : (r.compared ids discount).metrics =
    computeMetrics dataset.rows r.results ids discount r.run.runId r.computedAt := by
  unfold compared computeMetrics groupOrder groupRows
  rw [groupEntries_eq]

variable {ids : PlanIds} {discount} {r r' fixed}

variable {key : List String} {component : Component}

theorem shapeUnder_eq_some_iff {shape : MetricResult K} :
    (r.compared ids.toMetricIds discount).shapeUnder key = some shape ↔
      ∃ group ∈ groupOrder dataset.rows r.results,
        ∃ v ∈ groupValues (groupRows dataset.rows r.results group) discount group.1,
          (metricResult ids.toMetricIds "" group 0 v).map MetricResult.shape = some shape ∧
            keyOf ids.toMetricIds group v.name = key := by
  have hnodup : ((r.compared ids.toMetricIds discount).metrics.map metricKey).Nodup := by
    rw [compared_metrics]
    exact nodup_computeMetrics_keys
  unfold ComparedRun.shapeUnder
  rw [Option.map_eq_some_iff]
  constructor
  · rintro ⟨m, hm, rfl⟩
    obtain ⟨hmem, rfl⟩ := (metricUnder_eq_some_iff hnodup).mp hm
    rw [compared_metrics] at hmem
    obtain ⟨group, hgroup, v, hv, hresult⟩ := mem_computeMetrics.mp hmem
    refine ⟨group, hgroup, v, hv, ?_, ?_⟩
    · rw [← metricResult_shape, hresult]
      rfl
    · exact (metricKey_of_metricResult (length_of_mem_groupOrder hgroup) hresult).symm
  · rintro ⟨group, hgroup, v, hv, hshape, rfl⟩
    rw [← metricResult_shape _ r.run.runId _ (Evaluation.computedAt r.results r.computedAt),
      Option.map_eq_some_iff] at hshape
    obtain ⟨m, hresult, rfl⟩ := hshape
    refine ⟨m, (metricUnder_eq_some_iff hnodup).mpr ⟨?_, ?_⟩, rfl⟩
    · rw [compared_metrics]
      exact mem_computeMetrics.mpr ⟨group, hgroup, v, hv, hresult⟩
    · exact metricKey_of_metricResult (length_of_mem_groupOrder hgroup) hresult

/-- Runs with the same results of a component have the same metrics of it. -/
theorem shapeUnder_congr {group : GroupKey} (hg : group.2.length ≤ 1) (name : String)
    (h : (blankOf r.results group.1).Perm (blankOf r'.results group.1)) :
    (r.compared ids.toMetricIds discount).shapeUnder (keyOf ids.toMetricIds group name) =
      (r'.compared ids.toMetricIds discount).shapeUnder (keyOf ids.toMetricIds group name) := by
  have himp : ∀ r r' : DatasetRun K dataset,
      (blankOf r.results group.1).Perm (blankOf r'.results group.1) → ∀ shape,
      (r.compared ids.toMetricIds discount).shapeUnder (keyOf ids.toMetricIds group name) =
        some shape →
      (r'.compared ids.toMetricIds discount).shapeUnder (keyOf ids.toMetricIds group name) =
        some shape := by
    intro r r' h shape hshape
    obtain ⟨found, hfound, v, hv, hresult, hkey⟩ := shapeUnder_eq_some_iff.mp hshape
    obtain ⟨rfl, rfl⟩ := keyOf_inj (length_of_mem_groupOrder hfound) hg hkey
    refine shapeUnder_eq_some_iff.mpr ⟨found, (mem_groupOrder_congr h).mp hfound, v, ?_, hresult,
      rfl⟩
    rwa [← groupValues_congr discount h]
  apply Option.ext
  intro shape
  exact ⟨himp r r' h shape, himp r' r h.symm shape⟩

/-- Two runs are evaluated alike and have the same results on the cases that they share with
a third one. -/
structure AgreeOnCommon (fixed r r' : DatasetRun K dataset) : Prop where
  version : r.run.datasetVersionId = r'.run.datasetVersionId
  mode : r.run.mode = r'.run.mode
  hashes : hashFields r.run = hashFields r'.run
  environment : r.environment = r'.environment
  results : (r.commonResults fixed).Perm (r'.commonResults fixed)

/-- The differences of two comparisons are the same, and so are the verdicts on them. -/
structure SameOutcome (b c b' c' : ComparedRun K) : Prop where
  metricDeltas : ∀ names ids bindingId now,
    (compareRuns b c names ids bindingId now).metricDeltas =
      (compareRuns b' c' names ids bindingId now).metricDeltas
  subgroupDeltas : ∀ names ids bindingId now,
    (compareRuns b c names ids bindingId now).subgroupDeltas =
      (compareRuns b' c' names ids bindingId now).subgroupDeltas
  verdict : ∀ input config,
    (pipeline input b c config).verdict = (pipeline input b' c' config).verdict

variable (ids discount) in
/-- The cases that are not common cannot influence the comparisons and gates of a run. -/
def ExclusionsPowerless (fixed : DatasetRun K dataset) : Prop :=
  ∀ r r' : DatasetRun K dataset, AgreeOnCommon fixed r r' →
    let compared := fun run : DatasetRun K dataset => run.compared ids.toMetricIds discount
    SameOutcome (compared fixed) (compared r) (compared fixed) (compared r') ∧
      SameOutcome (compared r) (compared fixed) (compared r') (compared fixed)

def Covers (fixed : DatasetRun K dataset) : Prop :=
  ∀ case ∈ dataset.rows, (∃ result ∈ fixed.results, result.component = case.component) →
    case.caseId ∈ fixed.caseIds

omit [Field K] [LinearOrder K] in
theorem Covers.blankOf_eq (h : Covers fixed) (r : DatasetRun K dataset)
    (hcomponent : ∃ result ∈ fixed.results, result.component = component) :
    blankOf r.results component =
      (r.commonResults fixed).filter fun result => result.component = component := by
  unfold blankOf commonResults
  rw [List.filter_map, List.filter_filter]
  apply congrArg
  apply List.filter_congr
  intro result hresult
  change decide (result.component = component) = (decide (result.component = component) &&
    decide (result.caseId ∈ fixed.caseIds))
  by_cases heq : result.component = component
  · obtain ⟨case, hcase, hid, hsame⟩ := r.known result hresult
    have hmem := h case (r.cases_mem case hcase) (hsame.trans heq ▸ hcomponent)
    rw [hid] at hmem
    rw [decide_eq_true hmem, Bool.and_true]
  · rw [decide_eq_false heq, Bool.false_and]

omit [Field K] [LinearOrder K] in
theorem Covers.perm (h : Covers fixed) (hagree : AgreeOnCommon fixed r r')
    (hcomponent : ∃ result ∈ fixed.results, result.component = component) :
    (blankOf r.results component).Perm (blankOf r'.results component) := by
  rw [h.blankOf_eq r hcomponent, h.blankOf_eq r' hcomponent]
  exact hagree.results.filter _

variable (discount ids) in
theorem Covers.shapeUnder_eq (h : Covers fixed) (hagree : AgreeOnCommon fixed r r')
    (hkey : key ∈ (fixed.compared ids.toMetricIds discount).keys) :
    (r.compared ids.toMetricIds discount).shapeUnder key =
      (r'.compared ids.toMetricIds discount).shapeUnder key := by
  obtain ⟨shape, hshape⟩ := Option.isSome_iff_exists.mp (mem_keys_iff.mp hkey)
  obtain ⟨group, hgroup, v, _, _, rfl⟩ := shapeUnder_eq_some_iff.mp hshape
  obtain ⟨result, hresult, _, hcomponent⟩ := component_of_mem_groupOrder _ _ hgroup
  exact shapeUnder_congr (length_of_mem_groupOrder hgroup) v.name
    (h.perm hagree ⟨result, hresult, hcomponent.symm⟩)

omit [Field K] [LinearOrder K] in
theorem mem_caseIds_iff {id : String} (hid : id ∈ fixed.caseIds) :
    id ∈ r.caseIds ↔ id ∈ (r.commonResults fixed).map fun result => result.caseId := by
  unfold caseIds commonResults
  rw [List.map_map]
  simp only [List.mem_map, List.mem_filter, decide_eq_true_eq]
  constructor
  · rintro ⟨result, hresult, rfl⟩
    exact ⟨result, ⟨hresult, hid⟩, rfl⟩
  · rintro ⟨result, ⟨hresult, _⟩, rfl⟩
    exact ⟨result, hresult, rfl⟩

omit [Field K] [LinearOrder K] in
theorem AgreeOnCommon.mem_iff (h : AgreeOnCommon fixed r r') {id : String}
    (hid : id ∈ fixed.caseIds) : id ∈ r.caseIds ↔ id ∈ r'.caseIds := by
  rw [mem_caseIds_iff hid, mem_caseIds_iff hid]
  exact (h.results.map _).mem_iff

theorem caseIds_compared (r : DatasetRun K dataset) (ids : MetricIds) :
    (r.compared ids discount).caseIds = r.caseIds := by
  unfold ComparedRun.caseIds compared caseIds
  rw [List.map_map]
  rfl

end DatasetRun

namespace DatasetRun

variable {K : Type} [Field K] [LinearOrder K] {dataset : CaseTable}
  {r r' fixed : DatasetRun K dataset} {ids : PlanIds} {discount : ℕ → K}

variable {b c c' : ComparedRun K} {key : List String} {x : MetricResult K} {case : ScoredCase}

theorem sameOutcome {b' : ComparedRun K} (h : SharedAlike b c b' c')
    (hcommon : commonCases b c = commonCases b' c')
    (hhashes : hashFields b.run = hashFields c.run ↔ hashFields b'.run = hashFields c'.run) :
    SameOutcome b c b' c' where
  metricDeltas names ids bindingId now := by
    unfold compareRuns
    dsimp only
    rw [h.deltas]
  subgroupDeltas names ids bindingId now := by
    unfold compareRuns
    dsimp only
    rw [h.deltas]
  verdict input config := h.verdict hcommon hhashes input config

/-- What the cases of a covered component come to is the same in both comparisons. -/
theorem Covers.powerless (h : Covers fixed) : ExclusionsPowerless discount ids fixed := by
  intro r r' hagree
  have hunder := fun key (hkey : key ∈ _) => h.shapeUnder_eq discount ids hagree hkey
  have hkeys : ∀ key ∈ (fixed.compared ids.toMetricIds discount).keys,
      (key ∈ (r.compared ids.toMetricIds discount).keys ↔
        key ∈ (r'.compared ids.toMetricIds discount).keys) := by
    intro key hkey
    rw [mem_keys_iff, mem_keys_iff, hunder key hkey]
  have henv : (r.compared ids.toMetricIds discount).environment =
      (r'.compared ids.toMetricIds discount).environment := hagree.environment
  have hhash : hashFields (r.compared ids.toMetricIds discount).run =
      hashFields (r'.compared ids.toMetricIds discount).run := hagree.hashes
  dsimp only
  constructor
  · apply sameOutcome
    · exact
        { keys := fun key => and_congr_right (hkeys key)
          baseline := fun _ _ _ => rfl
          candidate := fun key hkey _ => hunder key hkey
          environments := by rw [henv] }
    · apply sorted_congr
      intro id
      simp only [List.mem_filter, decide_eq_true_eq, caseIds_compared]
      exact and_congr_right hagree.mem_iff
    · rw [hhash]
  · apply sameOutcome
    · exact
        { keys := fun key => and_congr_left (hkeys key)
          baseline := fun key _ hkey => hunder key hkey
          candidate := fun _ _ _ => rfl
          environments := by rw [henv] }
    · apply sorted_congr
      intro id
      simp only [List.mem_filter, decide_eq_true_eq, caseIds_compared]
      exact and_congr_left hagree.mem_iff
    · rw [hhash]

omit [Field K] [LinearOrder K] in
theorem metricKey_of_shapeUnder {side : ComparedRun K}
    (h : side.shapeUnder key = some x) : metricKey x = key := by
  obtain ⟨m, hm, rfl⟩ := Option.map_eq_some_iff.mp h
  have hkey : metricKey m = key := by simpa using List.find?_some hm
  exact hkey

theorem mem_comparedDeltas_iff {names : String → String}
    {d : MetricDelta K} : d ∈ comparedDeltas b c names ↔
      ∃ key x y, b.shapeUnder key = some x ∧ c.shapeUnder key = some y ∧
        Comparable b c names (x, y) ∧ metricDelta x y = d := by
  rw [comparedDeltas_eq, pairedMetrics_shapes]
  simp only [List.mem_map, List.mem_filter, List.mem_filterMap, decide_eq_true_eq, Prod.exists]
  constructor
  · rintro ⟨x, y, ⟨⟨key, _, hpair⟩, hcomparable⟩, rfl⟩
    simp only [Option.bind_eq_bind, Option.bind_eq_some_iff, Option.pure_def, Option.some.injEq,
      Prod.mk.injEq] at hpair
    obtain ⟨_, hx, _, hy, rfl, rfl⟩ := hpair
    exact ⟨key, _, _, hx, hy, hcomparable, rfl⟩
  · rintro ⟨key, x, y, hx, hy, hcomparable, rfl⟩
    refine ⟨x, y, ⟨⟨key, ?_, ?_⟩, hcomparable⟩, rfl⟩
    · simp [sorted, mem_keys_iff, hx, hy]
    · rw [hx, hy]
      rfl

/-- Comparisons with the same differences have the same denominator under each key. -/
theorem SameOutcome.denominator (h : SameOutcome b c b c')
    (henv : b.environment.environmentHash = c.environment.environmentHash)
    {y y' : MetricResult K} (hx : b.shapeUnder key = some x) (hy : c.shapeUnder key = some y)
    (hy' : c'.shapeUnder key = some y') : y.denominator = y'.denominator := by
  have hmem : metricDelta x y ∈ comparedDeltas b c id :=
    mem_comparedDeltas_iff.mpr ⟨key, x, y, hx, hy, fun _ => henv, rfl⟩
  have hmem' : metricDelta x y ∈ comparedDeltas b c' id := by
    let ids : GateIds := ⟨fun _ _ _ => "", fun _ _ => ""⟩
    have hoverall := h.metricDeltas id ids "" 0
    have hsubgroups := h.subgroupDeltas id ids "" 0
    unfold compareRuns at hoverall hsubgroups
    dsimp only at hoverall hsubgroups
    by_cases hsub : (metricDelta x y).subgroup = []
    · have hfilter : metricDelta x y ∈ (comparedDeltas b c id).filter fun d => d.subgroup = [] :=
        List.mem_filter.mpr ⟨hmem, decide_eq_true hsub⟩
      rw [hoverall] at hfilter
      exact (List.mem_filter.mp hfilter).1
    · have hfilter : metricDelta x y ∈ (comparedDeltas b c id).filter fun d => d.subgroup ≠ [] :=
        List.mem_filter.mpr ⟨hmem, decide_eq_true hsub⟩
      rw [hsubgroups] at hfilter
      exact (List.mem_filter.mp hfilter).1
  obtain ⟨key', x', z, hx', hz, _, heq⟩ := mem_comparedDeltas_iff.mp hmem'
  have hkey : key' = key := by
    rw [← metricKey_of_shapeUnder hx, ← metricKey_of_shapeUnder hx']
    unfold metricKey
    rw [show x'.metricDefinitionId = x.metricDefinitionId from
      congrArg MetricDelta.metricDefinitionId heq, show x'.subgroup = x.subgroup from
      congrArg MetricDelta.subgroup heq]
  subst hkey
  obtain rfl : z = y' := Option.some.inj (hz.symm.trans hy')
  exact (congrArg MetricDelta.denominator heq).symm

/-- A metric whose denominator counts the evaluable rows. -/
def countedName : Component → String
  | .index | .answer => "case_pass_rate"
  | .agent => "task_success"
  | .retrieval => "empty_rate"
  | .alignment => "coverage"
  | .observability => "link_validity"

theorem countedName_mem (component : Component) :
    countedName component ∈ metricNames component := by
  cases component <;> decide

variable (discount) in
theorem exists_counted {rows : List (Row K)} (h : evaluable rows = rows) (component : Component) :
    ∃ v ∈ groupValues rows discount component, v.name = countedName component ∧
      v.denominator = rows.length := by
  cases component with
  | index => exact ⟨passRate rows "case_pass_rate", by simp [groupValues, indexValues], rfl,
      congrArg List.length h⟩
  | agent => exact ⟨passRate rows "task_success", by simp [groupValues, agentValues], rfl,
      congrArg List.length h⟩
  | answer => exact ⟨passRate rows "case_pass_rate", by simp [groupValues, answerValues], rfl,
      congrArg List.length h⟩
  | retrieval =>
    refine ⟨_, List.mem_of_getElem? (i := 6) rfl, rfl, ?_⟩
    exact congrArg List.length h
  | alignment =>
    refine ⟨_, List.mem_of_getElem? (i := 4) rfl, rfl, ?_⟩
    exact congrArg List.length h
  | observability => exact ⟨_, List.mem_of_getElem? (i := 3) rfl, rfl, rfl⟩

variable (ids) in
theorem exists_shape (r : DatasetRun K dataset) {group : GroupKey}
    (hne : groupRows dataset.rows r.results group ≠ []) {v : MetricValue K}
    (hv : v ∈ groupValues (groupRows dataset.rows r.results group) discount group.1)
    (hname : v.name ∈ metricNames group.1) :
    ∃ x, (r.compared ids.toMetricIds discount).shapeUnder (keyOf ids.toMetricIds group v.name) =
        some x ∧ x.metricDefinitionId = ids.metricDefinitionId group.1 v.name ∧
      x.subgroup = group.2 ∧ x.value = v.value ∧ x.denominator = v.denominator ∧
      x.sampleCount = v.denominator ∧ x.complete = v.complete := by
  obtain ⟨m, hm⟩ : ∃ m, metricResult ids.toMetricIds "" group 0 v = some m := by
    unfold metricResult
    rw [if_pos hname]
    exact ⟨_, rfl⟩
  refine ⟨m.shape, shapeUnder_eq_some_iff.mpr ⟨group, mem_groupOrder_iff_rows.mpr hne, v, hv, ?_,
    rfl⟩, ?_⟩
  · rw [hm]
    rfl
  · unfold metricResult at hm
    split_ifs at hm
    cases hm
    exact ⟨rfl, rfl, rfl, rfl, rfl, rfl⟩

def plainResult (outcome : EvaluationOutcome) (case : ScoredCase) : ScoredResult K where
  resultId := ""
  evaluationRunId := ""
  caseId := case.caseId
  component := case.component
  executionStatus := .completed
  evaluationOutcome := some outcome
  complete := true
  incompleteReasonCodes := []
  executionErrorCode := none
  qualityFailureCodes := []
  traceId := none
  outputArtifactRefIds := []
  finishedAt := none
  outcome := none
  latencyMs := none

/-- A run like the given one on other cases, of which those after the first fail. -/
def plainRun (fixed : DatasetRun K dataset) (case : ScoredCase) (cases : List ScoredCase)
    (hmem : ∀ c ∈ case :: cases, c ∈ dataset.rows)
    (hnodup : ((case :: cases).map fun c => c.caseId).Nodup) : DatasetRun K dataset where
  run := fixed.run
  environment := fixed.environment
  cases := case :: cases
  results := plainResult .passed case :: cases.map (plainResult .failed)
  computedAt := 0
  cases_mem := hmem
  nodup := by simpa [plainResult, Function.comp_def] using hnodup
  known := by
    intro result hresult
    rcases List.mem_cons.mp hresult with rfl | hresult
    · exact ⟨case, List.mem_cons_self, rfl, rfl⟩
    · obtain ⟨c, hc, rfl⟩ := List.mem_map.mp hresult
      exact ⟨c, List.mem_cons_of_mem _ hc, rfl, rfl⟩

omit [Field K] [LinearOrder K] in
theorem rowsOf_plain (h : case ∈ dataset.rows) (outcome : EvaluationOutcome) :
    rowsOf dataset.rows (case.component, []) (plainResult (K := K) outcome case) =
      [(case, plainResult outcome case)] := by
  have hfind : (dataset.rows.find? fun c => c.caseId =
      (plainResult (K := K) outcome case).caseId) = some case := Table.find?_of_mem h
  unfold rowsOf
  rw [hfind]
  simp [groupKeys, plainResult]

omit [Field K] [LinearOrder K] in
theorem groupRows_plain {cases : List ScoredCase} (hmem : ∀ c ∈ case :: cases, c ∈ dataset.rows)
    (hnodup : ((case :: cases).map fun c => c.caseId).Nodup)
    (hsame : ∀ c ∈ cases, c.component = case.component) (fixed : DatasetRun K dataset) :
    groupRows dataset.rows (fixed.plainRun case cases hmem hnodup).results (case.component, []) =
      (case, plainResult .passed case) :: cases.map fun c => (c, plainResult .failed c) := by
  rw [groupRows_eq, plainRun, List.flatMap_cons, rowsOf_plain (hmem case List.mem_cons_self),
    List.flatMap_map, List.singleton_append, List.cons.injEq]
  refine ⟨rfl, ?_⟩
  rw [List.map_eq_flatMap]
  apply List.flatMap_congr
  intro c hc
  rw [← hsame c hc]
  exact rowsOf_plain (hmem c (List.mem_cons_of_mem _ hc)) .failed

omit [Field K] [LinearOrder K] in
theorem evaluable_plain (case : ScoredCase) (cases : List ScoredCase) :
    evaluable ((case, plainResult (K := K) .passed case) ::
      cases.map fun c => (c, plainResult .failed c)) =
      (case, plainResult .passed case) :: cases.map fun c => (c, plainResult .failed c) := by
  rw [evaluable, List.filter_eq_self, List.forall_mem_cons, List.forall_mem_map]
  exact ⟨rfl, fun _ _ => rfl⟩

variable (ids discount) in
theorem exists_counted_plain (fixed : DatasetRun K dataset) (case : ScoredCase)
    (cases : List ScoredCase)
    (hmem : ∀ c ∈ case :: cases, c ∈ dataset.rows)
    (hnodup : ((case :: cases).map fun c => c.caseId).Nodup)
    (hsame : ∀ c ∈ cases, c.component = case.component) :
    ∃ x, ((fixed.plainRun case cases hmem hnodup).compared ids.toMetricIds discount).shapeUnder
        (keyOf ids.toMetricIds (case.component, []) (countedName case.component)) = some x ∧
      x.denominator = cases.length + 1 := by
  have hrows := groupRows_plain hmem hnodup hsame fixed
  obtain ⟨v, hv, hname, hdenominator⟩ :=
    exists_counted discount (evaluable_plain (K := K) case cases) case.component
  rw [← hrows] at hv
  obtain ⟨x, hx, _, _, _, hx', _⟩ := exists_shape ids
    (fixed.plainRun case cases hmem hnodup) (by rw [hrows]; exact List.cons_ne_nil _ _) hv
    (hname ▸ countedName_mem case.component)
  rw [hname] at hx
  refine ⟨x, hx, ?_⟩
  rw [hx', hdenominator, List.length_cons, List.length_map]

omit [Field K] [LinearOrder K] in
/-- Plain runs agree on the cases that only the first of their cases shares with a run. -/
theorem agree_plain (fixed : DatasetRun K dataset) (case : ScoredCase) (cases : List ScoredCase)
    (hmem : ∀ c ∈ case :: cases, c ∈ dataset.rows)
    (hnodup : ((case :: cases).map fun c => c.caseId).Nodup)
    (hout : ∀ c ∈ cases, c.caseId ∉ fixed.caseIds) :
    AgreeOnCommon fixed (fixed.plainRun case cases hmem hnodup)
      (fixed.plainRun case [] (fun c hc => hmem c (List.mem_cons.mpr (.inl (by simpa using hc))))
        (by simp)) where
  version := rfl
  mode := rfl
  hashes := rfl
  environment := rfl
  results := by
    have hfilter : (cases.map (plainResult (K := K) .failed)).filter
        (fun result => result.caseId ∈ fixed.caseIds) = [] := by
      rw [List.filter_eq_nil_iff, List.forall_mem_map]
      intro c hc
      exact fun hin => hout c hc (of_decide_eq_true hin)
    unfold commonResults plainRun
    rw [List.filter_cons, List.filter_cons, hfilter]
    rfl

/-- A case that a run leaves out changes a metric of the runs that have it. -/
theorem covers_of_powerless (h : ExclusionsPowerless discount ids fixed) : Covers fixed := by
  rintro excluded hexcluded ⟨result, hresult, hcomponent⟩
  by_contra hnot
  obtain ⟨case, hcase, hid, hsame⟩ := fixed.known result hresult
  have hcase := fixed.cases_mem case hcase
  have hin : case.caseId ∈ fixed.caseIds := List.mem_map.mpr ⟨result, hresult, hid.symm⟩
  have hne : case.caseId ≠ excluded.caseId := fun heq => hnot (heq ▸ hin)
  have hmem : ∀ c ∈ [case, excluded], c ∈ dataset.rows := by
    simp [hcase, hexcluded]
  have hnodup : ([case, excluded].map fun c => c.caseId).Nodup := by
    simp [hne]
  have hshared : excluded.component = case.component := (hsame.trans hcomponent).symm
  obtain ⟨hcandidate, _⟩ := h _ _ (agree_plain fixed _ _ hmem hnodup (by simpa using hnot))
  obtain ⟨y, hy, hcount⟩ := exists_counted_plain ids discount fixed _ _ hmem
    hnodup (by simpa using hshared)
  obtain ⟨y', hy', hcount'⟩ := exists_counted_plain ids discount fixed case []
    (by simpa using hcase) (by simp) (by simp)
  -- the run itself has the metric, since it has the component
  obtain ⟨x, hx⟩ : ∃ x, (fixed.compared ids.toMetricIds discount).shapeUnder
      (keyOf ids.toMetricIds (case.component, []) (countedName case.component)) = some x := by
    have hgroup : (case.component, []) ∈ groupOrder dataset.rows fixed.results := by
      rw [hsame]
      exact mem_groupOrder_overall _ _ hresult ⟨case, hcase, hid⟩
    have hnames := groupValues_names (groupRows dataset.rows fixed.results (case.component, []))
      discount case.component
    obtain ⟨v, hv, hname⟩ := List.mem_map.mp (hnames.mem_iff.mpr
      (show countedName case.component ∈ computedNames case.component by
        cases case.component <;> decide))
    obtain ⟨x, hx, _⟩ := exists_shape ids fixed (mem_groupOrder_iff_rows.mp hgroup) hv
      (hname ▸ countedName_mem case.component)
    exact ⟨x, hname ▸ hx⟩
  have heq := hcandidate.denominator rfl hx hy hy'
  rw [hcount, hcount'] at heq
  cases heq

end DatasetRun

/-- Excluded cases cannot influence the comparisons and gates of a run exactly when the run
has a result for every case of the dataset in each component that it covers. -/
theorem powerless_iff_covers {K : Type} [Field K] [LinearOrder K] (ids : PlanIds)
    (discount : ℕ → K) (dataset : CaseTable) (fixed : DatasetRun K dataset) :
    fixed.ExclusionsPowerless discount ids ↔ fixed.Covers :=
  ⟨DatasetRun.covers_of_powerless, DatasetRun.Covers.powerless⟩

def indexCase (id : String) : ScoredCase where
  caseId := id
  stableCaseFamilyId := id
  component := .index
  split := "test"
  source := "human_authored"
  repoId := "repo"
  tags := []
  gold := .observability

def twoCases : CaseTable := ⟨[indexCase "easy", indexCase "hard"], by decide⟩

def emptyRun : DatasetRun ℚ twoCases where
  run := probeRecord
  environment := ⟨"", ""⟩
  cases := []
  results := []
  computedAt := 0
  cases_mem := by simp
  nodup := by simp
  known := by simp

def easyRun : DatasetRun ℚ twoCases :=
  emptyRun.plainRun (indexCase "easy") [] (by simp [twoCases]) (by simp)

def bothRun : DatasetRun ℚ twoCases :=
  emptyRun.plainRun (indexCase "easy") [indexCase "hard"] (by simp [twoCases])
    (by simp [indexCase])

def allPass (ids : MetricIds) : GateRule ℚ :=
  { latencyRule with
    ruleId := "all_pass", metricDefinitionId := ids.metricDefinitionId .index "case_pass_rate"
    comparison := .minValue, threshold := 1 }

variable {key : List String}

/-- A rule on the whole runs is about the one difference of its metric. -/
theorem row_of_shapes {K : Type} [Field K] [LinearOrder K] {b c : ComparedRun K}
    {x y : MetricResult K} (hx : b.shapeUnder key = some x)
    (hy : c.shapeUnder key = some y) (hsub : x.subgroup = [])
    (henv : b.environment.environmentHash = c.environment.environmentHash) (rule : GateRule K)
    (hid : x.metricDefinitionId = rule.metricDefinitionId) (hfilter : rule.subgroupFilter = [])
    (input : PipelineInput) : rule.row (comparedRows input b c) = some (metricDelta x y) := by
  have hmem : metricDelta x y ∈ comparedDeltas b c input.metricNames :=
    DatasetRun.mem_comparedDeltas_iff.mpr ⟨key, x, y, hx, hy, fun _ => henv, rfl⟩
  have hselects : ∀ d : MetricDelta K, rule.Selects d ↔
      d.metricDefinitionId = rule.metricDefinitionId := by
    intro d
    simp [GateRule.Selects, hfilter]
  have hoverall : ((comparedDeltas b c input.metricNames).filter fun d => d.subgroup = []).find?
      (fun d => rule.Selects d) = some (metricDelta x y) := by
    obtain ⟨d, hd⟩ : ∃ d, ((comparedDeltas b c input.metricNames).filter fun d =>
        d.subgroup = []).find? (fun d => rule.Selects d) = some d := by
      rw [← Option.isSome_iff_exists, List.find?_isSome]
      exact ⟨metricDelta x y, List.mem_filter.mpr ⟨hmem, decide_eq_true hsub⟩,
        decide_eq_true ((hselects _).mpr hid)⟩
    rw [hd]
    obtain ⟨hin, hnil⟩ := List.mem_filter.mp (List.mem_of_find?_eq_some hd)
    obtain ⟨key', x', y', hx', hy', _, rfl⟩ := DatasetRun.mem_comparedDeltas_iff.mp hin
    have hid' : x'.metricDefinitionId = x.metricDefinitionId :=
      ((hselects _).mp (by simpa using List.find?_some hd)).trans hid.symm
    have hsub' : x'.subgroup = x.subgroup :=
      (show x'.subgroup = [] from of_decide_eq_true hnil).trans hsub.symm
    have hkey : key' = key := by
      rw [← DatasetRun.metricKey_of_shapeUnder hx, ← DatasetRun.metricKey_of_shapeUnder hx']
      unfold metricKey
      rw [hid', hsub']
    subst hkey
    rw [Option.some.inj (hx'.symm.trans hx), Option.some.inj (hy'.symm.trans hy)]
  unfold GateRule.row comparedRows
  rw [List.find?_append, hoverall]
  rfl

theorem exists_passRate {dataset : CaseTable} (ids : PlanIds) (discount : ℕ → ℚ)
    (fixed : DatasetRun ℚ dataset) (case : ScoredCase) (cases : List ScoredCase)
    (hmem : ∀ c ∈ case :: cases, c ∈ dataset.rows)
    (hnodup : ((case :: cases).map fun c => c.caseId).Nodup) (hcase : case.component = .index)
    (hsame : ∀ c ∈ cases, c.component = case.component) :
    ∃ x, ((fixed.plainRun case cases hmem hnodup).compared ids.toMetricIds discount).shapeUnder
        (keyOf ids.toMetricIds (.index, []) "case_pass_rate") = some x ∧
      x.metricDefinitionId = ids.metricDefinitionId .index "case_pass_rate" ∧ x.subgroup = [] ∧
      x.value = some (1 / ((cases.length : ℚ) + 1)) ∧ x.sampleCount = cases.length + 1 ∧
      x.complete = true := by
  have hrows := DatasetRun.groupRows_plain hmem hnodup hsame fixed
  rw [hcase] at hrows
  have heval := DatasetRun.evaluable_plain (K := ℚ) case cases
  obtain ⟨x, hx, hid, hsub, hvalue, _, hsamples, hcomplete⟩ := DatasetRun.exists_shape ids
    (fixed.plainRun case cases hmem hnodup) (by rw [hrows]; exact List.cons_ne_nil _ _)
    (show passRate _ "case_pass_rate" ∈ groupValues _ discount (Component.index, []).1 from
      List.mem_cons_self) (show "case_pass_rate" ∈ metricNames .index by decide)
  refine ⟨x, hx, hid, hsub, ?_, ?_, ?_⟩
  · have hfailed : (cases.map fun c => (c, DatasetRun.plainResult (K := ℚ) .failed c)).countP
        (fun row => row.2.evaluationOutcome = some .passed) = 0 := by
      rw [List.countP_map, List.countP_eq_zero]
      intro c _
      simp [DatasetRun.plainResult]
    have hpassed : (DatasetRun.plainResult (K := ℚ) .passed case).evaluationOutcome =
      some .passed := rfl
    rw [hvalue, hrows]
    unfold passRate ratioValue ratio
    rw [heval, List.countP_cons, hfailed]
    simp [hpassed]
  · rw [hsamples, hrows]
    unfold passRate ratioValue
    rw [heval, List.length_cons, List.length_map]
  · rw [hcomplete, hrows]
    unfold passRate ratioValue groupComplete
    rw [heval]
    simp [DatasetRun.plainResult]

theorem compatibility_of_shapes {K : Type} [Field K] [LinearOrder K] {b c : ComparedRun K}
    {x y : MetricResult K} (hx : b.shapeUnder key = some x)
    (hy : c.shapeUnder key = some y)
    (henv : b.environment.environmentHash = c.environment.environmentHash)
    (hhash : hashFields b.run = hashFields c.run) (hcommon : commonCases b c ≠ [])
    (names : String → String) : compatibility b c names ≠ .incompatible := by
  have hmem : metricDelta x y ∈ comparedDeltas b c names :=
    DatasetRun.mem_comparedDeltas_iff.mpr ⟨key, x, y, hx, hy, fun _ => henv, rfl⟩
  rw [Ne, incompatible_iff, hash_reason_iff]
  push Not
  refine ⟨hcommon, ?_, hhash⟩
  intro hnil
  have hdeltas : comparedDeltas b c names = [] := by
    unfold comparedDeltas
    rw [hnil]
    rfl
  rw [hdeltas] at hmem
  cases hmem

/-- The rule that every case passes, on a run with the easy case and failing ones. -/
theorem verdict_allPass (ids : PlanIds) (discount : ℕ → ℚ) (cases : List ScoredCase)
    (hmem : ∀ c ∈ indexCase "easy" :: cases, c ∈ twoCases.rows)
    (hnodup : ((indexCase "easy" :: cases).map fun c => c.caseId).Nodup) :
    (pipeline probeInput (easyRun.compared ids.toMetricIds discount)
      ((emptyRun.plainRun (indexCase "easy") cases hmem hnodup).compared ids.toMetricIds discount)
      (probeConfig (allPass ids.toMetricIds))).verdict =
      if cases = [] then .passed else .blocked := by
  have hindex : ∀ c ∈ twoCases.rows, c.component = .index := by decide
  obtain ⟨x, hx, hid, hsub, _, hsamples, hcomplete⟩ := exists_passRate ids discount emptyRun
    (indexCase "easy") [] (by simp [twoCases]) (by simp) rfl (by simp)
  obtain ⟨y, hy, _, _, hvalue, hsamples', hcomplete'⟩ := exists_passRate ids discount emptyRun
    _ _ hmem hnodup rfl fun c hc => hindex c (hmem c (List.mem_cons_of_mem _ hc))
  change (easyRun.compared ids.toMetricIds discount).shapeUnder _ = some x at hx
  have hcommon : commonCases (easyRun.compared ids.toMetricIds discount)
      ((emptyRun.plainRun (indexCase "easy") cases hmem hnodup).compared ids.toMetricIds
        discount) ≠ [] := by
    apply List.ne_nil_of_mem (a := "easy")
    simp [commonCases, sortedTexts, DatasetRun.caseIds_compared, DatasetRun.caseIds, easyRun,
      DatasetRun.plainRun, DatasetRun.plainResult, indexCase]
  have hrow := row_of_shapes hx hy hsub rfl (allPass ids.toMetricIds) hid rfl probeInput
  have hcompatible := compatibility_of_shapes hx hy rfl rfl hcommon probeInput.metricNames
  have hjudges : (allPass ids.toMetricIds).Judges (metricDelta x y) := by
    simp [GateRule.Judges, allPass, latencyRule, metricDelta, hsamples, hsamples', hcomplete,
      hcomplete']
  have hpasses : (allPass ids.toMetricIds).Passes (metricDelta x y) ↔ cases = [] := by
    have hpos : (0 : ℚ) < (cases.length : ℚ) + 1 := by positivity
    simp only [GateRule.Passes, allPass, metricDelta, hvalue, Option.mem_def, Option.some.injEq,
      exists_eq_left', le_div_iff₀ hpos]
    rw [← List.length_eq_zero_iff, ← Nat.cast_eq_zero (R := ℚ)]
    constructor
    · intro hle
      exact le_antisymm (by linarith) (Nat.cast_nonneg _)
    · intro hzero
      rw [hzero]
      norm_num
  have hresult : evaluateRule (allPass ids.toMetricIds) (comparedRows probeInput
      (easyRun.compared ids.toMetricIds discount)
      ((emptyRun.plainRun (indexCase "easy") cases hmem hnodup).compared ids.toMetricIds
        discount)) false = judgedResult (allPass ids.toMetricIds) (metricDelta x y) := by
    unfold evaluateRule
    rw [hrow]
    exact if_pos hjudges
  have hverdict : (judgedResult (allPass ids.toMetricIds) (metricDelta x y)).verdict =
      if cases = [] then .passed else .blocked := by
    unfold judgedResult
    dsimp only
    rw [if_congr hpasses rfl rfl]
    rfl
  rw [pipeline_verdict, if_neg hcompatible]
  unfold gateVerdict ruleResults probeConfig
  simp only [List.map_nil, List.nil_append, List.map_cons, List.append_nil, hresult,
    List.mem_singleton, exists_eq_left, hverdict]
  by_cases hcases : cases = [] <;> simp [hcases]

/-- A candidate that fails a hard case is blocked, and the candidate that leaves the case out
is passed, with the same results on the common cases. -/
theorem dropping_a_hard_case_passes : Nonempty PlanIds ∧ ∀ ids : PlanIds,
    let compared := fun run : DatasetRun ℚ twoCases => run.compared ids.toMetricIds fun _ => 1
    let config := probeConfig (allPass ids.toMetricIds)
    easyRun.AgreeOnCommon bothRun easyRun ∧
      (pipeline probeInput (compared easyRun) (compared bothRun) config).verdict = .blocked ∧
      (pipeline probeInput (compared easyRun) (compared easyRun) config).verdict = .passed ∧
      ¬ easyRun.ExclusionsPowerless (fun _ => 1) ids := by
  refine ⟨exists_planIds, fun ids => ?_⟩
  have hagree : easyRun.AgreeOnCommon bothRun easyRun := by
    have hplain := DatasetRun.agree_plain easyRun (indexCase "easy")
      [indexCase "hard"] (by simp [twoCases]) (by simp [indexCase]) (by
        simp [DatasetRun.caseIds, easyRun, DatasetRun.plainRun, DatasetRun.plainResult, indexCase])
    exact ⟨rfl, rfl, rfl, rfl, hplain.results⟩
  have hblocked := verdict_allPass ids (fun _ => 1) [indexCase "hard"]
    (by simp [twoCases]) (by simp [indexCase])
  have hpassed := verdict_allPass ids (fun _ => 1) [] (by simp [twoCases]) (by simp)
  rw [if_neg (List.cons_ne_nil _ _)] at hblocked
  rw [if_pos rfl] at hpassed
  refine ⟨hagree, hblocked, hpassed, fun h => ?_⟩
  have hverdict := (h bothRun easyRun hagree).1.verdict probeInput
    (probeConfig (allPass ids.toMetricIds))
  exact absurd (hblocked.symm.trans (hverdict.trans hpassed)) (by decide)

end CodeResearch.Evaluation
