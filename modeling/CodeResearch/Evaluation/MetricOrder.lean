import CodeResearch.Evaluation.MetricRows

/-!
# What the metrics depend on

The values of a group depend neither on the order of its rows nor on the ids, traces and
times of the results in them.
-/
namespace CodeResearch.Evaluation

open ControlPlane (Timestamp)

variable {K : Type} [Field K]

section Order

variable {rows rows' : List (Row K)} {values values' : List K}

omit [Field K] in
theorem evaluable_perm (h : rows.Perm rows') : (evaluable rows).Perm (evaluable rows') :=
  h.filter _

omit [Field K] in
theorem groupComplete_perm (h : rows.Perm rows') : groupComplete rows = groupComplete rows' := by
  unfold groupComplete
  rw [(evaluable_perm h).length_eq, h.length_eq]
  congr 2
  exact propext (forall_congr' fun row => by rw [h.mem_iff])

omit [Field K] in
theorem groupReasons_perm (h : rows.Perm rows') : groupReasons rows = groupReasons rows' := by
  unfold groupReasons
  rw [groupComplete_perm h]

theorem mean_perm (h : values.Perm values') : mean values = mean values' := by
  unfold mean
  rw [h.sum_eq, h.length_eq]
  have hnil : values = [] ↔ values' = [] := by rw [← List.perm_nil, ← List.perm_nil, h.congr_left]
  simp only [hnil]

theorem meanValue_perm (h : rows.Perm rows') (name : String) (hv : values.Perm values') :
    meanValue rows name values = meanValue rows' name values' := by
  unfold meanValue
  rw [mean_perm hv, hv.sum_eq, hv.length_eq, groupComplete_perm h, groupReasons_perm h]

theorem ratioValue_perm (h : rows.Perm rows') (name : String) (numerator denominator : ℕ) :
    ratioValue rows name numerator denominator = ratioValue rows' name numerator denominator := by
  unfold ratioValue
  rw [groupComplete_perm h, groupReasons_perm h]

theorem countValue_perm (h : rows.Perm rows') (name : String) (count : ℕ) :
    countValue rows name count = countValue rows' name count := by
  unfold countValue
  rw [groupComplete_perm h, groupReasons_perm h, h.length_eq]

omit [Field K] in
theorem calibrationValue_perm (h : rows.Perm rows') (name : String) {value value' : Option K}
    {labels labels' : ℕ} (hv : value = value') (hl : labels = labels') :
    calibrationValue rows name value labels = calibrationValue rows' name value' labels' := by
  unfold calibrationValue
  rw [hv, hl, groupComplete_perm h, groupReasons_perm h]

theorem passRate_perm (h : rows.Perm rows') (name : String) :
    passRate rows name = passRate rows' name := by
  unfold passRate
  rw [(evaluable_perm h).countP_eq, (evaluable_perm h).length_eq]
  exact ratioValue_perm h _ _ _

theorem ece_perm [LinearOrder K] {predictions predictions' : List (K × Bool)}
    (h : predictions.Perm predictions') (bins : ℕ) :
    ece predictions bins = ece predictions' bins := by
  have hnil : predictions = [] ↔ predictions' = [] := by
    rw [← List.perm_nil, ← List.perm_nil, h.congr_left]
  unfold ece
  rw [h.length_eq]
  split_ifs with hp hp' hp'
  · rfl
  · exact absurd (hnil.mp hp) hp'
  · exact absurd (hnil.mpr hp') hp
  · refine congrArg (fun l : List K => some l.sum) (List.map_congr_left fun i _ => ?_)
    dsimp only
    have hmembers := h.filter fun p : K × Bool => (i : K) / bins ≤ p.1 ∧
      if i = bins - 1 then p.1 ≤ ((i : K) + 1) / bins else p.1 < ((i : K) + 1) / bins
    rw [hmembers.length_eq, hmembers.countP_eq, (hmembers.map Prod.fst).sum_eq]
    refine if_congr ?_ rfl rfl
    rw [← List.length_eq_zero_iff, ← List.length_eq_zero_iff, hmembers.length_eq]

theorem groupValues_perm [LinearOrder K] (h : rows.Perm rows') (discount : ℕ → K)
    (component : Component) :
    groupValues rows discount component = groupValues rows' discount component := by
  have he := evaluable_perm h
  cases component with
  | index =>
    unfold groupValues indexValues
    dsimp only
    rw [passRate_perm h]
    congr 1
    repeat' first
      | rfl
      | exact meanValue_perm h _ ((he.filterMap _).map _)
      | apply congrArg₂ List.cons
  | agent =>
    unfold groupValues agentValues
    dsimp only
    rw [passRate_perm h, h.countP_eq, he.length_eq]
    simp only [(he.filterMap _).countP_eq, countValue_perm h, ratioValue_perm h]
  | answer =>
    unfold groupValues answerValues
    dsimp only
    rw [passRate_perm h]
    simp only [((he.filterMap _).map _).sum_eq, ratioValue_perm h]
    congr 1
    repeat' first
      | rfl
      | exact meanValue_perm h _ ((he.filterMap _).map _)
      | apply congrArg₂ List.cons
  | retrieval =>
    unfold groupValues retrievalValues
    dsimp only
    simp only [(he.filterMap _).countP_eq, he.length_eq, ratioValue_perm h]
    repeat' first
      | rfl
      | exact meanValue_perm h _ ((he.filterMap _).map _)
      | exact meanValue_perm h _ ((he.filterMap _).filterMap _)
      | apply congrArg₂ List.cons
  | alignment =>
    unfold groupValues alignmentValues
    dsimp only
    simp only [((he.filterMap _).filter _).countP_eq, ((he.filterMap _).filter _).length_eq,
      he.length_eq, ratioValue_perm h]
    repeat' first
      | rfl
      | exact meanValue_perm h _ ((he.filterMap _).map _)
      | exact calibrationValue_perm h _ (mean_perm (((he.filterMap _).flatMap_right _).map _))
          ((he.filterMap _).flatMap_right _).length_eq
      | exact calibrationValue_perm h _ (ece_perm ((he.filterMap _).flatMap_right _) _)
          ((he.filterMap _).flatMap_right _).length_eq
      | apply congrArg₂ List.cons
  | observability =>
    unfold groupValues observabilityValues
    dsimp only
    simp only [(he.filterMap _).countP_eq, (he.filterMap _).length_eq, h.length_eq, h.countP_eq,
      ratioValue_perm h, countValue_perm h]
    repeat' first
      | rfl
      | exact meanValue_perm h _ ((he.filterMap _).map _)
      | apply congrArg₂ List.cons

end Order

/-- A result without the fields that no metric reads. -/
def ScoredResult.blank {K : Type} (result : ScoredResult K) : ScoredResult K :=
  { result with
    resultId := ""
    evaluationRunId := ""
    incompleteReasonCodes := []
    executionErrorCode := none
    traceId := none
    outputArtifactRefIds := []
    finishedAt := none }

section Blank

variable (rows : List (Row K))

def blankRows {K : Type} (rows : List (Row K)) : List (Row K) :=
  rows.map fun row => (row.1, row.2.blank)

omit [Field K] in
theorem evaluable_blank : evaluable (blankRows rows) = blankRows (evaluable rows) :=
  List.filter_map

omit [Field K] in
theorem length_blank : (blankRows rows).length = rows.length := List.length_map _

omit [Field K] in
theorem groupComplete_blank : groupComplete (blankRows rows) = groupComplete rows := by
  unfold groupComplete
  rw [evaluable_blank, length_blank, length_blank]
  apply decide_eq_decide.mpr
  rw [blankRows, List.forall_mem_map]
  rfl

omit [Field K] in
theorem groupReasons_blank : groupReasons (blankRows rows) = groupReasons rows := by
  unfold groupReasons
  rw [groupComplete_blank]

theorem meanValue_blank (name : String) (values : List K) :
    meanValue (blankRows rows) name values = meanValue rows name values := by
  unfold meanValue
  rw [groupComplete_blank, groupReasons_blank]

theorem ratioValue_blank (name : String) (numerator denominator : ℕ) :
    ratioValue (blankRows rows) name numerator denominator =
      ratioValue rows name numerator denominator := by
  unfold ratioValue
  rw [groupComplete_blank, groupReasons_blank]

theorem countValue_blank (name : String) (count : ℕ) :
    countValue (blankRows rows) name count = countValue rows name count := by
  unfold countValue
  rw [groupComplete_blank, groupReasons_blank, length_blank]

omit [Field K] in
theorem calibrationValue_blank (name : String) (value : Option K) (labels : ℕ) :
    calibrationValue (blankRows rows) name value labels =
      calibrationValue rows name value labels := by
  unfold calibrationValue
  rw [groupComplete_blank, groupReasons_blank]

theorem passRate_blank (name : String) :
    passRate (blankRows rows) name = passRate rows name := by
  unfold passRate
  rw [evaluable_blank, ratioValue_blank, length_blank, blankRows, List.countP_map]
  rfl

/-- The values of a group do not depend on what `blank` takes from its results. -/
theorem groupValues_blank [LinearOrder K] (discount : ℕ → K) (component : Component) :
    groupValues (blankRows rows) discount component = groupValues rows discount component := by
  cases component with
  | index =>
    unfold groupValues indexValues
    simp only [evaluable_blank, passRate_blank, meanValue_blank]
    rw [blankRows, List.filterMap_map]
    rfl
  | agent =>
    unfold groupValues agentValues
    simp only [evaluable_blank, passRate_blank, countValue_blank, ratioValue_blank, length_blank]
    rw [blankRows, blankRows, List.filterMap_map, List.countP_map]
    rfl
  | answer =>
    unfold groupValues answerValues
    simp only [evaluable_blank, passRate_blank, meanValue_blank, ratioValue_blank]
    rw [blankRows, List.filterMap_map]
    rfl
  | retrieval =>
    unfold groupValues retrievalValues
    simp only [evaluable_blank, meanValue_blank, ratioValue_blank, length_blank]
    rw [blankRows, List.filterMap_map]
    rfl
  | alignment =>
    unfold groupValues alignmentValues
    simp only [evaluable_blank, meanValue_blank, ratioValue_blank, calibrationValue_blank,
      length_blank]
    rw [blankRows, List.filterMap_map]
    rfl
  | observability =>
    unfold groupValues observabilityValues
    simp only [evaluable_blank, meanValue_blank, ratioValue_blank, countValue_blank, length_blank]
    rw [blankRows, blankRows, List.filterMap_map, List.countP_map, List.countP_map]
    rfl

end Blank

section Groups

variable {K : Type} (cases : List ScoredCase)

def rowsOf (key : GroupKey) (result : ScoredResult K) : List (Row K) :=
  match cases.find? fun case => case.caseId = result.caseId with
  | none => []
  | some case =>
    ((groupKeys case result.component).filter fun k => k = key).map fun _ => (case, result)

theorem groupRows_eq (results : List (ScoredResult K)) (key : GroupKey) :
    groupRows cases results key = results.flatMap (rowsOf cases key) := by
  unfold groupRows groupEntries
  rw [List.filter_flatMap, List.map_flatMap]
  apply congrArg (results.flatMap ·)
  funext result
  unfold rowsOf
  cases cases.find? fun case => case.caseId = result.caseId with
  | none => rfl
  | some case =>
    dsimp only
    rw [List.filter_map, List.map_map]
    rfl

theorem of_mem_groupKeys {case : ScoredCase} {component : Component} {key : GroupKey}
    (h : key ∈ groupKeys case component) : key.1 = component ∧ key.2.length ≤ 1 := by
  simp only [groupKeys, List.mem_append, List.mem_cons, List.not_mem_nil, or_false,
    List.mem_map] at h
  rcases h with (rfl | rfl | rfl | rfl) | ⟨tag, _, rfl⟩ <;> simp

theorem rowsOf_eq_nil {key : GroupKey} {result : ScoredResult K} (h : result.component ≠ key.1) :
    rowsOf cases key result = [] := by
  unfold rowsOf
  split
  · rfl
  · rw [List.map_eq_nil_iff, List.filter_eq_nil_iff]
    intro k hk heq
    obtain rfl : k = key := of_decide_eq_true heq
    exact h (of_mem_groupKeys hk).1.symm

theorem rowsOf_blank (key : GroupKey) (result : ScoredResult K) :
    rowsOf cases key result.blank = blankRows (rowsOf cases key result) := by
  unfold rowsOf blankRows
  change (match cases.find? fun case => case.caseId = result.caseId with
    | none => []
    | some case => ((groupKeys case result.component).filter fun k => k = key).map fun _ =>
      (case, result.blank)) = _
  cases cases.find? fun case => case.caseId = result.caseId with
  | none => rfl
  | some case =>
    dsimp only
    rw [List.map_map]
    rfl

def blankOf (results : List (ScoredResult K)) (component : Component) : List (ScoredResult K) :=
  (results.filter fun result => result.component = component).map ScoredResult.blank

theorem blankRows_groupRows (results : List (ScoredResult K)) (key : GroupKey) :
    blankRows (groupRows cases results key) =
      (blankOf results key.1).flatMap (rowsOf cases key) := by
  rw [groupRows_eq, blankOf]
  induction results with
  | nil => rfl
  | cons result results ih =>
    rw [List.flatMap_cons, blankRows, List.map_append]
    by_cases h : result.component = key.1
    · rw [List.filter_cons_of_pos (by simpa using h), List.map_cons, List.flatMap_cons, ← ih,
        rowsOf_blank]
      rfl
    · rw [List.filter_cons_of_neg (by simpa using h), rowsOf_eq_nil cases h, ← ih]
      rfl

variable {cases} {results results' : List (ScoredResult K)} {key : GroupKey}

theorem mem_groupOrder_iff_rows : key ∈ groupOrder cases results ↔
    groupRows cases results key ≠ [] := by
  rw [groupOrder, List.mem_reverse, List.mem_dedup, List.mem_reverse, groupRows, Ne,
    List.map_eq_nil_iff, List.filter_eq_nil_iff, List.mem_map]
  push Not
  simp only [decide_eq_true_eq]

theorem mem_groupOrder_congr (h : (blankOf results key.1).Perm (blankOf results' key.1)) :
    key ∈ groupOrder cases results ↔ key ∈ groupOrder cases results' := by
  have hrows : (blankRows (groupRows cases results key)).length =
      (blankRows (groupRows cases results' key)).length := by
    rw [blankRows_groupRows, blankRows_groupRows]
    exact (h.flatMap_right _).length_eq
  rw [length_blank, length_blank] at hrows
  rw [mem_groupOrder_iff_rows, mem_groupOrder_iff_rows, ← List.length_pos_iff,
    ← List.length_pos_iff, hrows]

theorem groupValues_congr [Field K] [LinearOrder K] (discount : ℕ → K)
    (h : (blankOf results key.1).Perm (blankOf results' key.1)) :
    groupValues (groupRows cases results key) discount key.1 =
      groupValues (groupRows cases results' key) discount key.1 := by
  rw [← groupValues_blank, ← groupValues_blank (groupRows cases results' key),
    blankRows_groupRows, blankRows_groupRows]
  exact groupValues_perm (h.flatMap_right _) discount key.1

end Groups

end CodeResearch.Evaluation
