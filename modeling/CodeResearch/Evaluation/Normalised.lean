import CodeResearch.Evaluation.MetricOrder
import CodeResearch.Evaluation.ScoreBounds

/-!
# Normalised metrics

The ratios, the calibration scores and the recall, F1, MRR and nDCG means of a run are
between zero and one. They are one for a run that reproduces the gold, as far as the cutoff
of a recall leaves room for it. A result is in each of its groups once.
-/
namespace CodeResearch.Evaluation

open ControlPlane (Timestamp)

def scoreNames : Component → List String
  | .index => ["entity_recall", "edge_recall", "evidence_recall", "chunk_recall"]
  | .retrieval => ["recall_at_1", "recall_at_5", "recall_at_10", "recall_at_20", "mrr",
      "ndcg_at_10", "graph_path_recall"]
  | .agent => []
  | .alignment => ["candidate_recall_at_20", "pair_f1", "evidence_recall"]
  | .answer => ["claim_coverage", "answer_completeness"]
  | .observability => []

def accuracyNames : Component → List String
  | .agent => ["route_accuracy", "tool_selection_accuracy"]
  | .alignment => ["exact_set", "selective_accuracy", "abstention_accuracy",
      "no_implementation_accuracy"]
  | _ => []

def Normalised (component : Component) (name : String) : Prop :=
  (∃ spec ∈ metricSpecs, spec.1 = component ∧ spec.2.1 = name ∧
    spec.2.2.2 ∈ [Aggregation.ratio, .calibration]) ∨ name ∈ scoreNames component

instance (component : Component) (name : String) : Decidable (Normalised component name) :=
  inferInstanceAs (Decidable (_ ∨ _))

def Gold.component : Gold → Component
  | .index _ => .index
  | .retrieval _ => .retrieval
  | .agent _ => .agent
  | .alignment _ => .alignment
  | .answer _ => .answer
  | .observability => .observability

/-- The items that a ranking is scored against. -/
def Gold.required : Gold → Finset String
  | .retrieval gold => (gold.requiredEntityIds ++ gold.requiredChunkIds).toFinset
  | .alignment gold => (gold.goldSelections.map AlignmentSelection.codeEntityId).toFinset
  | _ => ∅

def RetrievalOutcome.ranking (outcome : RetrievalOutcome) : List String :=
  outcome.rankedEntityIds ++ outcome.rankedChunkIds

/-- The list has each item of the gold once, and nothing else. -/
def Matches {α : Type} [DecidableEq α] (found gold : List α) : Prop := found.Perm gold.dedup

def AlignmentGold.Decided (gold : AlignmentGold) (status : String) : Prop :=
  if gold.noImplementationExpected then status = "no_implementation"
  else if gold.alignable then status = "accepted"
  else status ∈ ["abstained", "needs_review"]

variable {gold : AlignmentGold} {status : String} {α : Type} {component : Component}

theorem AlignmentGold.Decided.not_alignable
    (h : gold.Decided status) (hstatus : status = "abstained" ∨ status = "needs_review") :
    (!gold.alignable) = true := by
  unfold AlignmentGold.Decided at h
  split_ifs at h with himplementation halignable
  · subst h
    exact absurd hstatus (by decide)
  · subst h
    exact absurd hstatus (by decide)
  · simpa using halignable

theorem AlignmentGold.Decided.no_implementation
    (h : gold.Decided status) (hstatus : status = "no_implementation") :
    gold.noImplementationExpected = true := by
  subst hstatus
  unfold AlignmentGold.Decided at h
  split_ifs at h with himplementation halignable
  · exact himplementation
  · exact absurd h (by decide)
  · exact absurd h (by decide)

def Reproduces {K : Type} : Gold → CaseOutcome K → Prop
  | .index gold, .index outcome =>
    Matches outcome.entityIds gold.requiredEntityIds ∧
      Matches outcome.edgeIds gold.requiredEdgeIds ∧
      Matches outcome.evidenceIds gold.requiredEvidenceIds ∧
      Matches outcome.chunkIds gold.requiredChunkIds
  | .retrieval gold, .retrieval outcome =>
    Matches outcome.ranking (gold.requiredEntityIds ++ gold.requiredChunkIds) ∧
      Matches outcome.graphPaths gold.requiredPaths
  | .agent gold, .agent outcome =>
    outcome.route = gold.expectedRoute ∧ Matches outcome.tools gold.requiredTools ∧
      (∀ tool ∈ gold.forbiddenTools, tool ∉ outcome.tools) ∧
      Matches outcome.evidenceIds gold.requiredEvidenceIds
  | .alignment gold, .alignment outcome =>
    Matches outcome.candidateIds (gold.goldSelections.map AlignmentSelection.codeEntityId) ∧
      Matches outcome.selections gold.goldSelections ∧
      Matches (outcome.paperEvidenceIds ++ outcome.codeEvidenceIds)
        (gold.requiredPaperEvidenceIds ++ gold.requiredCodeEvidenceIds) ∧
      gold.Decided outcome.decisionStatus
  | .answer gold, .answer outcome => Matches outcome.answerPointIds gold.requiredAnswerPoints
  | .observability, .observability _ => True
  | _, _ => False

def cutoff : String → Option ℕ
  | "recall_at_1" => some 1
  | "recall_at_5" => some 5
  | "recall_at_10" => some 10
  | "recall_at_20" => some 20
  | "candidate_recall_at_20" => some 20
  | _ => none

/-- The gold has no more items than the cutoff, and an item for the reciprocal rank. -/
def Attainable (name : String) (gold : Gold) : Prop :=
  (∀ k, cutoff name = some k → gold.required.card ≤ k) ∧ (name = "mrr" → gold.required ≠ ∅)

section Rows

variable {K : Type}

/-- No gold item is twice among the first ten items of the ranking. -/
def Row.RanksOnce (row : Row K) : Prop :=
  ∀ outcome, row.2.outcome = some (.retrieval outcome) →
    ((outcome.ranking.take 10).filter (· ∈ row.1.gold.required)).Nodup

/-- `prob` in the schema of the outcome. -/
def ScoredResult.Probable [Field K] [LinearOrder K] (result : ScoredResult K) : Prop :=
  ∀ outcome, result.outcome = some (.alignment outcome) →
    ∀ p ∈ outcome.candidateProbabilities, p.2 ∈ Set.Icc (0 : K) 1

end Rows

section Range

variable {K : Type} [Field K] [LinearOrder K] [IsStrictOrderedRing K] {rows : List (Row K)}

def MetricValue.InUnit (v : MetricValue K) : Prop := ∀ x, v.value = some x → x ∈ Set.Icc (0 : K) 1

variable {name : String} {v : MetricValue K}

theorem inUnit_meanValue {values : List K}
    (h : ∀ v ∈ values, v ∈ Set.Icc (0 : K) 1) : (meanValue rows name values).InUnit :=
  fun _ hx => mean_mem_Icc h hx

theorem inUnit_ratioValue {numerator denominator : ℕ}
    (h : numerator ≤ denominator) : (ratioValue rows name numerator denominator).InUnit :=
  fun _ hx => ratio_mem_Icc h hx

theorem inUnit_passRate : (passRate rows name).InUnit :=
  inUnit_ratioValue List.countP_le_length

theorem inUnit_map {scored : List α} {score : α → K}
    (h : ∀ a ∈ scored, score a ∈ Set.Icc (0 : K) 1) :
    (meanValue rows name (scored.map score)).InUnit := by
  apply inUnit_meanValue
  intro v hv
  obtain ⟨a, ha, rfl⟩ := List.mem_map.mp hv
  exact h a ha

theorem inUnit_share {f : Row K → Option α} {p : α → Bool} :
    (ratioValue rows name (((evaluable rows).filterMap f).countP p)
      (evaluable rows).length).InUnit :=
  inUnit_ratioValue (List.countP_le_length.trans (List.length_filterMap_le _ _))

theorem inUnit_index (hv : v ∈ indexValues rows) : v.InUnit := by
  simp only [indexValues, List.mem_cons, List.not_mem_nil, or_false] at hv
  rcases hv with rfl | rfl | rfl | rfl | rfl
  · exact inUnit_passRate
  all_goals exact inUnit_map fun _ _ => coverage_mem_Icc _ _

theorem inUnit_agent (hv : v ∈ agentValues rows) (hname : Normalised .agent v.name) : v.InUnit := by
  simp only [agentValues, List.mem_cons, List.not_mem_nil, or_false] at hv
  rcases hv with rfl | rfl | rfl | rfl | rfl | rfl
  · exact inUnit_passRate
  · exact absurd (show Normalised .agent "invalid_tool_call" from hname) (by decide)
  all_goals exact inUnit_share

theorem inUnit_answer (hv : v ∈ answerValues rows) : v.InUnit := by
  simp only [answerValues, List.mem_cons, List.not_mem_nil, or_false] at hv
  rcases hv with rfl | rfl | rfl | rfl | rfl
  · exact inUnit_passRate
  · exact inUnit_map fun _ _ => coverage_mem_Icc _ _
  · exact inUnit_map fun _ _ => coverage_mem_Icc _ _
  · exact inUnit_ratioValue (List.sum_le_sum fun _ _ => List.countP_le_length)
  · apply inUnit_ratioValue (List.sum_le_sum _)
    rintro ⟨gold, outcome⟩ _
    dsimp only
    split_ifs
    · exact le_rfl
    · exact List.countP_le_length

theorem inUnit_observability (hv : v ∈ observabilityValues rows)
    (hname : Normalised .observability v.name) : v.InUnit := by
  simp only [observabilityValues, List.mem_cons, List.not_mem_nil, or_false] at hv
  rcases hv with rfl | rfl | rfl | rfl | rfl | rfl | rfl
  · exact inUnit_ratioValue List.countP_le_length
  · exact inUnit_ratioValue List.countP_le_length
  · exact absurd (show Normalised .observability "missing_span_rate" from hname) (by decide)
  · exact inUnit_ratioValue List.countP_le_length
  · exact inUnit_ratioValue (Nat.sub_le _ _)
  · exact absurd (show Normalised .observability "drop_rate" from hname) (by decide)
  · exact absurd (show Normalised .observability "secret_leak" from hname) (by decide)

omit [Field K] [LinearOrder K] [IsStrictOrderedRing K] in
theorem mem_retrievalScored {gold : RetrievalGold} {outcome : RetrievalOutcome}
    {latencyMs : Option K} (h : (gold, outcome, latencyMs) ∈ (evaluable rows).filterMap fun row =>
      match row.1.gold, row.2.outcome with
      | .retrieval gold, some (.retrieval outcome) => some (gold, outcome, row.2.latencyMs)
      | _, _ => none) :
    ∃ row ∈ evaluable rows, row.1.gold = .retrieval gold ∧
      row.2.outcome = some (.retrieval outcome) := by
  obtain ⟨row, hrow, heq⟩ := List.mem_filterMap.mp h
  refine ⟨row, hrow, ?_⟩
  split at heq
  · rename_i hgold houtcome
    obtain ⟨rfl, rfl, -⟩ : _ ∧ _ ∧ _ := by simpa using heq
    exact ⟨hgold, houtcome⟩
  · cases heq

theorem inUnit_retrieval (discount : Discount K)
    (hv : v ∈ retrievalValues rows discount.value) (hname : Normalised .retrieval v.name)
    (honce : v.name = "ndcg_at_10" → ∀ row ∈ rows, row.RanksOnce) : v.InUnit := by
  simp only [retrievalValues, List.mem_cons, List.not_mem_nil, or_false] at hv
  rcases hv with rfl | rfl | rfl | rfl | rfl | rfl | rfl | rfl | rfl | rfl
  · exact inUnit_map fun _ _ => coverage_mem_Icc _ _
  · exact inUnit_map fun _ _ => coverage_mem_Icc _ _
  · exact inUnit_map fun _ _ => coverage_mem_Icc _ _
  · exact inUnit_map fun _ _ => coverage_mem_Icc _ _
  · exact inUnit_map fun _ _ => reciprocalRank_mem_Icc _ _
  · apply inUnit_map
    rintro ⟨gold, outcome, latencyMs⟩ hscored
    obtain ⟨row, hrow, hgold, houtcome⟩ := mem_retrievalScored hscored
    have := honce rfl row (List.mem_of_mem_filter hrow) outcome houtcome
    rw [hgold] at this
    exact ndcg_mem_Icc discount this
  · exact inUnit_share
  · exact inUnit_map fun _ _ => coverage_mem_Icc _ _
  · exact inUnit_share
  · exact absurd (show Normalised .retrieval "latency_ms" from hname) (by decide)

omit [Field K] [LinearOrder K] [IsStrictOrderedRing K] in
theorem mem_alignmentScored {gold : AlignmentGold} {outcome : AlignmentOutcome K}
    (h : (gold, outcome) ∈ (evaluable rows).filterMap fun row =>
      match row.1.gold, row.2.outcome with
      | .alignment gold, some (.alignment outcome) => some (gold, outcome)
      | _, _ => none) :
    ∃ row ∈ evaluable rows, row.1.gold = .alignment gold ∧
      row.2.outcome = some (.alignment outcome) := by
  obtain ⟨row, hrow, heq⟩ := List.mem_filterMap.mp h
  refine ⟨row, hrow, ?_⟩
  split at heq
  · rename_i hgold houtcome
    obtain ⟨rfl, rfl⟩ : _ ∧ _ := by simpa using heq
    exact ⟨hgold, houtcome⟩
  · cases heq

omit [IsStrictOrderedRing K] in
theorem predicted_mem_Icc (hprobable : ∀ row ∈ rows, row.2.Probable)
    (labelled : AlignmentGold → String → Bool) :
    ∀ p ∈ ((evaluable rows).filterMap fun row => match row.1.gold, row.2.outcome with
        | .alignment gold, some (.alignment outcome) => some (gold, outcome)
        | _, _ => none).flatMap fun scored =>
      scored.2.candidateProbabilities.map fun entry => (entry.2, labelled scored.1 entry.1),
      p.1 ∈ Set.Icc (0 : K) 1 := by
  intro p hp
  obtain ⟨⟨gold, outcome⟩, hscored, hmem⟩ := List.mem_flatMap.mp hp
  obtain ⟨row, hrow, _, houtcome⟩ := mem_alignmentScored hscored
  obtain ⟨entry, hentry, rfl⟩ := List.mem_map.mp hmem
  exact hprobable row (List.mem_of_mem_filter hrow) outcome houtcome entry hentry

theorem inUnit_alignment (hprobable : ∀ row ∈ rows, row.2.Probable)
    (hv : v ∈ alignmentValues rows) : v.InUnit := by
  have hpredicted := predicted_mem_Icc hprobable fun gold id =>
    decide (id ∈ (gold.goldSelections.map AlignmentSelection.codeEntityId).toFinset)
  simp only [alignmentValues, List.mem_cons, List.not_mem_nil, or_false] at hv
  rcases hv with rfl | rfl | rfl | rfl | rfl | rfl | rfl | rfl | rfl | rfl
  · exact inUnit_map fun _ _ => coverage_mem_Icc _ _
  · exact inUnit_map fun _ _ => f1_mem_Icc _ _
  · apply inUnit_map
    intro scored _
    split_ifs
    · exact ⟨zero_le_one, le_rfl⟩
    · exact ⟨le_rfl, zero_le_one⟩
  · exact inUnit_ratioValue List.countP_le_length
  · exact inUnit_ratioValue ((List.length_filter_le _ _).trans (List.length_filterMap_le _ _))
  · exact inUnit_ratioValue List.countP_le_length
  · exact inUnit_ratioValue List.countP_le_length
  · exact inUnit_map fun _ _ => coverage_mem_Icc _ _
  · intro x hx
    refine mean_mem_Icc ?_ hx
    intro v hv
    obtain ⟨⟨probability, label⟩, hp, rfl⟩ := List.mem_map.mp hv
    exact brier_mem_Icc (hpredicted _ hp) label
  · exact fun x hx => ece_mem_Icc hpredicted hx

theorem inUnit_groupValues (discount : Discount K) (hprobable : ∀ row ∈ rows, row.2.Probable)
    (hv : v ∈ groupValues rows discount.value component) (hname : Normalised component v.name)
    (honce : v.name = "ndcg_at_10" → ∀ row ∈ rows, row.RanksOnce) : v.InUnit := by
  cases component with
  | index => exact inUnit_index hv
  | agent => exact inUnit_agent hv hname
  | answer => exact inUnit_answer hv
  | retrieval => exact inUnit_retrieval discount hv hname honce
  | alignment => exact inUnit_alignment hprobable hv
  | observability => exact inUnit_observability hv hname

end Range

section Reproduced

variable {found gold : List α}

theorem Matches.toFinset_eq [DecidableEq α] (h : Matches found gold) :
    found.toFinset = gold.toFinset := by
  ext a
  rw [List.mem_toFinset, List.mem_toFinset, h.mem_iff, List.mem_dedup]

theorem Matches.nodup [DecidableEq α] (h : Matches found gold) :
    found.Nodup := h.nodup_iff.mpr (List.nodup_dedup gold)

variable {K : Type} [Field K] [LinearOrder K] [IsStrictOrderedRing K] {rows : List (Row K)}

theorem Matches.coverage [DecidableEq α] (h : Matches found gold) :
    (Evaluation.coverage found.toFinset gold.toFinset : K) = 1 :=
  coverage_eq_one h.toFinset_eq.superset

theorem Matches.recallAt {ranking gold : List String} (h : Matches ranking gold) {k : ℕ}
    (hk : gold.toFinset.card ≤ k) : (Evaluation.recallAt ranking gold.toFinset k : K) = 1 := by
  have hlength : ranking.length ≤ k := by
    rwa [← List.toFinset_card_of_nodup h.nodup, h.toFinset_eq]
  rw [Evaluation.recallAt, List.take_of_length_le hlength]
  exact h.coverage

theorem Matches.reciprocalRank {ranking gold : List String} (h : Matches ranking gold)
    (hgold : gold.toFinset ≠ ∅) : (Evaluation.reciprocalRank ranking gold.toFinset : K) = 1 := by
  rw [← h.toFinset_eq] at hgold ⊢
  cases ranking with
  | nil => exact absurd rfl hgold
  | cons item ranking => exact reciprocalRank_eq_one (List.mem_toFinset.mpr List.mem_cons_self)

theorem Matches.f1 [DecidableEq α] (h : Matches found gold) :
    (Evaluation.f1 found.toFinset gold.toFinset : K) = 1 := by
  rw [h.toFinset_eq]
  exact f1_self _

variable {name : String} {row : Row K}

theorem meanValue_eq_one {scored : List α} {score : α → K} (h : ∀ a ∈ scored, score a = 1)
    (hden : (meanValue rows name (scored.map score)).denominator ≠ 0) :
    (meanValue rows name (scored.map score)).value = some 1 := by
  refine mean_eq_one ?_ hden
  intro v hv
  obtain ⟨a, ha, rfl⟩ := List.mem_map.mp hv
  exact h a ha

theorem ratioValue_eq_one {numerator denominator : ℕ} (h : numerator = denominator)
    (hden : (ratioValue rows name numerator denominator).denominator ≠ 0) :
    (ratioValue rows name numerator denominator).value = some 1 := by
  subst h
  exact ratio_self hden

omit [LinearOrder K] [IsStrictOrderedRing K] [Field K] in
theorem countP_scored {f : Row K → Option α} {p : α → Bool}
    (h : ∀ row ∈ evaluable rows, ∃ a, f row = some a ∧ p a) :
    ((evaluable rows).filterMap f).countP p = (evaluable rows).length := by
  rw [List.countP_filterMap, List.countP_eq_length]
  intro row hrow
  obtain ⟨a, hf, hp⟩ := h row hrow
  rw [hf]
  exact hp

def AllReproduced (component : Component) (rows : List (Row K)) : Prop :=
  ∀ row ∈ evaluable rows, row.1.gold.component = component ∧
    ∃ outcome, row.2.outcome = some outcome ∧ Reproduces row.1.gold outcome

omit [LinearOrder K] [IsStrictOrderedRing K] [Field K] in
theorem AllReproduced.reproduces (h : AllReproduced component rows) (hrow : row ∈ evaluable rows)
    {outcome : CaseOutcome K} (houtcome : row.2.outcome = some outcome) :
    Reproduces row.1.gold outcome := by
  obtain ⟨_, found, hfound, hreproduces⟩ := h row hrow
  obtain rfl := Option.some.inj (houtcome.symm.trans hfound)
  exact hreproduces

omit [LinearOrder K] [IsStrictOrderedRing K] [Field K] in
/-- The scored rows of the agent are all the evaluable ones. -/
theorem AllReproduced.agent (h : AllReproduced .agent rows)
    (hrow : row ∈ evaluable rows) : ∃ gold outcome, row.1.gold = .agent gold ∧
      row.2.outcome = some (.agent outcome) ∧ Reproduces (K := K) (.agent gold) (.agent outcome) := by
  obtain ⟨hcomponent, outcome, houtcome, hreproduces⟩ := h row hrow
  cases hgold : row.1.gold with
  | agent gold =>
    rw [hgold] at hreproduces
    cases outcome with
    | agent outcome => exact ⟨gold, outcome, rfl, houtcome, hreproduces⟩
    | _ => exact hreproduces.elim
  | _ =>
    rw [hgold] at hcomponent
    cases hcomponent

variable {v : MetricValue K}

theorem eq_one_index (h : AllReproduced .index rows)
    (hv : v ∈ indexValues rows) (hname : v.name ∈ scoreNames .index) (hden : v.denominator ≠ 0) :
    v.value = some 1 := by
  unfold indexValues at hv
  extract_lets scored at hv
  have hscored : ∀ s ∈ scored, Reproduces (K := K) (.index s.1) (.index s.2) := by
    rintro ⟨gold, outcome⟩ hmem
    obtain ⟨row, hrow, heq⟩ := List.mem_filterMap.mp hmem
    split at heq
    · rename_i hgold houtcome
      obtain ⟨rfl, rfl⟩ : _ ∧ _ := by simpa using heq
      have := h.reproduces hrow houtcome
      rwa [hgold] at this
    · cases heq
  simp only [List.mem_cons, List.not_mem_nil, or_false] at hv
  rcases hv with rfl | rfl | rfl | rfl | rfl
  · exact absurd (show "case_pass_rate" ∈ scoreNames .index from hname) (by decide)
  · exact meanValue_eq_one (fun s hs => (hscored s hs).1.coverage) hden
  · exact meanValue_eq_one (fun s hs => (hscored s hs).2.1.coverage) hden
  · exact meanValue_eq_one (fun s hs => (hscored s hs).2.2.1.coverage) hden
  · exact meanValue_eq_one (fun s hs => (hscored s hs).2.2.2.coverage) hden

theorem eq_one_answer (h : AllReproduced .answer rows)
    (hv : v ∈ answerValues rows) (hname : v.name ∈ scoreNames .answer) (hden : v.denominator ≠ 0) :
    v.value = some 1 := by
  unfold answerValues at hv
  extract_lets scored at hv
  have hscored : ∀ s ∈ scored, Reproduces (K := K) (.answer s.1) (.answer s.2) := by
    rintro ⟨gold, outcome⟩ hmem
    obtain ⟨row, hrow, heq⟩ := List.mem_filterMap.mp hmem
    split at heq
    · rename_i hgold houtcome
      obtain ⟨rfl, rfl⟩ : _ ∧ _ := by simpa using heq
      have := h.reproduces hrow houtcome
      rwa [hgold] at this
    · cases heq
  simp only [List.mem_cons, List.not_mem_nil, or_false] at hv
  rcases hv with rfl | rfl | rfl | rfl | rfl
  · exact absurd (show "case_pass_rate" ∈ scoreNames .answer from hname) (by decide)
  · exact meanValue_eq_one (fun s hs => (hscored s hs).coverage) hden
  · exact meanValue_eq_one (fun s hs => (hscored s hs).coverage) hden
  · exact absurd (show "supported_claim_rate" ∈ scoreNames .answer from hname) (by decide)
  · exact absurd (show "citation_validity" ∈ scoreNames .answer from hname) (by decide)

theorem eq_one_agent (h : AllReproduced .agent rows)
    (hv : v ∈ agentValues rows) (hname : v.name ∈ accuracyNames .agent) (hden : v.denominator ≠ 0) :
    v.value = some 1 := by
  simp only [agentValues, List.mem_cons, List.not_mem_nil, or_false] at hv
  rcases hv with rfl | rfl | rfl | rfl | rfl | rfl
  · exact absurd (show "task_success" ∈ accuracyNames .agent from hname) (by decide)
  · exact absurd (show "invalid_tool_call" ∈ accuracyNames .agent from hname) (by decide)
  · refine ratioValue_eq_one (countP_scored fun row hrow => ?_) hden
    obtain ⟨gold, outcome, hgold, houtcome, hroute, -⟩ := h.agent hrow
    exact ⟨(gold, outcome), by rw [hgold, houtcome], by simpa using hroute⟩
  · refine ratioValue_eq_one (countP_scored fun row hrow => ?_) hden
    obtain ⟨gold, outcome, hgold, houtcome, -, htools, hforbidden, -⟩ := h.agent hrow
    refine ⟨(gold, outcome), by rw [hgold, houtcome], decide_eq_true ⟨?_, hforbidden⟩⟩
    exact fun tool htool => htools.mem_iff.mpr (List.mem_dedup.mpr htool)
  · exact absurd (show "evidence_sufficiency" ∈ accuracyNames .agent from hname) (by decide)
  · exact absurd (show "budget_compliance" ∈ accuracyNames .agent from hname) (by decide)

theorem eq_one_retrieval (discount : Discount K) (h : AllReproduced .retrieval rows)
    (hv : v ∈ retrievalValues rows discount.value)
    (hname : v.name ∈ scoreNames .retrieval)
    (hattainable : ∀ row ∈ evaluable rows, Attainable v.name row.1.gold)
    (hden : v.denominator ≠ 0) : v.value = some 1 := by
  have hscored : ∀ scored ∈ (evaluable rows).filterMap fun row =>
      match row.1.gold, row.2.outcome with
      | .retrieval gold, some (.retrieval outcome) => some (gold, outcome, row.2.latencyMs)
      | _, _ => none, Reproduces (K := K) (.retrieval scored.1) (.retrieval scored.2.1) ∧
        Attainable v.name (.retrieval scored.1) := by
    rintro ⟨gold, outcome, latencyMs⟩ hmem
    obtain ⟨row, hrow, hgold, houtcome⟩ := mem_retrievalScored hmem
    rw [← hgold]
    exact ⟨h.reproduces hrow houtcome, hattainable row hrow⟩
  simp only [retrievalValues, List.mem_cons, List.not_mem_nil, or_false] at hv
  rcases hv with rfl | rfl | rfl | rfl | rfl | rfl | rfl | rfl | rfl | rfl
  · exact meanValue_eq_one (fun s hs =>
      (hscored s hs).1.1.recallAt ((hscored s hs).2.1 1 rfl)) hden
  · exact meanValue_eq_one (fun s hs =>
      (hscored s hs).1.1.recallAt ((hscored s hs).2.1 5 rfl)) hden
  · exact meanValue_eq_one (fun s hs =>
      (hscored s hs).1.1.recallAt ((hscored s hs).2.1 10 rfl)) hden
  · exact meanValue_eq_one (fun s hs =>
      (hscored s hs).1.1.recallAt ((hscored s hs).2.1 20 rfl)) hden
  · exact meanValue_eq_one (fun s hs =>
      (hscored s hs).1.1.reciprocalRank ((hscored s hs).2.2 rfl)) hden
  · exact meanValue_eq_one (fun s hs => ndcg_eq_one discount (by decide)
      (hscored s hs).1.1.nodup (hscored s hs).1.1.toFinset_eq) hden
  · exact absurd (show "empty_rate" ∈ scoreNames .retrieval from hname) (by decide)
  · exact meanValue_eq_one (fun s hs => (hscored s hs).1.2.coverage) hden
  · exact absurd (show "fallback_rate" ∈ scoreNames .retrieval from hname) (by decide)
  · exact absurd (show "latency_ms" ∈ scoreNames .retrieval from hname) (by decide)

theorem eq_one_alignment (h : AllReproduced .alignment rows) (hv : v ∈ alignmentValues rows)
    (hname : v.name ∈ scoreNames .alignment ++ accuracyNames .alignment)
    (hattainable : ∀ row ∈ evaluable rows, Attainable v.name row.1.gold)
    (hden : v.denominator ≠ 0) : v.value = some 1 := by
  have hscored : ∀ scored ∈ (evaluable rows).filterMap fun row =>
      match row.1.gold, row.2.outcome with
      | .alignment gold, some (.alignment outcome) => some (gold, outcome)
      | _, _ => none, Reproduces (K := K) (.alignment scored.1) (.alignment scored.2) ∧
        Attainable v.name (.alignment scored.1) := by
    rintro ⟨gold, outcome⟩ hmem
    obtain ⟨row, hrow, hgold, houtcome⟩ := mem_alignmentScored hmem
    rw [← hgold]
    exact ⟨h.reproduces hrow houtcome, hattainable row hrow⟩
  simp only [alignmentValues, List.mem_cons, List.not_mem_nil, or_false] at hv
  rcases hv with rfl | rfl | rfl | rfl | rfl | rfl | rfl | rfl | rfl | rfl
  · exact meanValue_eq_one (fun s hs =>
      (hscored s hs).1.1.recallAt ((hscored s hs).2.1 20 rfl)) hden
  · exact meanValue_eq_one (fun s hs => (hscored s hs).1.2.1.f1) hden
  · exact meanValue_eq_one (fun s hs => if_pos (hscored s hs).1.2.1.toFinset_eq) hden
  · refine ratioValue_eq_one (List.countP_eq_length.mpr fun s hs => ?_) hden
    exact decide_eq_true (hscored s (List.mem_of_mem_filter hs)).1.2.1.toFinset_eq
  · exact absurd (show "coverage" ∈ scoreNames .alignment ++ accuracyNames .alignment from hname)
      (by decide)
  · refine ratioValue_eq_one (List.countP_eq_length.mpr fun s hs => ?_) hden
    obtain ⟨hmem, hstatus⟩ := List.mem_filter.mp hs
    exact (hscored s hmem).1.2.2.2.not_alignable (of_decide_eq_true hstatus)
  · refine ratioValue_eq_one (List.countP_eq_length.mpr fun s hs => ?_) hden
    obtain ⟨hmem, hstatus⟩ := List.mem_filter.mp hs
    exact (hscored s hmem).1.2.2.2.no_implementation (of_decide_eq_true hstatus)
  · exact meanValue_eq_one (fun s hs => (hscored s hs).1.2.2.1.coverage) hden
  · exact absurd (show "brier" ∈ scoreNames .alignment ++ accuracyNames .alignment from hname)
      (by decide)
  · exact absurd (show "ece" ∈ scoreNames .alignment ++ accuracyNames .alignment from hname)
      (by decide)

theorem eq_one_groupValues (discount : Discount K) (h : AllReproduced component rows)
    (hv : v ∈ groupValues rows discount.value component)
    (hname : v.name ∈ scoreNames component ++ accuracyNames component)
    (hattainable : ∀ row ∈ evaluable rows, Attainable v.name row.1.gold) (hden : v.denominator ≠ 0)
    : v.value = some 1 := by
  cases component with
  | index => exact eq_one_index h hv (by simpa [accuracyNames] using hname) hden
  | agent => exact eq_one_agent h hv (by simpa [scoreNames] using hname) hden
  | answer => exact eq_one_answer h hv (by simpa [accuracyNames] using hname) hden
  | retrieval =>
    exact eq_one_retrieval discount h hv (by simpa [accuracyNames] using hname) hattainable hden
  | alignment => exact eq_one_alignment h hv hname hattainable hden
  | observability => exact absurd hname List.not_mem_nil

end Reproduced

section Denominators

variable {K : Type} [Field K] [LinearOrder K] {rows rows' : List (Row K)}

/-- The two values are of one metric, the first with no more samples. -/
def MetricValue.Within (v v' : MetricValue K) : Prop :=
  v.name = v'.name ∧ v.denominator ≤ v'.denominator

variable {name : String}

theorem within_map {scored scored' : List α} {score : α → K} (h : scored.Sublist scored') :
    (meanValue rows name (scored.map score)).Within (meanValue rows' name (scored'.map score)) :=
  ⟨rfl, (h.map score).length_le⟩

theorem within_ratioValue {n n' d d' : ℕ} (h : d ≤ d') :
    (ratioValue rows name n d).Within (ratioValue rows' name n' d') := ⟨rfl, h⟩

/-- The samples of each metric are no more for fewer rows. -/
theorem within_groupValues (h : rows.Sublist rows') (discount : ℕ → K) (component : Component) :
    List.Forall₂ MetricValue.Within (groupValues rows discount component)
      (groupValues rows' discount component) := by
  have hevaluable : (evaluable rows).Sublist (evaluable rows') := h.filter _
  have hrows : rows.length ≤ rows'.length := h.length_le
  have hscored : ∀ {α : Type} (f : Row K → Option α),
      ((evaluable rows).filterMap f).Sublist ((evaluable rows').filterMap f) :=
    fun f => hevaluable.filterMap f
  have hmean : ∀ {α : Type} {f : Row K → Option α} {score : α → K} {name : String},
      (meanValue rows name (((evaluable rows).filterMap f).map score)).Within
        (meanValue rows' name (((evaluable rows').filterMap f).map score)) := within_map (hscored _)
  have hrate : ∀ {n n' : ℕ} {name : String},
      (ratioValue rows name n (evaluable rows).length).Within
        (ratioValue rows' name n' (evaluable rows').length) :=
    within_ratioValue hevaluable.length_le
  cases component with
  | index =>
    exact .cons hrate <| .cons hmean <| .cons hmean <| .cons hmean <| .cons hmean .nil
  | agent =>
    exact .cons hrate <| .cons ⟨rfl, hrows⟩ <| .cons hrate <| .cons hrate <| .cons hrate <|
      .cons hrate .nil
  | answer =>
    refine .cons hrate <| .cons hmean <| .cons hmean <| .cons (within_ratioValue ?_) <|
      .cons (within_ratioValue ?_) .nil
    · exact ((hscored _).map _).sum_le_sum fun _ _ => Nat.zero_le _
    · exact ((hscored _).map _).sum_le_sum fun _ _ => Nat.zero_le _
  | retrieval =>
    exact .cons hmean <| .cons hmean <| .cons hmean <| .cons hmean <| .cons hmean <|
      .cons hmean <| .cons hrate <| .cons hmean <| .cons hrate <|
      .cons ⟨rfl, ((hscored _).filterMap _).length_le⟩ .nil
  | alignment =>
    exact .cons hmean <| .cons hmean <| .cons hmean <|
      .cons (within_ratioValue ((hscored _).filter _).length_le) <| .cons hrate <|
      .cons (within_ratioValue ((hscored _).filter _).length_le) <|
      .cons (within_ratioValue ((hscored _).filter _).length_le) <| .cons hmean <|
      .cons ⟨rfl, ((hscored _).flatMap _).length_le⟩ <|
      .cons ⟨rfl, ((hscored _).flatMap _).length_le⟩ .nil
  | observability =>
    exact .cons (within_ratioValue (hscored _).length_le) <|
      .cons (within_ratioValue (hscored _).length_le) <| .cons hmean <|
      .cons (within_ratioValue hrows) <| .cons (within_ratioValue hrows) <|
      .cons hmean <| .cons ⟨rfl, hrows⟩ .nil

theorem exists_of_forall₂ {α β : Type} {R : α → β → Prop} {l : List α} {l' : List β}
    (h : List.Forall₂ R l l') {a : α} (ha : a ∈ l) : ∃ b ∈ l', R a b := by
  induction h with
  | nil => cases ha
  | cons hhead _ ih =>
    cases ha with
    | head => exact ⟨_, List.mem_cons_self, hhead⟩
    | tail _ ha =>
      obtain ⟨b, hb, hab⟩ := ih ha
      exact ⟨b, List.mem_cons_of_mem _ hb, hab⟩

end Denominators

section Groups

variable {K : Type} (cases : List ScoredCase) {results : List (ScoredResult K)} {key : GroupKey}

def rowOf (key : GroupKey) (result : ScoredResult K) : Option (Row K) :=
  match cases.find? fun case => case.caseId = result.caseId with
  | none => none
  | some case => if key ∈ groupKeys case result.component then some (case, result) else none

variable {cases}

variable {case : ScoredCase} {row : Row K} {result : ScoredResult K}

theorem nodup_groupKeys (htags : case.tags.Nodup) (component : Component) :
    (groupKeys case component).Nodup := by
  apply List.Nodup.append
  · simp
  · exact htags.map fun a b h => by simpa using h
  · simp [List.disjoint_left]

theorem rowsOf_eq (htags : ∀ case ∈ cases, case.tags.Nodup) (result : ScoredResult K) :
    rowsOf cases key result = (rowOf cases key result).toList := by
  unfold rowsOf rowOf
  cases hfind : cases.find? fun case => case.caseId = result.caseId with
  | none => rfl
  | some case =>
    have hnodup := nodup_groupKeys (htags case (List.mem_of_find?_eq_some hfind)) result.component
    dsimp only
    rw [List.filter_eq, hnodup.count]
    split_ifs <;> rfl

theorem groupRows_eq_filterMap (htags : ∀ case ∈ cases, case.tags.Nodup)
    (results : List (ScoredResult K)) (key : GroupKey) :
    groupRows cases results key = results.filterMap (rowOf cases key) := by
  rw [groupRows_eq, List.filterMap_eq_flatMap_toList]
  exact congrArg (results.flatMap ·) (funext (rowsOf_eq htags))

theorem mem_of_mem_groupRows (h : row ∈ groupRows cases results key) :
    row.1 ∈ cases ∧ row.2 ∈ results := by
  rw [groupRows_eq] at h
  obtain ⟨result, hresult, hmem⟩ := List.mem_flatMap.mp h
  unfold rowsOf at hmem
  split at hmem
  · cases hmem
  · rename_i case hfind
    obtain ⟨k, _, rfl⟩ := List.mem_map.mp hmem
    exact ⟨List.mem_of_find?_eq_some hfind, hresult⟩

theorem mem_rowOf (h : rowOf cases key result = some row) :
    row.2 = result ∧ rowOf cases (key.1, []) result = some row := by
  unfold rowOf at h ⊢
  cases hfind : cases.find? fun case => case.caseId = result.caseId with
  | none =>
    rw [hfind] at h
    cases h
  | some case =>
    rw [hfind] at h
    dsimp only at h ⊢
    split_ifs at h with hkey
    obtain rfl := Option.some.inj h
    rw [(of_mem_groupKeys hkey).1, if_pos (by simp [groupKeys])]
    exact ⟨rfl, rfl⟩

theorem groupRows_sublist (htags : ∀ case ∈ cases, case.tags.Nodup) :
    (groupRows cases results key).Sublist (groupRows cases results (key.1, [])) := by
  rw [groupRows_eq_filterMap htags, groupRows_eq_filterMap htags,
    List.filterMap_eq_flatMap_toList, List.filterMap_eq_flatMap_toList]
  apply List.Sublist.flatMap_right
  intro result _
  cases hrow : rowOf cases key result with
  | none => exact List.nil_sublist _
  | some row => rw [(mem_rowOf hrow).2]

theorem countP_groupRows [DecidableEq K] (htags : ∀ case ∈ cases, case.tags.Nodup)
    (honce : (results.map fun result => result.caseId).Nodup)
    (hresult : result ∈ results)
    (hcase : cases.find? (fun case => case.caseId = result.caseId) = some case) (key : GroupKey) :
    (groupRows cases results key).countP (fun row => row.2.caseId = result.caseId) =
      if key ∈ groupKeys case result.component then 1 else 0 := by
  have hrow : rowOf cases key result =
      if key ∈ groupKeys case result.component then some (case, result) else none := by
    rw [rowOf, hcase]
  rw [groupRows_eq_filterMap htags, List.countP_filterMap]
  split_ifs with hkey
  · rw [if_pos hkey] at hrow
    rw [← List.count_eq_one_of_mem honce.of_map hresult]
    apply List.countP_congr
    intro other hother
    constructor
    · intro h
      cases hfound : rowOf cases key other with
      | none => simp [hfound] at h
      | some row =>
        obtain rfl := (mem_rowOf hfound).1
        have hid : row.2.caseId = result.caseId := by simpa [hfound] using h
        exact beq_iff_eq.mpr (List.inj_on_of_nodup_map honce hother hresult hid)
    · intro h
      rw [beq_iff_eq.mp h, hrow]
      exact decide_eq_true rfl
  · rw [if_neg hkey] at hrow
    apply List.countP_eq_zero.mpr
    intro other hother h
    cases hfound : rowOf cases key other with
    | none => simp [hfound] at h
    | some row =>
      obtain rfl := (mem_rowOf hfound).1
      have hid : row.2.caseId = result.caseId := by simpa [hfound] using h
      obtain rfl := List.inj_on_of_nodup_map honce hother hresult hid
      rw [hrow] at hfound
      cases hfound

end Groups

section Compute

variable {K : Type} [Field K] [LinearOrder K] [IsStrictOrderedRing K]
  {cases : List ScoredCase} {results : List (ScoredResult K)} {ids : PlanIds}
  {runId : String} {clock : Timestamp}

omit [IsStrictOrderedRing K] in
variable {discount : ℕ → K} {m : MetricResult K}

theorem exists_groupValue
    (hm : m ∈ computeMetrics cases results ids.toMetricIds discount runId clock) {name : String}
    (hname : m.metricDefinitionId = ids.metricDefinitionId component name) :
    ∃ v ∈ groupValues (groupRows cases results (component, m.subgroup)) discount component,
      v.name = name ∧ m.value = v.value ∧ m.denominator = v.denominator := by
  obtain ⟨key, -, v, hv, hresult⟩ := mem_computeMetrics.mp hm
  unfold metricResult at hresult
  split_ifs at hresult
  obtain rfl := Option.some.inj hresult
  obtain ⟨rfl, rfl⟩ := Prod.mk.inj (ids.metricDefinitionId_injective hname)
  exact ⟨v, hv, rfl, rfl, rfl⟩

omit [IsStrictOrderedRing K] in
/-- The metric over all the results of its component has no fewer samples. -/
theorem exists_overall (htags : ∀ case ∈ cases, case.tags.Nodup)
    (hm : m ∈ computeMetrics cases results ids.toMetricIds discount runId clock) :
    ∃ overall ∈ computeMetrics cases results ids.toMetricIds discount runId clock,
      overall.metricDefinitionId = m.metricDefinitionId ∧ overall.subgroup = [] ∧
        m.sampleCount ≤ overall.sampleCount := by
  obtain ⟨key, hkey, v, hv, hresult⟩ := mem_computeMetrics.mp hm
  have hsub : (groupRows cases results key).Sublist (groupRows cases results (key.1, [])) :=
    groupRows_sublist htags
  have hkey' : (key.1, []) ∈ groupOrder cases results := by
    rw [mem_groupOrder_iff_rows] at hkey ⊢
    intro hnil
    rw [hnil] at hsub
    exact hkey (List.sublist_nil.mp hsub)
  obtain ⟨v', hv', hname, hden⟩ := exists_of_forall₂ (within_groupValues hsub discount key.1) hv
  unfold metricResult at hresult
  split_ifs at hresult with hdefined
  obtain rfl := Option.some.inj hresult
  refine ⟨_, mem_computeMetrics.mpr ⟨(key.1, []), hkey', v', hv', if_pos (hname ▸ hdefined)⟩, ?_⟩
  exact ⟨congrArg (ids.metricDefinitionId key.1) hname.symm, rfl, hden⟩

/-- The metrics of a run are normalised, and the groups count each result once. -/
theorem computeMetrics_normalised (discount : Discount K)
    (honce : (results.map fun result => result.caseId).Nodup)
    (hprobable : ∀ result ∈ results, result.Probable) :
    (∀ component name, Normalised component name →
      ∀ m ∈ computeMetrics cases results ids.toMetricIds discount.value runId clock,
        m.metricDefinitionId = ids.metricDefinitionId component name →
        (name = "ndcg_at_10" →
          ∀ row ∈ groupRows cases results (component, m.subgroup), row.RanksOnce) →
        ∀ x, m.value = some x → x ∈ Set.Icc (0 : K) 1) ∧
    (∀ component, ∀ name ∈ scoreNames component ++ accuracyNames component,
      ∀ m ∈ computeMetrics cases results ids.toMetricIds discount.value runId clock,
        m.metricDefinitionId = ids.metricDefinitionId component name →
        AllReproduced component (groupRows cases results (component, m.subgroup)) →
        (∀ row ∈ evaluable (groupRows cases results (component, m.subgroup)),
          Attainable name row.1.gold) →
        m.denominator ≠ 0 → m.value = some 1) ∧
    ((∀ case ∈ cases, case.tags.Nodup) →
      (∀ result ∈ results, ∀ case,
        cases.find? (fun case => case.caseId = result.caseId) = some case → ∀ key,
          (groupRows cases results key).countP (fun row => row.2.caseId = result.caseId) =
            if key ∈ groupKeys case result.component then 1 else 0) ∧
      ∀ m ∈ computeMetrics cases results ids.toMetricIds discount.value runId clock,
        ∃ overall ∈ computeMetrics cases results ids.toMetricIds discount.value runId clock,
          overall.metricDefinitionId = m.metricDefinitionId ∧ overall.subgroup = [] ∧
            m.sampleCount ≤ overall.sampleCount) := by
  refine ⟨?_, ?_, ?_⟩
  · intro component name hnormalised m hm hname hranks x hx
    obtain ⟨v, hv, rfl, hvalue, -⟩ := exists_groupValue hm hname
    have hrows : ∀ row ∈ groupRows cases results (component, m.subgroup), row.2.Probable :=
      fun row hrow => hprobable _ (mem_of_mem_groupRows hrow).2
    exact inUnit_groupValues discount hrows hv hnormalised hranks x (hvalue ▸ hx)
  · intro component name hscore m hm hname hreproduced hattainable hden
    obtain ⟨v, hv, rfl, hvalue, hdenominator⟩ := exists_groupValue hm hname
    rw [hvalue]
    exact eq_one_groupValues discount hreproduced hv hscore hattainable (hdenominator ▸ hden)
  · intro htags
    exact ⟨fun result hresult case hcase key => countP_groupRows htags honce hresult hcase key,
      fun m hm => exists_overall htags hm⟩

end Compute

def twoRequired : ScoredCase :=
  { caseId := "c", stableCaseFamilyId := "f", component := .retrieval, split := "dev",
    source := "manual", repoId := "r", tags := ["small"]
    gold := .retrieval ⟨["a", "b"], [], []⟩ }

def bothFound : ScoredResult ℝ :=
  { resultId := "c1", evaluationRunId := "run", caseId := "c", component := .retrieval,
    executionStatus := .completed, evaluationOutcome := some .passed, complete := true,
    incompleteReasonCodes := [], executionErrorCode := none, qualityFailureCodes := [],
    traceId := none, outputArtifactRefIds := [], finishedAt := none
    outcome := some (.retrieval ⟨["a", "b"], [], [], []⟩)
    latencyMs := none }

theorem allReproduced_bothFound (key : GroupKey) :
    AllReproduced .retrieval (groupRows [twoRequired] [bothFound] key) := by
  intro row hrow
  obtain ⟨hcase, hresult⟩ := mem_of_mem_groupRows (List.mem_of_mem_filter hrow)
  rw [List.mem_singleton.mp hcase, List.mem_singleton.mp hresult]
  exact ⟨rfl, _, rfl, List.Perm.refl ["a", "b"], List.Perm.nil⟩

theorem computeMetrics_bothFound : Nonempty PlanIds ∧ ∀ ids : PlanIds,
    ∀ m ∈ computeMetrics [twoRequired] [bothFound] ids.toMetricIds log2Discount.value "run" 0,
      m.metricDefinitionId = ids.metricDefinitionId .retrieval "recall_at_5" →
        m.denominator ≠ 0 → m.value = some 1 := by
  refine ⟨exists_planIds, fun ids m hm hname hden => ?_⟩
  have hprobable : ∀ result ∈ [bothFound], result.Probable := by
    intro result hresult outcome houtcome
    rw [List.mem_singleton.mp hresult] at houtcome
    cases houtcome
  have hnormalised := @computeMetrics_normalised ℝ _ _ _ [twoRequired] [bothFound] ids "run" 0
    log2Discount (List.nodup_singleton _) hprobable
  refine hnormalised.2.1 .retrieval "recall_at_5" (by decide) m hm hname
    (allReproduced_bothFound _) ?_ hden
  intro row hrow
  rw [List.mem_singleton.mp (mem_of_mem_groupRows (List.mem_of_mem_filter hrow)).1]
  exact ⟨fun k hk => by obtain rfl := Option.some.inj hk; decide, by decide⟩

/-- The first item of a ranking cannot be both of two gold items. -/
theorem recall_at_one_of_two : Nonempty PlanIds ∧ ∀ ids : PlanIds,
    AllReproduced .retrieval (groupRows [twoRequired] [bothFound] (.retrieval, [])) ∧
      ∃ m ∈ computeMetrics [twoRequired] [bothFound] ids.toMetricIds log2Discount.value "run" 0,
        m.metricDefinitionId = ids.metricDefinitionId .retrieval "recall_at_1" ∧
          m.subgroup = [] ∧ m.denominator ≠ 0 ∧ m.value = some (1 / 2) := by
  refine ⟨exists_planIds, fun ids => ⟨allReproduced_bothFound _, ?_⟩⟩
  have hrows : groupRows [twoRequired] [bothFound] (.retrieval, []) = [(twoRequired, bothFound)] :=
    rfl
  have hkey : (Component.retrieval, []) ∈ groupOrder [twoRequired] [bothFound] := by
    rw [mem_groupOrder_iff_rows, hrows]
    exact List.cons_ne_nil _ _
  refine ⟨_, mem_computeMetrics.mpr ⟨_, hkey, _, List.mem_cons_self, rfl⟩, rfl, rfl, ?_, ?_⟩
  · exact Nat.one_ne_zero
  · have hfound : ((["a", "b"].take 1).toFinset ∩ {"a", "b"}).card = 1 := by decide
    have hgold : ({"a", "b"} : Finset String).card = 2 := by decide
    change mean [recallAt ["a", "b"] {"a", "b"} 1] = some ((1 : ℝ) / 2)
    rw [recallAt, coverage, if_neg (by decide), hfound, hgold]
    norm_num [mean]

end CodeResearch.Evaluation
