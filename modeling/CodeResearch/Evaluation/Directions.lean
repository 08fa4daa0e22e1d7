import CodeResearch.Evaluation.Gates
import Mathlib.Tactic.Linarith

/-!
# Which rules follow the direction of their metric

The gate never reads the direction of a metric. A blocking rule follows it in four cases:
a lower bound or an absolute drop on a metric that should be high, an upper bound on one
that should be low, and zero on one that has to be zero. A relative drop follows no
direction, because from a baseline of zero it admits nothing but zero.
-/
namespace CodeResearch.Evaluation

open ControlPlane (Timestamp)

variable {K : Type} [Field K] [LinearOrder K] {baseline candidate : ComparedRun K}

def Direction.Better : Direction → K → K → Prop
  | .higherIsBetter, x, y => y < x
  | .lowerIsBetter, x, y => x < y
  | .zeroRequired, x, y => |x| < |y|

def Direction.loss : Direction → K → K → K
  | .higherIsBetter, b, v => b - v
  | .lowerIsBetter, b, v => v - b
  | .zeroRequired, b, v => |v| - |b|

variable (direction : String → Option Direction)

def ValueImproves (m m' : MetricResult K) : Prop :=
  m' = m ∨ ∃ d v v', direction m.metricDefinitionId = some d ∧ m.value = some v ∧
    m' = { m with value := some v' } ∧ d.Better v' v

def OneImproves (ms ms' : List (MetricResult K)) : Prop :=
  ∃ before m after d v v', ms = before ++ m :: after ∧
    ms' = before ++ { m with value := some v' } :: after ∧
    direction m.metricDefinitionId = some d ∧ m.value = some v ∧ d.Better v' v

def ImprovesEverywhere (baseline candidate : ComparedRun K) : Prop :=
  ∀ pair ∈ pairedMetrics baseline candidate, ∃ d b c,
    direction pair.1.metricDefinitionId = some d ∧ pair.1.value = some b ∧
      pair.2.value = some c ∧ d.Better c b

def GateRule.Exceeded (rule : GateRule K) (row : MetricDelta K) : Prop :=
  ∃ d v, direction rule.metricDefinitionId = some d ∧ row.candidateValue = some v ∧
    match rule.comparison with
    | .equalZero => d.Better 0 v
    | .minValue | .maxValue => d.Better rule.threshold v
    | .maxAbsoluteDrop => ∃ b, row.baselineValue = some b ∧ |rule.threshold| < d.loss b v
    | .maxRelativeDrop => ∃ b, row.baselineValue = some b ∧ |rule.threshold| * |b| < d.loss b v

/-- What the comparison and the gate are given besides the metrics. -/
structure PipelineInput where
  ids : GateIds
  metricNames : String → String
  baselineBindingId : String
  comparedAt : Timestamp
  evaluatedAt : Timestamp

/-- `compare_runs` followed by `RegressionGateEngine.evaluate`. -/
def pipeline (input : PipelineInput) (baseline candidate : ComparedRun K)
    (config : RegressionGateConfig K) : RegressionGate K :=
  evaluateGate input.ids (compareRuns baseline candidate input.metricNames input.ids
    input.baselineBindingId input.comparedAt) config input.evaluatedAt

def comparedRows (input : PipelineInput) (baseline candidate : ComparedRun K) :
    List (MetricDelta K) :=
  (comparedDeltas baseline candidate input.metricNames).filter (fun d => d.subgroup = []) ++
    (comparedDeltas baseline candidate input.metricNames).filter fun d => d.subgroup ≠ []

def Judged (input : PipelineInput) (baseline candidate : ComparedRun K) (rule : GateRule K)
    (row : MetricDelta K) : Prop :=
  compatibility baseline candidate input.metricNames ≠ .incompatible ∧
    rule.row (comparedRows input baseline candidate) = some row ∧ rule.Judges row

/-- A configuration is direction-aware and monotone. -/
structure DirectionSound (config : RegressionGateConfig K) : Prop where
  monotone : ∀ (input : PipelineInput) (baseline candidate : ComparedRun K)
    (metrics : List (MetricResult K)), OneImproves direction candidate.metrics metrics →
    (pipeline input baseline candidate config).verdict = .passed →
    (pipeline input baseline { candidate with metrics } config).verdict ≠ .blocked
  improved : ∀ (input : PipelineInput) (baseline candidate : ComparedRun K),
    ImprovesEverywhere direction baseline candidate → ∀ rule ∈ config.rules,
    rule.comparison ∈ [RuleComparison.maxAbsoluteDrop, .maxRelativeDrop] →
    ∀ row, Judged input baseline candidate rule row →
      (judgedResult rule row).verdict ≠ .blocked
  exceeded : ∀ (input : PipelineInput) (baseline candidate : ComparedRun K),
    ∀ rule ∈ config.rules, rule.severity = .block →
    ∀ row, Judged input baseline candidate rule row → rule.Exceeded direction row →
      (pipeline input baseline candidate config).verdict = .blocked

def GateRule.Aligned (rule : GateRule K) : Prop :=
  rule.severity = .block → ∀ d, direction rule.metricDefinitionId = some d →
    (rule.comparison, d) ∈ [(RuleComparison.equalZero, Direction.zeroRequired),
      (.minValue, .higherIsBetter), (.maxValue, .lowerIsBetter),
      (.maxAbsoluteDrop, .higherIsBetter)]

section Pairs

variable {direction}

variable {ms metrics : List (MetricResult K)} {ms' : List (MetricResult K)}

omit [Field K] in
theorem forall₂_of_oneImproves [Field K] (h : OneImproves direction ms ms') :
    List.Forall₂ (ValueImproves direction) ms ms' := by
  obtain ⟨before, m, after, d, v, v', rfl, rfl, hd, hv, hbetter⟩ := h
  have hrefl : ∀ l : List (MetricResult K), List.Forall₂ (ValueImproves direction) l l :=
    fun l => List.forall₂_same.mpr fun _ _ => .inl rfl
  exact List.rel_append (hrefl before)
    (.cons (.inr ⟨d, v, v', hd, hv, rfl, hbetter⟩) (hrefl after))

theorem ValueImproves.key_eq {m m' : MetricResult K} (h : ValueImproves direction m m') :
    metricKey m' = metricKey m := by
  rcases h with rfl | ⟨_, _, _, _, _, rfl, _⟩ <;> rfl

theorem find?_rel {α : Type} {R : α → α → Prop} {p : α → Bool} {l l' : List α}
    (h : List.Forall₂ R l l') (hp : ∀ a b, R a b → p b = p a) :
    Option.Rel R (l.find? p) (l'.find? p) := by
  induction h with
  | nil => exact .none
  | @cons a b l l' hab _ ih =>
    rw [List.find?_cons, List.find?_cons, hp a b hab]
    cases p a with
    | true => exact .some hab
    | false => exact ih

theorem metricUnder_rel (h : List.Forall₂ (ValueImproves direction) ms ms') (key : List String) :
    Option.Rel (ValueImproves direction) (metricUnder ms key) (metricUnder ms' key) := by
  apply find?_rel (List.rel_reverse h)
  intro m m' hm
  rw [hm.key_eq]

omit [Field K] [LinearOrder K] in
theorem metricKey_of_metricUnder {key : List String}
    {m : MetricResult K} (h : metricUnder ms key = some m) : metricKey m = key := by
  simpa using List.find?_some h

omit [Field K] [LinearOrder K] in
theorem id_of_mem_pairedMetrics {pair : MetricResult K × MetricResult K}
    (h : pair ∈ pairedMetrics baseline candidate) :
    pair.1.metricDefinitionId = pair.2.metricDefinitionId := by
  obtain ⟨key, _, hpair⟩ := List.mem_filterMap.mp h
  obtain ⟨b, hb, hpair⟩ := Option.bind_eq_some_iff.mp hpair
  obtain ⟨c, hc, hpair⟩ := Option.bind_eq_some_iff.mp hpair
  cases hpair
  have hkey := (metricKey_of_metricUnder hb).trans (metricKey_of_metricUnder hc).symm
  exact (List.cons.inj hkey).1

def PairImproves (direction : String → Option Direction)
    (pair pair' : MetricResult K × MetricResult K) : Prop :=
  pair'.1 = pair.1 ∧ ValueImproves direction pair.2 pair'.2

theorem pairedMetrics_rel (baseline candidate : ComparedRun K)
    (h : List.Forall₂ (ValueImproves direction) candidate.metrics metrics) :
    List.Forall₂ (PairImproves direction) (pairedMetrics baseline candidate)
      (pairedMetrics baseline { candidate with metrics }) := by
  have hkeys : metrics.map metricKey = candidate.metrics.map metricKey := by
    have hmap : List.Forall₂ (· = ·) (candidate.metrics.map metricKey) (metrics.map metricKey) :=
      List.rel_map (R := ValueImproves direction) (fun _ _ hm => hm.key_eq.symm) h
    exact (List.forall₂_eq_eq_eq ▸ hmap).symm
  unfold pairedMetrics
  rw [hkeys]
  apply List.rel_filterMap (R := (· = ·)) _ (List.forall₂_same.mpr fun _ _ => rfl)
  rintro key _ rfl
  have hunder := metricUnder_rel h key
  change Option.Rel _
    ((metricUnder baseline.metrics key).bind fun b =>
      (metricUnder candidate.metrics key).bind fun c => some (b, c))
    ((metricUnder baseline.metrics key).bind fun b =>
      (metricUnder metrics key).bind fun c => some (b, c))
  cases metricUnder baseline.metrics key with
  | none => exact .none
  | some b =>
    generalize metricUnder candidate.metrics key = o at hunder ⊢
    generalize metricUnder metrics key = o' at hunder ⊢
    cases hunder with
    | none => exact .none
    | some hc => exact .some ⟨rfl, hc⟩

def RowImproves (direction : String → Option Direction) (row row' : MetricDelta K) : Prop :=
  ∃ b c c' : MetricResult K, b.metricDefinitionId = c.metricDefinitionId ∧
    ValueImproves direction c c' ∧ row = metricDelta b c ∧ row' = metricDelta b c'

theorem comparedDeltas_rel (names : String → String) (baseline candidate : ComparedRun K)
    (h : List.Forall₂ (ValueImproves direction) candidate.metrics metrics) :
    List.Forall₂ (RowImproves direction) (comparedDeltas baseline candidate names)
      (comparedDeltas baseline { candidate with metrics } names) := by
  have hpairs := (List.forall₂_and_left (p := fun pair : MetricResult K × MetricResult K =>
    pair.1.metricDefinitionId = pair.2.metricDefinitionId) _ _).mpr
    ⟨fun _ hp => id_of_mem_pairedMetrics hp, pairedMetrics_rel baseline candidate h⟩
  refine List.rel_map ?_ (List.rel_filter ?_ hpairs)
  · rintro ⟨b, c⟩ ⟨b', c'⟩ ⟨hid, rfl, hc⟩
    exact ⟨_, c, c', hid, hc, rfl, rfl⟩
  · rintro ⟨b, c⟩ ⟨b', c'⟩ ⟨_, rfl, _⟩
    exact Iff.rfl

theorem RowImproves.subgroup_eq {row row' : MetricDelta K} (h : RowImproves direction row row') :
    row'.subgroup = row.subgroup ∧ row'.metricDefinitionId = row.metricDefinitionId ∧
      row'.complete = row.complete ∧ row'.sampleCount = row.sampleCount := by
  obtain ⟨b, c, c', _, hc, rfl, rfl⟩ := h
  rcases hc with rfl | ⟨_, _, _, _, _, rfl, _⟩ <;> exact ⟨rfl, rfl, rfl, rfl⟩

theorem comparedRows_rel (input : PipelineInput) (baseline candidate : ComparedRun K)
    (h : List.Forall₂ (ValueImproves direction) candidate.metrics metrics) :
    List.Forall₂ (RowImproves direction) (comparedRows input baseline candidate)
      (comparedRows input baseline { candidate with metrics }) := by
  have hdeltas := comparedDeltas_rel input.metricNames baseline candidate h
  apply List.rel_append
  · apply List.rel_filter _ hdeltas
    intro row row' hrow
    simp [hrow.subgroup_eq.1]
  · apply List.rel_filter _ hdeltas
    intro row row' hrow
    simp [hrow.subgroup_eq.1]

omit [Field K] [LinearOrder K] in
theorem incompatible_iff (names : String → String) (baseline candidate : ComparedRun K) :
    compatibility baseline candidate names = .incompatible ↔
      commonCases baseline candidate = [] ∨
        ((pairedMetrics baseline candidate).filter fun pair =>
          Comparable baseline candidate names pair) = [] ∨
        ∃ reason ∈ incompatibilityReasons baseline candidate,
          reason ∈ ["gold_hash_mismatch", "fixture_hash_mismatch", "adapter_major_hash_mismatch",
            "metric_definition_hash_mismatch"] := by
  unfold compatibility
  dsimp only
  split_ifs with hc hp
  · exact iff_of_true rfl hc
  · exact iff_of_false (by decide) hc
  · exact iff_of_false (by decide) hc

/-- The compatibility of two runs reads no value. -/
theorem compatibility_congr (names : String → String) (baseline candidate : ComparedRun K)
    (h : List.Forall₂ (ValueImproves direction) candidate.metrics metrics) :
    compatibility baseline { candidate with metrics } names = .incompatible ↔
      compatibility baseline candidate names = .incompatible := by
  have hpairs := pairedMetrics_rel baseline candidate h
  have hfilter : ((pairedMetrics baseline { candidate with metrics }).filter fun pair =>
      Comparable baseline { candidate with metrics } names pair) = [] ↔
      ((pairedMetrics baseline candidate).filter fun pair =>
        Comparable baseline candidate names pair) = [] := by
    have hrel := List.rel_filter (p := fun pair => Comparable baseline candidate names pair)
      (q := fun pair => Comparable baseline { candidate with metrics } names pair)
      (R := PairImproves direction) (by
        rintro ⟨b, c⟩ ⟨b', c'⟩ ⟨rfl, _⟩
        exact Iff.rfl) hpairs
    rw [← List.length_eq_zero_iff, ← List.length_eq_zero_iff, hrel.length_eq]
  rw [incompatible_iff, incompatible_iff, hfilter]
  rfl

end Pairs

section Verdicts

variable {direction} {rule : GateRule K} {row row' : MetricDelta K}

omit [Field K] [LinearOrder K] in
theorem gateVerdict_eq_blocked_iff {results : List (GateRuleResult K)} :
    gateVerdict results = .blocked ↔ ∃ result ∈ results, result.verdict = .blocked := by
  unfold gateVerdict
  split_ifs with h
  · exact iff_of_true rfl h
  · exact iff_of_false (by decide) h
  · exact iff_of_false (by decide) h

theorem judgedResult_blocked_iff :
    (judgedResult rule row).verdict = .blocked ↔ rule.severity = .block ∧ ¬ rule.Passes row := by
  unfold judgedResult
  dsimp only
  split_ifs with hpasses hblock <;> simp [*]

theorem pipeline_verdict (input : PipelineInput) (baseline candidate : ComparedRun K)
    (config : RegressionGateConfig K) :
    (pipeline input baseline candidate config).verdict =
      if compatibility baseline candidate input.metricNames = .incompatible then .indeterminate
      else gateVerdict (ruleResults config (comparedRows input baseline candidate)) := by
  unfold pipeline evaluateGate
  rw [show (compareRuns baseline candidate input.metricNames input.ids input.baselineBindingId
    input.comparedAt).scope.compatibility = compatibility baseline candidate input.metricNames
    from rfl]
  split_ifs <;> rfl

variable [IsStrictOrderedRing K]

/-- An aligned rule that passes still passes when its candidate gets better. -/
theorem GateRule.Aligned.passes (h : rule.Aligned direction) (hblock : rule.severity = .block)
    (hrow : RowImproves direction row row') (hid : row.metricDefinitionId = rule.metricDefinitionId)
    (hpasses : rule.Passes row) : rule.Passes row' := by
  obtain ⟨b, c, c', hbc, hc, rfl, rfl⟩ := hrow
  rcases hc with rfl | ⟨d, v, v', hd, hv, rfl, hbetter⟩
  · exact hpasses
  have hdirection : direction rule.metricDefinitionId = some d := by
    rw [← hid]
    change direction b.metricDefinitionId = some d
    rw [hbc]
    exact hd
  have halign := h hblock d hdirection
  unfold GateRule.Passes at hpasses ⊢
  simp only [List.mem_cons, Prod.mk.injEq, List.not_mem_nil, or_false] at halign
  rcases halign with ⟨hcmp, rfl⟩ | ⟨hcmp, rfl⟩ | ⟨hcmp, rfl⟩ | ⟨hcmp, rfl⟩
  · -- only zero passes, and nothing is nearer to zero
    rw [hcmp] at hpasses
    have hzero : v = 0 := Option.some.inj (hv.symm.trans hpasses)
    rw [hzero] at hbetter
    simp only [Direction.Better, abs_zero] at hbetter
    exact absurd hbetter (not_lt.mpr (abs_nonneg v'))
  · rw [hcmp] at hpasses ⊢
    obtain ⟨x, hx, hle⟩ := hpasses
    obtain rfl : v = x := Option.some.inj (hv.symm.trans hx)
    exact ⟨v', rfl, hle.trans hbetter.le⟩
  · rw [hcmp] at hpasses ⊢
    obtain ⟨x, hx, hle⟩ := hpasses
    obtain rfl : v = x := Option.some.inj (hv.symm.trans hx)
    exact ⟨v', rfl, hbetter.le.trans hle⟩
  · rw [hcmp] at hpasses ⊢
    obtain ⟨_, x, hx, hle⟩ := hpasses
    change x ∈ absoluteDelta b.value c.value at hx
    rw [hv] at hx
    cases hb : b.value with
    | none =>
      rw [hb] at hx
      cases hx
    | some β =>
      rw [hb] at hx
      obtain rfl : v - β = x := Option.some.inj hx
      refine ⟨by simp [metricDelta], v' - β, ?_, ?_⟩
      · change v' - β ∈ absoluteDelta b.value (some v')
        rw [hb]
        rfl
      · have hlt : v < v' := hbetter
        linarith

omit [Field K] [LinearOrder K] [IsStrictOrderedRing K] in
theorem id_of_row {deltas : List (MetricDelta K)} (h : rule.row deltas = some row) :
    row.metricDefinitionId = rule.metricDefinitionId := by
  have hselects : rule.Selects row := by simpa using List.find?_some h
  exact hselects.1

/-- An aligned rule that does not block still does not when candidates get better. -/
theorem GateRule.Aligned.not_blocked (h : rule.Aligned direction) {rows rows' : List (MetricDelta K)}
    (hrows : List.Forall₂ (RowImproves direction) rows rows') (hard : Bool)
    (hverdict : (evaluateRule rule rows hard).verdict ≠ .blocked) :
    (evaluateRule rule rows' hard).verdict ≠ .blocked := by
  have hfind : Option.Rel (RowImproves direction) (rule.row rows) (rule.row rows') := by
    apply find?_rel hrows
    intro row row' hrow
    obtain ⟨hsub, hid, _⟩ := hrow.subgroup_eq
    apply decide_eq_decide.mpr
    unfold GateRule.Selects
    rw [hsub, hid]
  unfold evaluateRule at hverdict ⊢
  cases hrow : rule.row rows with
  | none =>
    rw [hrow] at hfind hverdict
    cases hrow' : rule.row rows' with
    | none => exact hverdict
    | some _ =>
      rw [hrow'] at hfind
      cases hfind
  | some row =>
    rw [hrow] at hfind hverdict
    cases hrow' : rule.row rows' with
    | none =>
      rw [hrow'] at hfind
      cases hfind
    | some row' =>
      rw [hrow'] at hfind
      obtain ⟨himproves⟩ := hfind
      obtain ⟨_, _, hcomplete, hsamples⟩ := himproves.subgroup_eq
      have hjudges : rule.Judges row' ↔ rule.Judges row := by
        unfold GateRule.Judges
        rw [hcomplete, hsamples]
      dsimp only at hverdict ⊢
      by_cases hj : rule.Judges row
      · rw [if_pos hj, Ne, judgedResult_blocked_iff, not_and, not_not] at hverdict
        rw [if_pos (hjudges.mpr hj), Ne, judgedResult_blocked_iff, not_and, not_not]
        intro hblock
        exact h.passes hblock himproves (id_of_row hrow) (hverdict hblock)
      · rw [if_neg hj] at hverdict
        rw [if_neg fun hj' => hj (hjudges.mp hj')]
        exact hverdict

variable {config : RegressionGateConfig K}

omit [IsStrictOrderedRing K] in
theorem mem_ruleResults {rows : List (MetricDelta K)} {result : GateRuleResult K} :
    result ∈ ruleResults config rows ↔ ∃ rule hard, evaluateRule rule rows hard = result ∧
      (rule ∈ config.hardRules ∧ hard = true ∨
        (rule ∈ config.qualityRules ∨ rule ∈ config.performanceRules) ∧ hard = false) := by
  simp only [ruleResults, List.mem_append, List.mem_map]
  constructor
  · rintro ((⟨rule, hrule, rfl⟩ | ⟨rule, hrule, rfl⟩) | ⟨rule, hrule, rfl⟩)
    · exact ⟨rule, true, rfl, .inl ⟨hrule, rfl⟩⟩
    · exact ⟨rule, false, rfl, .inr ⟨.inl hrule, rfl⟩⟩
    · exact ⟨rule, false, rfl, .inr ⟨.inr hrule, rfl⟩⟩
  · rintro ⟨rule, hard, rfl, ⟨hrule, rfl⟩ | ⟨hrule | hrule, rfl⟩⟩
    · exact .inl (.inl ⟨rule, hrule, rfl⟩)
    · exact .inl (.inr ⟨rule, hrule, rfl⟩)
    · exact .inr ⟨rule, hrule, rfl⟩

omit [Field K] [LinearOrder K] [IsStrictOrderedRing K] in
theorem mem_rules : rule ∈ config.rules ↔ rule ∈ config.hardRules ∨ rule ∈ config.qualityRules ∨
      rule ∈ config.performanceRules := by
  simp [RegressionGateConfig.rules]

theorem GateRule.Aligned.passes_improved (h : rule.Aligned direction)
    (hblock : rule.severity = .block)
    (hdrop : rule.comparison ∈ [RuleComparison.maxAbsoluteDrop, .maxRelativeDrop])
    {b c : MetricResult K} (hid : b.metricDefinitionId = rule.metricDefinitionId)
    {d : Direction} {x y : K} (hd : direction b.metricDefinitionId = some d)
    (hb : b.value = some x) (hc : c.value = some y) (hbetter : d.Better y x) :
    rule.Passes (metricDelta b c) := by
  have halign := h hblock d (hid ▸ hd)
  simp only [List.mem_cons, Prod.mk.injEq, List.not_mem_nil, or_false] at halign hdrop
  rcases halign with ⟨hcmp, rfl⟩ | ⟨hcmp, rfl⟩ | ⟨hcmp, rfl⟩ | ⟨hcmp, rfl⟩
  · simp [hcmp] at hdrop
  · simp [hcmp] at hdrop
  · simp [hcmp] at hdrop
  · unfold GateRule.Passes
    rw [hcmp]
    refine ⟨by simp [metricDelta, hc], y - x, ?_, ?_⟩
    · change y - x ∈ absoluteDelta b.value c.value
      rw [hb, hc]
      rfl
    · have hlt : x < y := hbetter
      linarith [abs_nonneg rule.threshold]

/-- An aligned rule does not pass a candidate that is worse than it allows. -/
theorem GateRule.Aligned.not_passes (h : rule.Aligned direction) (hblock : rule.severity = .block)
    {b c : MetricResult K} (hexceeded : rule.Exceeded direction (metricDelta b c)) :
    ¬ rule.Passes (metricDelta b c) := by
  obtain ⟨d, v, hd, hv, hworse⟩ := hexceeded
  have hc : c.value = some v := hv
  have halign := h hblock d hd
  simp only [List.mem_cons, Prod.mk.injEq, List.not_mem_nil, or_false] at halign
  unfold GateRule.Passes
  rcases halign with ⟨hcmp, rfl⟩ | ⟨hcmp, rfl⟩ | ⟨hcmp, rfl⟩ | ⟨hcmp, rfl⟩ <;>
    rw [hcmp] at hworse ⊢
  · intro hzero
    have hv0 : v = 0 := Option.some.inj (hc.symm.trans hzero)
    simp [Direction.Better, hv0] at hworse
  · rintro ⟨x, hx, hle⟩
    obtain rfl : v = x := Option.some.inj (hc.symm.trans hx)
    exact absurd hle (not_le.mpr hworse)
  · rintro ⟨x, hx, hle⟩
    obtain rfl : v = x := Option.some.inj (hc.symm.trans hx)
    exact absurd hle (not_le.mpr hworse)
  · rintro ⟨_, x, hx, hle⟩
    obtain ⟨β, hβ, hloss⟩ := hworse
    have hb : b.value = some β := hβ
    change x ∈ absoluteDelta b.value c.value at hx
    rw [hb, hc] at hx
    obtain rfl : v - β = x := Option.some.inj hx
    simp only [Direction.loss] at hloss
    linarith

omit [IsStrictOrderedRing K] in
theorem exists_pair_of_row {input : PipelineInput}
    (h : rule.row (comparedRows input baseline candidate) = some row) :
    ∃ pair ∈ pairedMetrics baseline candidate, row = metricDelta pair.1 pair.2 := by
  have hmem : row ∈ comparedDeltas baseline candidate input.metricNames := by
    have hrow := List.mem_of_find?_eq_some h
    rw [comparedRows, List.mem_append, List.mem_filter, List.mem_filter] at hrow
    rcases hrow with hrow | hrow <;> exact hrow.1
  obtain ⟨pair, hpair, rfl⟩ := List.mem_map.mp hmem
  exact ⟨pair, (List.mem_filter.mp hpair).1, rfl⟩

/-- A configuration of aligned rules is direction-aware and monotone. -/
theorem directionSound_of_aligned
    (h : ∀ rule ∈ config.rules, rule.Aligned direction) : DirectionSound direction config := by
  refine ⟨?_, ?_, ?_⟩
  · intro input baseline candidate metrics himproves hpassed
    have hrel := forall₂_of_oneImproves himproves
    have hrows := comparedRows_rel input baseline candidate hrel
    rw [pipeline_verdict] at hpassed ⊢
    rw [if_congr (compatibility_congr input.metricNames baseline candidate hrel) rfl rfl]
    split_ifs at hpassed ⊢ with hcompat
    rw [Ne, gateVerdict_eq_blocked_iff]
    have hnone : ¬ ∃ result ∈ ruleResults config (comparedRows input baseline candidate),
        result.verdict = .blocked := by
      rw [← gateVerdict_eq_blocked_iff, hpassed]
      decide
    rintro ⟨result, hresult, hblocked⟩
    obtain ⟨rule, hard, rfl, hwhere⟩ := mem_ruleResults.mp hresult
    have hrule : rule ∈ config.rules := by
      rw [mem_rules]
      rcases hwhere with ⟨h, _⟩ | ⟨h, _⟩
      · exact .inl h
      · exact .inr h
    refine (h rule hrule).not_blocked hrows hard ?_ hblocked
    intro hold
    exact hnone ⟨_, mem_ruleResults.mpr ⟨rule, hard, rfl, hwhere⟩, hold⟩
  · intro input baseline candidate himproves rule hrule hdrop row hjudged
    rw [Ne, judgedResult_blocked_iff, not_and, not_not]
    intro hblock
    obtain ⟨pair, hpair, rfl⟩ := exists_pair_of_row hjudged.2.1
    obtain ⟨d, x, y, hd, hb, hc, hbetter⟩ := himproves pair hpair
    exact (h rule hrule).passes_improved hblock hdrop (id_of_row hjudged.2.1) hd hb hc hbetter
  · intro input baseline candidate rule hrule hblock row hjudged hexceeded
    obtain ⟨pair, _, rfl⟩ := exists_pair_of_row hjudged.2.1
    have hfails := (h rule hrule).not_passes hblock hexceeded
    rw [pipeline_verdict, if_neg hjudged.1, gateVerdict_eq_blocked_iff]
    have hresult : ∀ hard, evaluateRule rule (comparedRows input baseline candidate) hard =
        judgedResult rule (metricDelta pair.1 pair.2) := by
      intro hard
      unfold evaluateRule
      rw [hjudged.2.1]
      exact if_pos hjudged.2.2
    have hblocked := judgedResult_blocked_iff.mpr ⟨hblock, hfails⟩
    rcases mem_rules.mp hrule with hin | hin
    · exact ⟨_, mem_ruleResults.mpr ⟨rule, true, hresult true, .inl ⟨hin, rfl⟩⟩, hblocked⟩
    · exact ⟨_, mem_ruleResults.mpr ⟨rule, false, hresult false, .inr ⟨hin, rfl⟩⟩, hblocked⟩

end Verdicts

end CodeResearch.Evaluation
