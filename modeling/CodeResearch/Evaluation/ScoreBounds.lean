import CodeResearch.Evaluation.Metrics

/-!
# The range of the scores

Each formula of the metric engine has its values between zero and one, and is one when
what was found is the gold. For the discounted gain this needs a ranking that does not
repeat a gold item.
-/
namespace CodeResearch.Evaluation

/-- A discount of ranks: positive, and no larger for a later rank. -/
structure Discount (K : Type) [Field K] [LinearOrder K] where
  value : ℕ → K
  pos : ∀ rank, 1 ≤ rank → 0 < value rank
  anti : ∀ rank, 1 ≤ rank → value (rank + 1) ≤ value rank

/-- `1 / math.log2(rank + 1)`. -/
noncomputable def log2Discount : Discount ℝ where
  value rank := 1 / Real.logb (2 : ℕ) (rank + 1)
  pos rank hrank := by
    have : (1 : ℝ) < rank + 1 := by exact_mod_cast Nat.lt_succ_of_le hrank
    exact one_div_pos.mpr (Real.logb_pos (Nat.one_lt_cast.mpr one_lt_two) this)
  anti rank hrank := by
    have hlt : (1 : ℝ) < rank + 1 := by exact_mod_cast Nat.lt_succ_of_le hrank
    have hle : (rank : ℝ) + 1 ≤ (rank + 1 : ℕ) + 1 := by push_cast; linarith
    have htwo : (1 : ℝ) < (2 : ℕ) := Nat.one_lt_cast.mpr one_lt_two
    apply one_div_le_one_div_of_le (Real.logb_pos htwo hlt)
    exact Real.logb_le_logb_of_le htwo (by linarith) hle

variable {K : Type} [Field K] [LinearOrder K] [IsStrictOrderedRing K]

variable {values : List K} {gold : Finset String} {ranking : List String} {bins : ℕ}
  {predictions : List (K × Bool)}

theorem sum_mem_Icc (h : ∀ v ∈ values, v ∈ Set.Icc (0 : K) 1) :
    values.sum ∈ Set.Icc (0 : K) values.length := by
  constructor
  · exact List.sum_nonneg fun v hv => (h v hv).1
  · have := List.sum_le_card_nsmul values 1 fun v hv => (h v hv).2
    rwa [nsmul_one] at this

theorem mean_mem_Icc (h : ∀ v ∈ values, v ∈ Set.Icc (0 : K) 1) {m : K}
    (hm : mean values = some m) : m ∈ Set.Icc (0 : K) 1 := by
  unfold mean at hm
  split_ifs at hm with hnil
  obtain rfl := Option.some.inj hm
  obtain ⟨hlow, hhigh⟩ := sum_mem_Icc h
  have hpos : (0 : K) < values.length := by exact_mod_cast List.length_pos_iff.mpr hnil
  exact ⟨div_nonneg hlow hpos.le, (div_le_one hpos).mpr hhigh⟩

theorem mean_eq_one (h : ∀ v ∈ values, v = 1) (hne : values.length ≠ 0) : mean values = some 1 := by
  have hsum : values.sum = values.length := by
    rw [List.eq_replicate_of_mem h, List.sum_replicate, nsmul_one, List.length_replicate]
  have hcast : (values.length : K) ≠ 0 := by exact_mod_cast hne
  unfold mean
  rw [if_neg fun hnil => hne (by rw [hnil]; rfl), hsum, div_self hcast]

theorem ratio_mem_Icc {numerator denominator : ℕ} (h : numerator ≤ denominator) {r : K}
    (hr : ratio numerator denominator = some r) : r ∈ Set.Icc (0 : K) 1 := by
  unfold ratio at hr
  split_ifs at hr with hzero
  obtain rfl := Option.some.inj hr
  have hpos : (0 : K) < denominator := by exact_mod_cast Nat.pos_of_ne_zero hzero
  exact ⟨by positivity, (div_le_one hpos).mpr (by exact_mod_cast h)⟩

theorem ratio_self {n : ℕ} (hn : n ≠ 0) : (ratio n n : Option K) = some 1 := by
  have : (n : K) ≠ 0 := by exact_mod_cast hn
  unfold ratio
  rw [if_neg hn, div_self this]

section Sets

variable {α : Type} [DecidableEq α] (found gold : Finset α)

theorem coverage_mem_Icc : (coverage found gold : K) ∈ Set.Icc (0 : K) 1 := by
  unfold coverage
  split_ifs with hgold
  · exact ⟨zero_le_one, le_rfl⟩
  · have hpos : (0 : K) < gold.card := by
      exact_mod_cast Finset.card_pos.mpr (Finset.nonempty_iff_ne_empty.mpr hgold)
    refine ⟨by positivity, (div_le_one hpos).mpr ?_⟩
    exact_mod_cast Finset.card_le_card Finset.inter_subset_right

variable {found gold}

theorem coverage_eq_one (h : gold ⊆ found) : (coverage found gold : K) = 1 := by
  unfold coverage
  split_ifs with hgold
  · rfl
  · have : (gold.card : K) ≠ 0 := by exact_mod_cast mt Finset.card_eq_zero.mp hgold
    rw [Finset.inter_eq_right.mpr h, div_self this]

variable (found gold)

theorem f1_mem_Icc : (f1 found gold : K) ∈ Set.Icc (0 : K) 1 := by
  unfold f1
  split_ifs with hempty
  · exact ⟨zero_le_one, le_rfl⟩
  · dsimp only
    set p : K := ((found ∩ gold).card : K) / found.card
    set r : K := ((found ∩ gold).card : K) / gold.card
    have hp : 0 ≤ p := by positivity
    have hr : 0 ≤ r := by positivity
    have hp1 : p ≤ 1 := div_le_one_of_le₀
      (by exact_mod_cast Finset.card_le_card Finset.inter_subset_left) (by positivity)
    have hr1 : r ≤ 1 := div_le_one_of_le₀
      (by exact_mod_cast Finset.card_le_card Finset.inter_subset_right) (by positivity)
    refine ⟨by positivity, div_le_one_of_le₀ ?_ (by positivity)⟩
    -- twice the product is at most the sum of the products with one
    nlinarith [mul_le_mul_of_nonneg_left hr1 hp, mul_le_mul_of_nonneg_right hp1 hr]

theorem f1_self : (f1 gold gold : K) = 1 := by
  unfold f1
  by_cases hgold : gold = ∅
  · rw [if_pos ⟨hgold, hgold⟩]
  · have : (gold.card : K) ≠ 0 := by exact_mod_cast mt Finset.card_eq_zero.mp hgold
    rw [if_neg fun h => hgold h.1, Finset.inter_self, div_self this]
    norm_num

end Sets

theorem reciprocalRank_mem_Icc (ranking : List String) (gold : Finset String) :
    (reciprocalRank ranking gold : K) ∈ Set.Icc (0 : K) 1 := by
  unfold reciprocalRank
  split_ifs
  · have hone : (1 : K) ≤ (ranking.findIdx (· ∈ gold) + 1 : ℕ) := by
      exact_mod_cast Nat.le_add_left 1 _
    exact ⟨by positivity, div_le_one_of_le₀ hone (by positivity)⟩
  · exact ⟨le_rfl, zero_le_one⟩

theorem reciprocalRank_eq_one {item : String}
    (h : item ∈ gold) : (reciprocalRank (item :: ranking) gold : K) = 1 := by
  have hidx : (item :: ranking).findIdx (· ∈ gold) = 0 := by
    rw [List.findIdx_cons, decide_eq_true h, cond_true]
  unfold reciprocalRank
  rw [hidx, if_pos (by simp)]
  norm_num

section Gain

variable (discount : Discount K) (gold : Finset String)

/-- What the first `count` ranks from `start` would give. -/
def idealGain (start count : ℕ) : K := ((List.range' start count).map discount.value).sum

def gain (start : ℕ) (items : List String) : K :=
  ((items.zipIdx start).map fun (item, rank) =>
    if item ∈ gold then discount.value rank else 0).sum

omit [IsStrictOrderedRing K] in
theorem idealGain_succ (start count : ℕ) :
    idealGain discount start (count + 1) = discount.value start + idealGain discount (start + 1) count := by
  rw [idealGain, List.range'_succ, List.map_cons, List.sum_cons]
  rfl

variable {start : ℕ} (hstart : 1 ≤ start)

include hstart

theorem idealGain_nonneg (count : ℕ) : 0 ≤ idealGain discount start count := by
  apply List.sum_nonneg
  intro v hv
  obtain ⟨rank, hrank, rfl⟩ := List.mem_map.mp hv
  exact (discount.pos rank (hstart.trans (List.mem_range'_1.mp hrank).1)).le

theorem idealGain_pos {count : ℕ} (hcount : count ≠ 0) : 0 < idealGain discount start count := by
  obtain ⟨n, rfl⟩ := Nat.exists_eq_succ_of_ne_zero hcount
  rw [Nat.succ_eq_add_one, idealGain_succ]
  exact add_pos_of_pos_of_nonneg (discount.pos start hstart)
    (idealGain_nonneg discount (Nat.le_succ_of_le hstart) n)

theorem idealGain_shift (count : ℕ) :
    idealGain discount (start + 1) count ≤ idealGain discount start count := by
  induction count generalizing start with
  | zero => exact le_rfl
  | succ n ih =>
    rw [idealGain_succ, idealGain_succ]
    exact add_le_add (discount.anti start hstart) (ih (Nat.le_succ_of_le hstart))

theorem idealGain_mono {m n : ℕ} (h : m ≤ n) :
    idealGain discount start m ≤ idealGain discount start n := by
  induction n generalizing m start with
  | zero => rw [Nat.le_zero.mp h]
  | succ n ih =>
    cases m with
    | zero => exact idealGain_nonneg discount hstart _
    | succ m =>
      rw [idealGain_succ, idealGain_succ]
      exact add_le_add_right (ih (Nat.le_succ_of_le hstart) (Nat.le_of_succ_le_succ h)) _

theorem gain_nonneg (items : List String) : 0 ≤ gain discount gold start items := by
  apply List.sum_nonneg
  intro v hv
  obtain ⟨⟨item, rank⟩, hmem, rfl⟩ := List.mem_map.mp hv
  dsimp only
  split_ifs
  · exact (discount.pos rank (hstart.trans (List.le_snd_of_mem_zipIdx hmem))).le
  · exact le_rfl

/-- The gold items of a ranking give at most what as many first ranks would give. -/
theorem gain_le (items : List String) : gain discount gold start items ≤
    idealGain discount start (items.countP (· ∈ gold)) := by
  induction items generalizing start with
  | nil => exact le_rfl
  | cons item items ih =>
    have hrest := ih (Nat.le_succ_of_le hstart)
    rw [gain, List.zipIdx_cons, List.map_cons, List.sum_cons]
    dsimp only
    by_cases hitem : item ∈ gold
    · rw [if_pos hitem, List.countP_cons_of_pos (by simpa using hitem), idealGain_succ]
      exact add_le_add_right hrest _
    · rw [if_neg hitem, zero_add, List.countP_cons_of_neg (by simpa using hitem)]
      exact hrest.trans (idealGain_shift discount hstart _)

omit hstart [IsStrictOrderedRing K] in
theorem gain_eq {items : List String} (h : ∀ item ∈ items, item ∈ gold) :
    gain discount gold start items = idealGain discount start items.length := by
  induction items generalizing start with
  | nil => rfl
  | cons item items ih =>
    obtain ⟨hitem, hitems⟩ := List.forall_mem_cons.mp h
    rw [gain, List.zipIdx_cons, List.map_cons, List.sum_cons]
    dsimp only
    rw [if_pos hitem, List.length_cons, idealGain_succ]
    exact congrArg (discount.value start + ·) (ih hitems)

end Gain

variable (discount : Discount K)

omit [IsStrictOrderedRing K] in
theorem ndcg_eq (ranking : List String) (gold : Finset String) (k : ℕ) :
    ndcg discount.value ranking gold k = if gold = ∅ then 1
      else gain discount gold 1 (ranking.take k) / idealGain discount 1 (min gold.card k) := rfl

theorem ndcg_mem_Icc {k : ℕ} (hnodup : ((ranking.take k).filter (· ∈ gold)).Nodup) :
    ndcg discount.value ranking gold k ∈ Set.Icc (0 : K) 1 := by
  rw [ndcg_eq]
  split_ifs with hgold
  · exact ⟨zero_le_one, le_rfl⟩
  · have hcount : (ranking.take k).countP (· ∈ gold) ≤ min gold.card k := by
      apply le_min
      · rw [List.countP_eq_length_filter, ← List.toFinset_card_of_nodup hnodup]
        apply Finset.card_le_card
        intro item hitem
        simpa using (List.mem_filter.mp (List.mem_toFinset.mp hitem)).2
      · exact List.countP_le_length.trans (List.length_take_le _ _)
    refine ⟨div_nonneg (gain_nonneg discount gold le_rfl _) (idealGain_nonneg discount le_rfl _), ?_⟩
    apply div_le_one_of_le₀ _ (idealGain_nonneg discount le_rfl _)
    exact (gain_le discount gold le_rfl _).trans (idealGain_mono discount le_rfl hcount)

theorem ndcg_eq_one {k : ℕ} (hk : k ≠ 0) (hnodup : ranking.Nodup) (hset : ranking.toFinset = gold) :
    ndcg discount.value ranking gold k = 1 := by
  rw [ndcg_eq]
  split_ifs with hgold
  · rfl
  · have hcard : gold.card = ranking.length := by
      rw [← hset, List.toFinset_card_of_nodup hnodup]
    have hpos : 0 < gold.card := Finset.card_pos.mpr (Finset.nonempty_iff_ne_empty.mpr hgold)
    have hitems : ∀ item ∈ ranking.take k, item ∈ gold := by
      intro item hitem
      rw [← hset]
      exact List.mem_toFinset.mpr (List.mem_of_mem_take hitem)
    rw [gain_eq discount gold hitems, List.length_take, hcard, min_comm]
    exact div_self (idealGain_pos discount le_rfl (by omega)).ne'

theorem brier_mem_Icc {probability : K} (h : probability ∈ Set.Icc (0 : K) 1) (label : Bool) :
    (probability - if label then 1 else 0) ^ 2 ∈ Set.Icc (0 : K) 1 := by
  refine ⟨sq_nonneg _, ?_⟩
  obtain ⟨hlow, hhigh⟩ := h
  rw [sq_le_one_iff_abs_le_one, abs_le]
  cases label
  · exact ⟨by simpa using by linarith, by simpa using hhigh⟩
  · exact ⟨by simpa using hlow, by simpa using by linarith⟩

/-- The predictions of a bin of `_ece`. -/
def binMembers (predictions : List (K × Bool)) (bins i : ℕ) : List (K × Bool) :=
  predictions.filter fun p =>
    (i : K) / bins ≤ p.1 ∧ if i = bins - 1 then p.1 ≤ ((i : K) + 1) / bins
      else p.1 < ((i : K) + 1) / bins

/-- A bin in `_ece`: its share times the distance of confidence and accuracy. -/
def binError (predictions : List (K × Bool)) (bins i : ℕ) : K :=
  let members := binMembers predictions bins i
  if members = [] then 0
  else (members.length : K) / predictions.length *
    |(members.map Prod.fst).sum / members.length -
      ((members.countP fun p => p.2) : K) / members.length|

omit [IsStrictOrderedRing K] in
theorem ece_eq (predictions : List (K × Bool)) (bins : ℕ) : ece predictions bins =
    if predictions = [] then none
    else some ((List.range bins).map (binError predictions bins)).sum := rfl

theorem bins_disjoint {i j : ℕ} (hij : i < j) (hj : j < bins)
    {p : K × Bool} (hi : p ∈ binMembers predictions bins i) :
    p ∉ binMembers predictions bins j := by
  intro hmem
  have hupper := (of_decide_eq_true (List.mem_filter.mp hi).2).2
  have hlower := (of_decide_eq_true (List.mem_filter.mp hmem).2).1
  rw [if_neg (by omega)] at hupper
  have hle : ((i : K) + 1) / bins ≤ (j : K) / bins := by
    gcongr
    exact_mod_cast hij
  exact absurd (hupper.trans_le (hle.trans hlower)) (lt_irrefl _)

/-- Of disjoint predicates at most one holds. -/
theorem sum_holding_le_one {holds : ℕ → Bool} (h : ∀ i j, i < j → j < bins → holds i → ¬ holds j) :
    ((List.range bins).map fun i => if holds i then 1 else 0).sum ≤ 1 := by
  induction bins with
  | zero => exact Nat.zero_le _
  | succ n ih =>
    rw [List.range_succ, List.map_append, List.sum_append, List.map_singleton, List.sum_singleton]
    by_cases hlast : holds n
    · have hrest : ((List.range n).map fun i => if holds i then 1 else 0).sum = 0 := by
        apply List.sum_eq_zero
        intro v hv
        obtain ⟨i, hi, rfl⟩ := List.mem_map.mp hv
        exact if_neg fun hhold => h i n (List.mem_range.mp hi) (Nat.lt_succ_self n) hhold hlast
      rw [hrest, if_pos hlast]
    · rw [if_neg hlast]
      exact ih fun i j hij hj => h i j hij (Nat.lt_succ_of_lt hj)

theorem sum_countP_le {α : Type} {p : ℕ → α → Bool} {items : List α}
    (h : ∀ item ∈ items, ∀ i j, i < j → j < bins → p i item → ¬ p j item) :
    ((List.range bins).map fun i => items.countP (p i)).sum ≤ items.length := by
  induction items with
  | nil => simp
  | cons item items ih =>
    obtain ⟨hitem, hitems⟩ := List.forall_mem_cons.mp h
    simp only [List.countP_cons, List.sum_map_add, List.length_cons]
    exact add_le_add (ih hitems) (sum_holding_le_one hitem)

theorem sum_binMembers_le (predictions : List (K × Bool)) (bins : ℕ) :
    ((List.range bins).map fun i => (binMembers predictions bins i).length).sum ≤
      predictions.length := by
  simp only [binMembers, ← List.countP_eq_length_filter]
  apply sum_countP_le
  intro item hitem i j hij hj hi hmem
  exact bins_disjoint hij hj (List.mem_filter.mpr ⟨hitem, hi⟩) (List.mem_filter.mpr ⟨hitem, hmem⟩)

theorem binError_mem_Icc (h : ∀ p ∈ predictions, p.1 ∈ Set.Icc (0 : K) 1) (i : ℕ) :
    binError predictions bins i ∈
      Set.Icc (0 : K) ((binMembers predictions bins i).length / predictions.length) := by
  unfold binError
  dsimp only
  set members := binMembers predictions bins i with hmembers
  split_ifs with hnil
  · exact ⟨le_rfl, by positivity⟩
  · refine ⟨by positivity, mul_le_of_le_one_right (by positivity) ?_⟩
    have hpos : (0 : K) < members.length := by exact_mod_cast List.length_pos_iff.mpr hnil
    have hvalues : ∀ v ∈ members.map Prod.fst, v ∈ Set.Icc (0 : K) 1 := by
      intro v hv
      obtain ⟨p, hp, rfl⟩ := List.mem_map.mp hv
      exact h p (List.mem_filter.mp hp).1
    have hsum := sum_mem_Icc hvalues
    have hcount : ((members.countP fun p => p.2 : ℕ) : K) ≤ members.length := by
      exact_mod_cast List.countP_le_length
    rw [List.length_map] at hsum
    rw [← sub_div, abs_div, abs_of_pos hpos, div_le_one hpos, abs_le]
    have hzero : (0 : K) ≤ (members.countP fun p => p.2 : ℕ) := Nat.cast_nonneg _
    constructor <;> linarith [hsum.1, hsum.2]

theorem ece_mem_Icc (h : ∀ p ∈ predictions, p.1 ∈ Set.Icc (0 : K) 1) {score : K}
    (hscore : ece predictions bins = some score) : score ∈ Set.Icc (0 : K) 1 := by
  rw [ece_eq] at hscore
  split_ifs at hscore with hnil
  obtain rfl := Option.some.inj hscore
  have hpos : (0 : K) < predictions.length := by exact_mod_cast List.length_pos_iff.mpr hnil
  constructor
  · apply List.sum_nonneg
    intro v hv
    obtain ⟨i, _, rfl⟩ := List.mem_map.mp hv
    exact (binError_mem_Icc h i).1
  · calc ((List.range bins).map (binError predictions bins)).sum
        ≤ ((List.range bins).map fun i =>
            ((binMembers predictions bins i).length : K) / predictions.length).sum :=
          List.sum_le_sum fun i _ => (binError_mem_Icc h i).2
      _ = (((List.range bins).map fun i => (binMembers predictions bins i).length).sum : ℕ) /
            (predictions.length : K) := by
          simp only [div_eq_mul_inv]
          rw [List.sum_map_mul_right, Nat.cast_list_sum, List.map_map]
          rfl
      _ ≤ 1 := by
          rw [div_le_one hpos]
          exact_mod_cast sum_binMembers_le predictions bins

end CodeResearch.Evaluation
