import Mathlib.Algebra.Order.BigOperators.Group.List
import Mathlib.Data.Rat.Floor

/-!
# Score calibration

`MonotonicBinningCalibrator.fit` estimates a probability for each of `bin_count` bins of
equal width and pools the estimates by a running maximum. A bin of `fit` is half open, and
the last one is closed; `predict` takes the first bin whose closed interval has the score.
-/
namespace CodeResearch.Alignment

structure CalibrationExample where
  repoPaperPairId : String
  score : ℚ
  label : ℕ
  deriving DecidableEq

structure CalibrationBin where
  lower : ℚ
  upper : ℚ
  probability : ℚ
  sampleCount : ℕ
  deriving DecidableEq

namespace Calibrator

/-- `1.0 / max(1, bin_count)`. -/
def width (binCount : ℕ) : ℚ := 1 / (max 1 binCount : ℕ)

def lower (binCount index : ℕ) : ℚ := index * width binCount

def upper (binCount index : ℕ) : ℚ :=
  if index = binCount - 1 then 1 else (index + 1) * width binCount

/-- The condition under which `fit` selects an example for a bin. -/
def Counted (binCount index : ℕ) (score : ℚ) : Prop :=
  (lower binCount index ≤ score ∧ score ≤ upper binCount index) ∧
    (index = binCount - 1 ∨ score < upper binCount index)

instance (binCount index : ℕ) (score : ℚ) : Decidable (Counted binCount index score) :=
  inferInstanceAs (Decidable (_ ∧ _))

def selected (examples : List CalibrationExample) (binCount index : ℕ) : List CalibrationExample :=
  examples.filter fun item => Counted binCount index item.score

/-- The estimate of a bin from the examples that it selects. -/
def laplace (examples : List CalibrationExample) : ℚ :=
  ((examples.map CalibrationExample.label).sum + 1) / (examples.length + 2)

/-- One turn of the loop of `fit`, with `previous` and `raw`. -/
def fitStep (examples : List CalibrationExample) (binCount : ℕ)
    (s : ℚ × List CalibrationBin) (index : ℕ) : ℚ × List CalibrationBin :=
  let chosen := selected examples binCount index
  let probability := max s.1 (laplace chosen)
  (probability,
    s.2 ++ [⟨lower binCount index, upper binCount index, probability, chosen.length⟩])

/-- `MonotonicBinningCalibrator.fit`. -/
def fit (examples : List CalibrationExample) (binCount : ℕ) : List CalibrationBin :=
  if examples = [] then [⟨0, 1, 1 / 2, 0⟩]
  else ((List.range binCount).foldl (fitStep examples binCount) (0, [])).2

/-- `MonotonicBinningCalibrator.predict`, which raises without bins. -/
def predict (bins : List CalibrationBin) (score : ℚ) : Option ℚ :=
  let value := max 0 (min 1 score)
  match bins.find? fun item => item.lower ≤ value ∧ value ≤ item.upper with
  | some item => some item.probability
  | none => bins.getLast?.map CalibrationBin.probability

section Fit

variable (examples : List CalibrationExample) (binCount : ℕ)

/-- The running maximum of the estimates. -/
def pooled : ℕ → ℚ
  | 0 => max 0 (laplace (selected examples binCount 0))
  | index + 1 => max (pooled index) (laplace (selected examples binCount (index + 1)))

def fittedBin (index : ℕ) : CalibrationBin :=
  ⟨lower binCount index, upper binCount index, pooled examples binCount index,
    (selected examples binCount index).length⟩

theorem foldl_fitStep (k : ℕ) :
    (List.range (k + 1)).foldl (fitStep examples binCount) (0, []) =
      (pooled examples binCount k, (List.range (k + 1)).map (fittedBin examples binCount)) := by
  induction k with
  | zero => rfl
  | succ k ih =>
    rw [List.range_succ, List.foldl_append, ih, List.map_append]
    rfl

variable {examples binCount}

theorem fit_eq (hexamples : examples ≠ []) :
    fit examples binCount = (List.range binCount).map (fittedBin examples binCount) := by
  unfold fit
  rw [if_neg hexamples]
  cases binCount with
  | zero => rfl
  | succ k => rw [foldl_fitStep]

theorem getElem?_fit (hexamples : examples ≠ []) {index : ℕ} {bin : CalibrationBin} :
    (fit examples binCount)[index]? = some bin ↔
      index < binCount ∧ bin = fittedBin examples binCount index := by
  rw [fit_eq hexamples, List.getElem?_map, Option.map_eq_some_iff]
  constructor
  · rintro ⟨i, hi, rfl⟩
    obtain ⟨hlt, rfl⟩ := List.getElem?_eq_some_iff.mp hi
    rw [List.length_range] at hlt
    rw [List.getElem_range]
    exact ⟨hlt, rfl⟩
  · rintro ⟨hlt, rfl⟩
    exact ⟨index, List.getElem?_range hlt, rfl⟩

theorem laplace_pos (chosen : List CalibrationExample) : 0 < laplace chosen := by
  unfold laplace
  positivity

theorem laplace_lt_one {chosen : List CalibrationExample} (hlabels : ∀ e ∈ chosen, e.label ≤ 1) :
    laplace chosen < 1 := by
  have hsum : (chosen.map CalibrationExample.label).sum ≤ chosen.length := by
    have := List.sum_le_card_nsmul (chosen.map CalibrationExample.label) 1
      (by simpa using hlabels)
    simpa using this
  unfold laplace
  rw [div_lt_one (by positivity)]
  have : ((chosen.map CalibrationExample.label).sum : ℚ) ≤ chosen.length := by exact_mod_cast hsum
  linarith

theorem laplace_le_pooled (index : ℕ) :
    laplace (selected examples binCount index) ≤ pooled examples binCount index := by
  cases index <;> exact le_max_right _ _

theorem pooled_mono : Monotone (pooled examples binCount) :=
  monotone_nat_of_le_succ fun _ => le_max_left _ _

theorem pooled_pos (index : ℕ) : 0 < pooled examples binCount index :=
  (laplace_pos _).trans_le (laplace_le_pooled index)

theorem exists_pooled_eq (index : ℕ) :
    ∃ j ≤ index, pooled examples binCount index = laplace (selected examples binCount j) := by
  induction index with
  | zero => exact ⟨0, le_rfl, max_eq_right (laplace_pos _).le⟩
  | succ index ih =>
    obtain ⟨j, hj, heq⟩ := ih
    rcases max_choice (pooled examples binCount index)
      (laplace (selected examples binCount (index + 1))) with h | h
    · exact ⟨j, hj.trans index.le_succ, h.trans heq⟩
    · exact ⟨index + 1, le_rfl, h⟩

theorem pooled_lt_one (hlabels : ∀ e ∈ examples, e.label ≤ 1) (index : ℕ) :
    pooled examples binCount index < 1 := by
  obtain ⟨j, _, heq⟩ := @exists_pooled_eq examples binCount index
  rw [heq]
  exact laplace_lt_one fun e he => hlabels e (List.mem_of_mem_filter he)

theorem width_eq (hn : 0 < binCount) : width binCount = 1 / binCount := by
  unfold width
  rw [max_eq_right hn]

theorem upper_eq (hn : 0 < binCount) (index : ℕ) :
    upper binCount index = ((index : ℚ) + 1) / binCount := by
  have hpos : (0 : ℚ) < binCount := by exact_mod_cast hn
  unfold upper
  rw [width_eq hn]
  split_ifs with hlast
  · have : (index : ℚ) + 1 = binCount := by
      have : index + 1 = binCount := by omega
      exact_mod_cast this
    rw [this, div_self hpos.ne']
  · ring

variable {score : ℚ} {index : ℕ}

theorem lower_le_iff (hn : 0 < binCount) : lower binCount index ≤ score ↔ index ≤ score * binCount := by
  have hpos : (0 : ℚ) < binCount := by exact_mod_cast hn
  unfold lower
  rw [width_eq hn, mul_one_div, div_le_iff₀ hpos]

theorem le_upper_iff (hn : 0 < binCount) :
    score ≤ upper binCount index ↔ score * binCount ≤ index + 1 := by
  have hpos : (0 : ℚ) < binCount := by exact_mod_cast hn
  rw [upper_eq hn, le_div_iff₀ hpos]

theorem lt_upper_iff (hn : 0 < binCount) :
    score < upper binCount index ↔ score * binCount < index + 1 := by
  have hpos : (0 : ℚ) < binCount := by exact_mod_cast hn
  rw [upper_eq hn, lt_div_iff₀ hpos]

/-- A score is counted in the bin below its next boundary, and 1 in the last bin. -/
theorem counted_iff (hn : 0 < binCount) (hscore : score ≤ 1) (hindex : index < binCount) :
    Counted binCount index score ↔ (index : ℚ) ≤ score * binCount ∧
      (index = binCount - 1 ∨ score * binCount < index + 1) := by
  have hpos : (0 : ℚ) < binCount := by exact_mod_cast hn
  unfold Counted
  rw [lower_le_iff hn, le_upper_iff hn, lt_upper_iff hn]
  constructor
  · exact fun h => ⟨h.1.1, h.2⟩
  · rintro ⟨hlower, hlast | hupper⟩
    · refine ⟨⟨hlower, ?_⟩, .inl hlast⟩
      have hcast : (index : ℚ) + 1 = binCount := by
        have : index + 1 = binCount := by omega
        exact_mod_cast this
      rw [hcast]
      nlinarith
    · exact ⟨⟨hlower, hupper.le⟩, .inr hupper⟩

/-- Every score in the unit interval is counted in one bin. -/
theorem existsUnique_counted (hn : 0 < binCount) (hscore : 0 ≤ score ∧ score ≤ 1) :
    ∃! index, index < binCount ∧ Counted binCount index score := by
  have hpos : (0 : ℚ) < binCount := by exact_mod_cast hn
  have hscaled : 0 ≤ score * binCount := mul_nonneg hscore.1 hpos.le
  refine ⟨min ⌊score * binCount⌋₊ (binCount - 1), ⟨by omega, ?_⟩, ?_⟩
  · refine (counted_iff hn hscore.2 (by omega)).mpr ⟨?_, ?_⟩
    · exact le_trans (by exact_mod_cast min_le_left _ _) (Nat.floor_le hscaled)
    · rcases le_total ⌊score * binCount⌋₊ (binCount - 1) with h | h
      · rw [min_eq_left h]
        exact .inr (Nat.lt_floor_add_one _)
      · exact .inl (min_eq_right h)
  · rintro i ⟨hi, hcounted⟩
    obtain ⟨hlower, hupper⟩ := (counted_iff hn hscore.2 hi).mp hcounted
    have hfloor : i ≤ ⌊score * binCount⌋₊ := Nat.le_floor hlower
    rcases hupper with hlast | hupper
    · omega
    · have : ⌊score * binCount⌋₊ < i + 1 := (Nat.floor_lt hscaled).mpr (by exact_mod_cast hupper)
      omega

/-- `predict` finds a score in the closed interval of a bin. -/
def Within (binCount index : ℕ) (value : ℚ) : Prop :=
  lower binCount index ≤ value ∧ value ≤ upper binCount index

instance (binCount index : ℕ) (value : ℚ) : Decidable (Within binCount index value) :=
  inferInstanceAs (Decidable (_ ∧ _))

def clamp (score : ℚ) : ℚ := max 0 (min 1 score)

theorem clamp_mem (score : ℚ) : 0 ≤ clamp score ∧ clamp score ≤ 1 :=
  ⟨le_max_left _ _, max_le zero_le_one (min_le_left _ _)⟩

theorem clamp_eq (hscore : 0 ≤ score ∧ score ≤ 1) : clamp score = score := by
  unfold clamp
  rw [min_eq_right hscore.2, max_eq_right hscore.1]

theorem clamp_mono : Monotone clamp := fun _ _ h => max_le_max le_rfl (min_le_min le_rfl h)

/-- `predict` answers with the first bin that has the score between its boundaries. -/
theorem exists_predict_fit (hn : 0 < binCount) (hexamples : examples ≠ []) (score : ℚ) :
    ∃ i < binCount, Within binCount i (clamp score) ∧ (∀ j < i, ¬ Within binCount j (clamp score)) ∧
      predict (fit examples binCount) score = some (pooled examples binCount i) := by
  obtain ⟨k, ⟨hk, hcounted⟩, _⟩ := existsUnique_counted hn (clamp_mem score)
  have hsome : ((List.range binCount).find? fun i => Within binCount i (clamp score)).isSome :=
    List.find?_isSome.mpr ⟨k, List.mem_range.mpr hk, decide_eq_true hcounted.1⟩
  obtain ⟨i, hi⟩ := Option.isSome_iff_exists.mp hsome
  have hfind := hi
  rw [List.find?_range_eq_some] at hfind
  obtain ⟨hwithin, hmem, hfirst⟩ := hfind
  refine ⟨i, List.mem_range.mp hmem, by simpa using hwithin, fun j hj => by simpa using hfirst j hj, ?_⟩
  have hbins : (fit examples binCount).find? (fun item =>
      decide (item.lower ≤ clamp score ∧ clamp score ≤ item.upper)) =
        some (fittedBin examples binCount i) := by
    rw [fit_eq hexamples, List.find?_map]
    exact congrArg (Option.map (fittedBin examples binCount)) hi
  unfold predict
  dsimp only
  rw [show max 0 (min 1 score) = clamp score from rfl, hbins]
  rfl

/-- A lower score is found in a lower bin or in the same one. -/
theorem index_le_of_within (hn : 0 < binCount) {v w : ℚ} (hvw : v ≤ w) {i j : ℕ}
    (hi : Within binCount i v) (hfirst : ∀ k < i, ¬ Within binCount k v)
    (hj : Within binCount j w) : i ≤ j := by
  have hpos : (0 : ℚ) < binCount := by exact_mod_cast hn
  by_contra hlt
  push Not at hlt
  have hlower : (i : ℚ) ≤ v * binCount := (lower_le_iff hn).mp hi.1
  have hupper : w * binCount ≤ j + 1 := (le_upper_iff hn).mp hj.2
  have hscaled : v * binCount ≤ w * binCount := by gcongr
  have hnext : (j : ℚ) + 1 ≤ i := by exact_mod_cast hlt
  refine hfirst j hlt ⟨(lower_le_iff hn).mpr ?_, (le_upper_iff hn).mpr ?_⟩
  · linarith
  · linarith

/-- The score is the boundary below a bin whose estimate exceeds all those before it. -/
def Jump (examples : List CalibrationExample) (binCount : ℕ) (score : ℚ) : Prop :=
  ∃ k < binCount, 0 < k ∧ examples ≠ [] ∧ score * binCount = k ∧
    ∀ j < k, laplace (selected examples binCount j) < laplace (selected examples binCount k)

/-- What the calibrator promises about a fit and one score. -/
structure Calibrated (examples : List CalibrationExample) (binCount : ℕ) (score : ℚ) : Prop where
  /-- Every example is counted in one bin. -/
  counted : ∀ e ∈ examples,
    ∃! i, i < (fit examples binCount).length ∧ Counted binCount i e.score
  sampleCount : ∀ i bin, (fit examples binCount)[i]? = some bin →
    bin.sampleCount = (selected examples binCount i).length
  bounded : ∃ p, predict (fit examples binCount) score = some p ∧ 0 < p ∧ p < 1
  monotone : ∀ other, score ≤ other → ∀ p q, predict (fit examples binCount) score = some p →
    predict (fit examples binCount) other = some q → p ≤ q
  /-- A score gets the probability of the bin that counts it. -/
  consistent : 0 ≤ score → score ≤ 1 → ∀ i bin, (fit examples binCount)[i]? = some bin →
    Counted binCount i score → predict (fit examples binCount) score = some bin.probability
  laplace_le : ∀ i bin, (fit examples binCount)[i]? = some bin →
    laplace (selected examples binCount i) ≤ bin.probability

theorem predict_fit_nil (score : ℚ) : predict (fit [] binCount) score = some (1 / 2) := by
  have hwithin : decide ((0 : ℚ) ≤ clamp score ∧ clamp score ≤ 1) = true :=
    decide_eq_true (clamp_mem score)
  unfold predict fit
  rw [if_pos rfl]
  dsimp only
  rw [show max 0 (min 1 score) = clamp score from rfl, List.find?_cons, hwithin]

theorem calibrated_nil (binCount : ℕ) (score : ℚ) : Calibrated [] binCount score where
  counted _ he := absurd he List.not_mem_nil
  sampleCount i bin hbin := by
    cases i with
    | zero =>
      obtain rfl : (⟨0, 1, 1 / 2, 0⟩ : CalibrationBin) = bin := Option.some.inj hbin
      rfl
    | succ i => exact nomatch hbin
  bounded := ⟨1 / 2, predict_fit_nil score, by norm_num, by norm_num⟩
  monotone other _ p q hp hq := by
    rw [predict_fit_nil] at hp hq
    exact ((Option.some.inj hp).symm.trans (Option.some.inj hq)).le
  consistent _ _ i bin hbin _ := by
    cases i with
    | zero =>
      obtain rfl : (⟨0, 1, 1 / 2, 0⟩ : CalibrationBin) = bin := Option.some.inj hbin
      exact predict_fit_nil score
    | succ i => exact nomatch hbin
  laplace_le i bin hbin := by
    cases i with
    | zero =>
      obtain rfl : (⟨0, 1, 1 / 2, 0⟩ : CalibrationBin) = bin := Option.some.inj hbin
      norm_num [laplace, selected]
    | succ i => exact nomatch hbin

/-- The bin that counts a score is the bin that `predict` finds, or the next one at a
boundary between the two. -/
theorem index_of_counted (hn : 0 < binCount) {i k : ℕ}
    (hi : Within binCount i score) (hfirst : ∀ j < i, ¬ Within binCount j score)
    (hcounted : Counted binCount k score) :
    k = i ∧ (0 < k → score * binCount ≠ k) ∨ k = i + 1 ∧ score * binCount = k := by
  have hle : i ≤ k := index_le_of_within hn le_rfl hi hfirst hcounted.1
  have hlower : (k : ℚ) ≤ score * binCount := (lower_le_iff hn).mp hcounted.1.1
  have hupper : score * binCount ≤ i + 1 := (le_upper_iff hn).mp hi.2
  rcases hle.eq_or_lt with rfl | hlt
  · refine .inl ⟨rfl, fun hpos hboundary => ?_⟩
    refine hfirst (i - 1) (by omega) ⟨(lower_le_iff hn).mpr ?_, (le_upper_iff hn).mpr ?_⟩
    · rw [hboundary]
      exact_mod_cast Nat.sub_le i 1
    · rw [hboundary]
      exact_mod_cast (show i ≤ i - 1 + 1 by omega)
  · have hk : k ≤ i + 1 := by exact_mod_cast hlower.trans hupper
    obtain rfl : k = i + 1 := by omega
    refine .inr ⟨rfl, le_antisymm ?_ hlower⟩
    exact_mod_cast hupper

/-- The fit and its predictions agree exactly at the scores that are not on a jump. -/
theorem consistent_iff (hn : 0 < binCount) (hexamples : examples ≠ [])
    (hscore : 0 ≤ score ∧ score ≤ 1) :
    (∀ i bin, (fit examples binCount)[i]? = some bin → Counted binCount i score →
        predict (fit examples binCount) score = some bin.probability) ↔
      ¬ Jump examples binCount score := by
  obtain ⟨i, hi, hwithin, hfirst, hpredict⟩ := exists_predict_fit hn hexamples score
  rw [clamp_eq hscore] at hwithin hfirst
  constructor
  · rintro h ⟨k, hk, hpos, _, hboundary, hjump⟩
    have hcounted : Counted binCount k score := by
      refine (counted_iff hn hscore.2 hk).mpr ⟨hboundary.ge, .inr ?_⟩
      rw [hboundary]
      exact lt_add_one _
    have heq := h k _ ((getElem?_fit hexamples).mpr ⟨hk, rfl⟩) hcounted
    rw [hpredict] at heq
    have hpooled : pooled examples binCount i = pooled examples binCount k := Option.some.inj heq
    rcases index_of_counted hn hwithin hfirst hcounted with ⟨_, hne⟩ | ⟨rfl, _⟩
    · exact hne hpos hboundary
    · obtain ⟨j, hj, hjeq⟩ := @exists_pooled_eq examples binCount i
      have hlt := hjump j (by omega)
      have hge := @laplace_le_pooled examples binCount (i + 1)
      rw [← hpooled, hjeq] at hge
      exact absurd hlt (not_lt.mpr hge)
  · intro hjump k bin hbin hcounted
    obtain ⟨hk, rfl⟩ := (getElem?_fit hexamples).mp hbin
    rw [hpredict]
    rcases index_of_counted hn hwithin hfirst hcounted with ⟨rfl, _⟩ | ⟨rfl, hboundary⟩
    · rfl
    · refine congrArg some (le_antisymm (pooled_mono i.le_succ) ?_)
      unfold Jump at hjump
      push Not at hjump
      obtain ⟨j, hj, hle⟩ := hjump (i + 1) hk i.succ_pos hexamples hboundary
      rw [show (fittedBin examples binCount (i + 1)).probability =
        pooled examples binCount (i + 1) from rfl, pooled]
      refine max_le le_rfl (hle.trans ?_)
      exact (laplace_le_pooled j).trans (pooled_mono (by omega))

theorem Jump.mem_unit (h : Jump examples binCount score) : 0 ≤ score ∧ score ≤ 1 := by
  obtain ⟨k, hk, hpos, _, hboundary, _⟩ := h
  have hn : (0 : ℚ) < binCount := by exact_mod_cast hpos.trans hk
  have hlt : (k : ℚ) < binCount := by exact_mod_cast hk
  have hscore : score = k / binCount := by rw [eq_div_iff hn.ne', hboundary]
  rw [hscore]
  exact ⟨by positivity, (div_le_one hn).mpr hlt.le⟩

/-- A fit of valid examples keeps its promises at a score exactly when the score is not a
boundary at which the pooled probability rises. -/
theorem calibrated_iff (hn : 1 ≤ binCount)
    (hexamples : ∀ e ∈ examples, (0 ≤ e.score ∧ e.score ≤ 1) ∧ e.label ≤ 1) :
    Calibrated examples binCount score ↔ ¬ Jump examples binCount score := by
  by_cases hnil : examples = []
  · subst hnil
    exact iff_of_true (calibrated_nil binCount score) fun ⟨_, _, _, hne, _⟩ => hne rfl
  have hlabels : ∀ e ∈ examples, e.label ≤ 1 := fun e he => (hexamples e he).2
  constructor
  · intro h hjump
    have hscore := hjump.mem_unit
    exact (consistent_iff hn hnil hscore).mp (h.consistent hscore.1 hscore.2) hjump
  intro hjump
  refine ⟨?_, ?_, ?_, ?_, fun h0 h1 => (consistent_iff hn hnil ⟨h0, h1⟩).mpr hjump, ?_⟩
  · intro e he
    rw [fit_eq hnil, List.length_map, List.length_range]
    exact existsUnique_counted hn (hexamples e he).1
  · intro i bin hbin
    obtain ⟨_, rfl⟩ := (getElem?_fit hnil).mp hbin
    rfl
  · obtain ⟨i, _, _, _, hpredict⟩ := exists_predict_fit hn hnil score
    exact ⟨_, hpredict, pooled_pos i, pooled_lt_one hlabels i⟩
  · intro other hle p q hp hq
    obtain ⟨i, _, hwithin, hfirst, hpredict⟩ := exists_predict_fit hn hnil score
    obtain ⟨j, _, hother, _, hpredict'⟩ := exists_predict_fit hn hnil other
    rw [hp] at hpredict
    rw [hq] at hpredict'
    rw [Option.some.inj hpredict, Option.some.inj hpredict']
    exact pooled_mono (index_le_of_within hn (clamp_mono hle) hwithin hfirst hother)
  · intro i bin hbin
    obtain ⟨_, rfl⟩ := (getElem?_fit hnil).mp hbin
    exact laplace_le_pooled i

end Fit

/-- Two examples, the second one on the first inner boundary of five bins. -/
def sampleExamples : List CalibrationExample := [⟨"p1", 1 / 10, 0⟩, ⟨"p2", 1 / 5, 1⟩]

theorem boundary_score_underestimated : ¬ Calibrated sampleExamples 5 (1 / 5) := by
  intro h
  have heq := h.consistent (by norm_num) (by norm_num) 1 ⟨1 / 5, 2 / 5, 2 / 3, 1⟩ (by decide +kernel)
    (by decide +kernel)
  exact absurd heq (by decide +kernel)

theorem calibrated_sample : Calibrated sampleExamples 5 (3 / 10) := by
  refine (calibrated_iff (by decide) (by decide +kernel)).mpr ?_
  rintro ⟨k, _, _, _, hboundary, _⟩
  have hk : ((3 : ℚ) / 10) * 5 = k := hboundary
  have htwice : ((2 * k : ℕ) : ℚ) = (3 : ℕ) := by
    push_cast
    linarith
  have hodd : 2 * k = 3 := by exact_mod_cast htwice
  omega

end Calibrator

end CodeResearch.Alignment
