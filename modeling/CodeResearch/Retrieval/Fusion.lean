import CodeResearch.Library.Dict
import CodeResearch.Library.Ranking
import Mathlib.Algebra.BigOperators.Group.List.Basic
import Mathlib.Algebra.Order.Field.Basic
import Mathlib.Data.Prod.Lex
import Mathlib.Data.String.Basic
import Mathlib.Tactic.Linarith

/-!
# Reciprocal rank fusion

The hits of one chunk are summed up in the order in which they came in, the candidates
are sorted by a key of five components that ends with the chunk id, and the list is cut
at `fusion_top_k`. Scores are exact rationals.
-/
namespace CodeResearch.Retrieval.Fusion

inductive RetrievalSource
  | dense | sparse | graph
  deriving DecidableEq

def RetrievalSource.text : RetrievalSource → String
  | dense => "dense"
  | sparse => "sparse"
  | graph => "graph"

/-- The entries of a hit's metadata that the fusion reads, as the retrievers write them. -/
structure HitMetadata where
  exactBoost : Option ℚ := none
  graphPathEdgeIds : Option (List String) := none
  deriving DecidableEq

structure RawRetrievalHit where
  source : RetrievalSource
  chunkId : String
  entityId : String
  sourceScore : ℚ
  sourceRank : ℕ
  metadata : HitMetadata := {}
  one_le_sourceRank : 1 ≤ sourceRank := by decide
  deriving DecidableEq

/-- The fields of the configuration that the fusion reads. -/
structure RetrievalConfig where
  fusionTopK : ℕ := 40
  rrfK : ℕ := 60
  sourceWeights : String → Option ℚ
  one_le_fusionTopK : 1 ≤ fusionTopK := by decide
  one_le_rrfK : 1 ≤ rrfK := by decide

inductive Stage
  | preliminary | final
  deriving DecidableEq

structure FusedRetrievalCandidate where
  chunkId : String
  entityId : String
  hits : List RawRetrievalHit
  preliminaryRrf : Option ℚ
  finalRrf : Option ℚ
  graphPathEdgeIds : List String
  contributions : String → Option ℚ

/-- `EXACT_MATCH_RRF_BOOST`. -/
def exactMatchRrfBoost : ℚ := 1 / 20

/-- The local variables of the loop over the hits of one chunk. -/
@[ext] structure Tally where
  contributions : String → Option ℚ := fun _ => none
  score : ℚ := 0
  exact : Bool := false

section Fuse

variable (config : RetrievalConfig)

def RetrievalConfig.weight (source : RetrievalSource) : ℚ :=
  (config.sourceWeights source.text).getD 1

def contribution (hit : RawRetrievalHit) : ℚ :=
  config.weight hit.source / (config.rrfK + hit.sourceRank : ℕ)

def Tally.add (t : Tally) (hit : RawRetrievalHit) : Tally where
  contributions := Function.update t.contributions hit.source.text
    (some ((t.contributions hit.source.text).getD 0 + contribution config hit))
  score := t.score + contribution config hit
  exact := t.exact || decide (0 < hit.metadata.exactBoost.getD 0)

def Tally.boosted (t : Tally) : Tally :=
  if t.exact then
    { t with
      score := t.score + exactMatchRrfBoost
      contributions := Function.update t.contributions "exact_match_boost" (some exactMatchRrfBoost) }
  else t

/-- `_graph_path`. -/
def graphPath (hits : List RawRetrievalHit) : List String :=
  (leastBy (fun path : List String => toLex (path.length, path))
    ((hits.filter (·.source = .graph)).map fun hit =>
      hit.metadata.graphPathEdgeIds.getD [])).getD []

def candidate (stage : Stage) (chunkId : String) (chunkHits : List RawRetrievalHit) :
    FusedRetrievalCandidate :=
  let t := (chunkHits.foldl (Tally.add config) {}).boosted
  { chunkId
    entityId := (leastBy id (chunkHits.map (·.entityId))).getD ""
    hits := sortedBy (fun hit => toLex (hit.source.text, toLex (hit.sourceRank, hit.chunkId)))
      chunkHits
    preliminaryRrf := if stage = .preliminary then some t.score else none
    finalRrf := if stage = .preliminary then none else some t.score
    graphPathEdgeIds := graphPath chunkHits
    contributions := t.contributions }

def rankKey (stage : Stage) (c : FusedRetrievalCandidate) :
    ℚ ×ₗ ℚ ×ₗ ℕ ×ₗ String ×ₗ String :=
  toLex (-(if stage = .preliminary then c.preliminaryRrf.getD 0 else c.finalRrf.getD 0),
    toLex (-(c.contributions "exact_match_boost").getD 0,
      toLex ((leastBy id (c.hits.map (·.sourceRank))).getD 0, toLex (c.entityId, c.chunkId))))

/-- `grouped`, one candidate for each chunk in the order of first occurrence. -/
def candidates (stage : Stage) (hits : List RawRetrievalHit) : List FusedRetrievalCandidate :=
  (firstBy id (hits.map (·.chunkId))).map fun chunkId =>
    candidate config stage chunkId (hits.filter (·.chunkId = chunkId))

/-- `_fuse`. -/
def fuse (stage : Stage) (hits : List RawRetrievalHit) : List FusedRetrievalCandidate :=
  (sortedBy (rankKey stage) (candidates config stage hits)).take config.fusionTopK

def preliminaryRrf (rawDenseHits rawSparseHits : List RawRetrievalHit) :
    Except String (List FusedRetrievalCandidate) :=
  if (rawDenseHits ++ rawSparseHits).any (·.source = .graph) then
    .error "Preliminary RRF accepts only dense and sparse hits."
  else .ok (fuse config .preliminary (rawDenseHits ++ rawSparseHits))

def finalRrf (rawDenseHits rawSparseHits graphCandidates : List RawRetrievalHit) :
    List FusedRetrievalCandidate :=
  fuse config .final (rawDenseHits ++ rawSparseHits ++ graphCandidates)

end Fuse

/-- Two candidates that differ in the order of their hits at most. -/
structure FusedRetrievalCandidate.Same (c d : FusedRetrievalCandidate) : Prop where
  chunkId : c.chunkId = d.chunkId
  entityId : c.entityId = d.entityId
  hits : c.hits.Perm d.hits
  preliminaryRrf : c.preliminaryRrf = d.preliminaryRrf
  finalRrf : c.finalRrf = d.finalRrf
  graphPathEdgeIds : c.graphPathEdgeIds = d.graphPathEdgeIds
  contributions : c.contributions = d.contributions

variable {c d : FusedRetrievalCandidate}

section Order

variable {config : RetrievalConfig} {stage : Stage} {hits hits' : List RawRetrievalHit}

theorem add_add_swap (t : Tally) (a b : RawRetrievalHit) :
    (t.add config a).add config b = (t.add config b).add config a := by
  refine Tally.ext ?_ ?_ ?_
  · by_cases hsource : a.source = b.source
    · simp only [Tally.add, hsource, Function.update_self, Function.update_idem, Option.getD_some,
        add_right_comm]
    · have htext : a.source.text ≠ b.source.text := by
        cases ha : a.source <;> cases hb : b.source <;> first
          | exact absurd (ha.trans hb.symm) hsource
          | decide
      simp only [Tally.add, Function.update_of_ne htext, Function.update_of_ne htext.symm,
        Function.update_comm htext]
  · simp only [Tally.add, add_right_comm]
  · simp only [Tally.add, Bool.or_right_comm]

theorem foldl_add_perm (h : hits.Perm hits') :
    hits.foldl (Tally.add config) {} = hits'.foldl (Tally.add config) {} := by
  have : RightCommutative (Tally.add config) := ⟨add_add_swap⟩
  exact h.foldl_eq _

theorem graphPath_perm (h : hits.Perm hits') : graphPath hits = graphPath hits' := by
  unfold graphPath
  rw [leastBy_congr ((h.filter _).map _)]
  intro a _ b _ heq
  exact (Prod.ext_iff.mp (toLex_inj.mp heq)).2

theorem same_candidate (h : hits.Perm hits') (chunkId : String) :
    (candidate config stage chunkId hits).Same (candidate config stage chunkId hits') := by
  refine ⟨rfl, ?_, ?_, ?_, ?_, graphPath_perm h, ?_⟩
  · unfold candidate
    rw [least_congr (h.map _)]
  · exact (perm_sortedBy _).trans (h.trans (perm_sortedBy _).symm)
  all_goals
    unfold candidate
    rw [foldl_add_perm h]

theorem rankKey_of_same (h : c.Same d) : rankKey stage c = rankKey stage d := by
  unfold rankKey
  rw [h.chunkId, h.entityId, h.preliminaryRrf, h.finalRrf, h.contributions,
    least_congr (h.hits.map _)]

end Order

def SameRanking (before after : List FusedRetrievalCandidate) : Prop :=
  List.Forall₂ FusedRetrievalCandidate.Same before after

section Ranking

variable {config : RetrievalConfig} {stage : Stage} {hits hits' : List RawRetrievalHit}

def chunkIds (hits : List RawRetrievalHit) : List String := firstBy id (hits.map (·.chunkId))

theorem nodup_chunkIds (hits : List RawRetrievalHit) : (chunkIds hits).Nodup := by
  have hnodup := @nodup_firstBy _ _ _ id (hits.map (·.chunkId))
  rwa [List.map_id] at hnodup

variable {chunkId : String}

theorem mem_chunkIds : chunkId ∈ chunkIds hits ↔ ∃ hit ∈ hits, hit.chunkId = chunkId := by
  have hmem := @mem_map_firstBy _ _ _ id (hits.map (·.chunkId)) chunkId
  rw [List.map_id, List.map_id] at hmem
  rw [chunkIds, hmem, List.mem_map]

def chunkHits (hits : List RawRetrievalHit) (chunkId : String) : List RawRetrievalHit :=
  hits.filter (·.chunkId = chunkId)

variable (config stage) in
def keyOf (hits : List RawRetrievalHit) (chunkId : String) : ℚ ×ₗ ℚ ×ₗ ℕ ×ₗ String ×ₗ String :=
  rankKey stage (candidate config stage chunkId (chunkHits hits chunkId))

theorem keyOf_injective {a b : String} (h : keyOf config stage hits a = keyOf config stage hits b) :
    a = b := by
  have hlast : ∀ id, (ofLex (ofLex (ofLex (ofLex (keyOf config stage hits id)).2).2).2).2 = id :=
    fun _ => rfl
  rw [← hlast a, h, hlast]

theorem nodup_map_keyOf : ((chunkIds hits).map (keyOf config stage hits)).Nodup :=
  (nodup_chunkIds hits).map fun _ _ => keyOf_injective

variable (config stage) in
def rankedIds (hits : List RawRetrievalHit) : List String :=
  sortedBy (keyOf config stage hits) (chunkIds hits)

/-- The ranking takes the first chunks in the order of their keys. -/
theorem fuse_eq : fuse config stage hits = ((rankedIds config stage hits).take config.fusionTopK).map
    fun chunkId => candidate config stage chunkId (chunkHits hits chunkId) := by
  have hsorted := @sortedBy_map _ _ _ (rankKey stage) _
    (fun chunkId => candidate config stage chunkId (chunkHits hits chunkId)) (chunkIds hits)
  rw [List.map_take]
  exact congrArg (List.take config.fusionTopK) hsorted

theorem map_chunkId_fuse : (fuse config stage hits).map (·.chunkId) =
    (rankedIds config stage hits).take config.fusionTopK := by
  rw [fuse_eq, List.map_map]
  exact List.map_id _

theorem chunkIds_perm (h : hits.Perm hits') : (chunkIds hits).Perm (chunkIds hits') := by
  rw [List.perm_ext_iff_of_nodup (nodup_chunkIds hits) (nodup_chunkIds hits')]
  intro chunkId
  simp only [mem_chunkIds, h.mem_iff]

theorem sameRanking_of_perm (h : hits.Perm hits') :
    SameRanking (fuse config stage hits) (fuse config stage hits') := by
  have hsame : ∀ chunkId, (candidate config stage chunkId (chunkHits hits chunkId)).Same
      (candidate config stage chunkId (chunkHits hits' chunkId)) :=
    fun chunkId => same_candidate (h.filter _) chunkId
  have hkey : keyOf config stage hits = keyOf config stage hits' :=
    funext fun chunkId => rankKey_of_same (hsame chunkId)
  have hids : rankedIds config stage hits = rankedIds config stage hits' := by
    rw [rankedIds, rankedIds, ← hkey]
    exact sortedBy_congr (chunkIds_perm h) fun _ _ _ _ heq => keyOf_injective heq
  rw [SameRanking, fuse_eq, fuse_eq, hids, List.forall₂_map_left_iff, List.forall₂_map_right_iff]
  exact List.forall₂_same.mpr fun chunkId _ => hsame chunkId

theorem nodup_rankedIds : (rankedIds config stage hits).Nodup :=
  (perm_sortedBy _).nodup_iff.mpr (nodup_chunkIds hits)

/-- What the ranking leaves out comes after what it returns. -/
theorem rankKey_lt_of_omitted (hc : c ∈ fuse config stage hits)
    (hd : d ∈ candidates config stage hits) (homitted : d ∉ fuse config stage hits) :
    rankKey stage c < rankKey stage d := by
  obtain ⟨b, hb, rfl⟩ := List.mem_map.mp hd
  rw [fuse_eq] at hc homitted
  obtain ⟨a, ha, rfl⟩ := List.mem_map.mp hc
  have hsorted : b ∈ rankedIds config stage hits := mem_sortedBy.mpr hb
  have hdrop : b ∈ (rankedIds config stage hits).drop config.fusionTopK := by
    rw [← List.take_append_drop config.fusionTopK (rankedIds config stage hits),
      List.mem_append] at hsorted
    exact hsorted.resolve_left fun htake => homitted (List.mem_map.mpr ⟨b, htake, rfl⟩)
  have hpairwise := @pairwise_sortedBy _ _ _ (keyOf config stage hits) (chunkIds hits)
  rw [← List.take_append_drop config.fusionTopK (sortedBy _ _), List.pairwise_append] at hpairwise
  refine lt_of_le_of_ne (hpairwise.2.2 a ha b hdrop) fun heq => ?_
  obtain rfl := keyOf_injective heq
  exact homitted (List.mem_map.mpr ⟨a, ha, rfl⟩)

variable {hit : RawRetrievalHit}

def baseScore (config : RetrievalConfig) (hits : List RawRetrievalHit) : ℚ :=
  (hits.map (contribution config)).sum

def hasExactMatch (hits : List RawRetrievalHit) : Bool :=
  hits.any fun hit => decide (0 < hit.metadata.exactBoost.getD 0)

def boost (hits : List RawRetrievalHit) : ℚ := if hasExactMatch hits then exactMatchRrfBoost else 0

def bestRank (hits : List RawRetrievalHit) : ℕ := (leastBy id (hits.map (·.sourceRank))).getD 0

theorem foldl_add (t : Tally) :
    (hits.foldl (Tally.add config) t).score = t.score + baseScore config hits ∧
    (hits.foldl (Tally.add config) t).exact = (t.exact || hasExactMatch hits) ∧
    (hits.foldl (Tally.add config) t).contributions "exact_match_boost" =
      t.contributions "exact_match_boost" := by
  induction hits generalizing t with
  | nil => simp [baseScore, hasExactMatch]
  | cons hit hits ih =>
    obtain ⟨hscore, hexact, hboost⟩ := ih (t.add config hit)
    have hsource : "exact_match_boost" ≠ hit.source.text := by
      cases hit.source <;> decide
    rw [List.foldl_cons]
    refine ⟨?_, ?_, ?_⟩
    · rw [hscore, baseScore, baseScore, List.map_cons, List.sum_cons, Tally.add, add_assoc]
    · rw [hexact, Tally.add, hasExactMatch, hasExactMatch, List.any_cons, Bool.or_assoc]
    · rw [hboost]
      exact Function.update_of_ne hsource _ _

theorem boosted_foldl_add :
    (hits.foldl (Tally.add config) {}).boosted.score = baseScore config hits + boost hits ∧
    ((hits.foldl (Tally.add config) {}).boosted.contributions "exact_match_boost").getD 0 =
      boost hits := by
  obtain ⟨hscore, hexact, hcontribution⟩ := @foldl_add config hits {}
  rw [Bool.false_or] at hexact
  rw [zero_add] at hscore
  unfold Tally.boosted boost
  rw [hexact]
  cases hasExactMatch hits with
  | true => exact ⟨congrArg (· + exactMatchRrfBoost) hscore, by simp⟩
  | false => exact ⟨hscore.trans (add_zero _).symm, by simp [hcontribution]⟩

/-- The components of a sort key. -/
theorem keyOf_eq (chunkId : String) : keyOf config stage hits chunkId =
    toLex (-(baseScore config (chunkHits hits chunkId) + boost (chunkHits hits chunkId)),
      toLex (-boost (chunkHits hits chunkId), toLex (bestRank (chunkHits hits chunkId),
        toLex ((leastBy id ((chunkHits hits chunkId).map (·.entityId))).getD "", chunkId)))) := by
  obtain ⟨hscore, hboost⟩ := @boosted_foldl_add config (chunkHits hits chunkId)
  have hrank : (leastBy id ((sortedBy (fun hit => toLex (hit.source.text,
      toLex (hit.sourceRank, hit.chunkId))) (chunkHits hits chunkId)).map (·.sourceRank))).getD 0 =
      bestRank (chunkHits hits chunkId) := by
    rw [bestRank, least_congr ((perm_sortedBy _).map _)]
  unfold keyOf rankKey candidate
  dsimp only
  rw [hboost, hrank]
  cases stage <;> simp [hscore]

def RawRetrievalHit.withRank (hit : RawRetrievalHit) (rank : ℕ) (h : 1 ≤ rank) : RawRetrievalHit :=
  { hit with sourceRank := rank, one_le_sourceRank := h }

variable {l₁ l₂ : List RawRetrievalHit} {rank : ℕ} {h : 1 ≤ rank}

theorem chunkIds_withRank :
    chunkIds (l₁ ++ hit.withRank rank h :: l₂) = chunkIds (l₁ ++ hit :: l₂) := by
  simp [chunkIds, RawRetrievalHit.withRank]

theorem keyOf_withRank_of_ne (hne : hit.chunkId ≠ chunkId) :
    keyOf config stage (l₁ ++ hit.withRank rank h :: l₂) chunkId =
      keyOf config stage (l₁ ++ hit :: l₂) chunkId := by
  have hgroup : chunkHits (l₁ ++ hit.withRank rank h :: l₂) chunkId =
      chunkHits (l₁ ++ hit :: l₂) chunkId := by
    simp [chunkHits, RawRetrievalHit.withRank, hne]
  rw [keyOf, hgroup, keyOf]

theorem bestRank_le {r : ℕ} (hmem : ∃ other ∈ hits, other.sourceRank ≤ r) : bestRank hits ≤ r := by
  obtain ⟨other, hother, hle⟩ := hmem
  obtain ⟨best, hbest⟩ := @exists_leastBy _ _ _ id (hits.map (·.sourceRank))
    (List.ne_nil_of_mem (List.mem_map_of_mem hother))
  rw [bestRank, hbest]
  exact ((leastBy_spec hbest).2 _ (List.mem_map_of_mem hother)).trans hle

theorem bestRank_withRank_le (hle : rank ≤ hit.sourceRank) :
    bestRank (l₁ ++ hit.withRank rank h :: l₂) ≤ bestRank (l₁ ++ hit :: l₂) := by
  obtain ⟨best, hbest⟩ := @exists_leastBy _ _ _ id ((l₁ ++ hit :: l₂).map (·.sourceRank)) (by simp)
  have hvalue : bestRank (l₁ ++ hit :: l₂) = best := by rw [bestRank, hbest]; rfl
  obtain ⟨other, hother, hrank⟩ := List.mem_map.mp (leastBy_spec hbest).1
  rw [hvalue]
  apply bestRank_le
  rw [List.mem_append, List.mem_cons] at hother
  rcases hother with hother | rfl | hother
  · exact ⟨other, by simp [hother], hrank.le⟩
  · exact ⟨other.withRank rank h, by simp, hle.trans hrank.le⟩
  · exact ⟨other, by simp [hother], hrank.le⟩

theorem contribution_le_withRank (hweight : 0 ≤ config.weight hit.source)
    (hle : rank ≤ hit.sourceRank) :
    contribution config hit ≤ contribution config (hit.withRank rank h) := by
  have hpos : (0 : ℚ) < (config.rrfK + rank : ℕ) := by
    have := config.one_le_rrfK
    exact_mod_cast (by omega : 0 < config.rrfK + rank)
  have hdenominator : ((config.rrfK + rank : ℕ) : ℚ) ≤ (config.rrfK + hit.sourceRank : ℕ) := by
    exact_mod_cast (by omega : config.rrfK + rank ≤ config.rrfK + hit.sourceRank)
  exact div_le_div_of_nonneg_left hweight hpos hdenominator

theorem keyOf_withRank_le (hweight : 0 ≤ config.weight hit.source) (hle : rank ≤ hit.sourceRank) :
    keyOf config stage (l₁ ++ hit.withRank rank h :: l₂) hit.chunkId ≤
      keyOf config stage (l₁ ++ hit :: l₂) hit.chunkId := by
  have hgroup : chunkHits (l₁ ++ hit :: l₂) hit.chunkId =
      chunkHits l₁ hit.chunkId ++ hit :: chunkHits l₂ hit.chunkId := by
    simp [chunkHits]
  have hgroup' : chunkHits (l₁ ++ hit.withRank rank h :: l₂) hit.chunkId =
      chunkHits l₁ hit.chunkId ++ hit.withRank rank h :: chunkHits l₂ hit.chunkId := by
    simp [chunkHits, RawRetrievalHit.withRank]
  rw [keyOf_eq, keyOf_eq, hgroup, hgroup']
  generalize chunkHits l₁ hit.chunkId = g₁
  generalize chunkHits l₂ hit.chunkId = g₂
  have hboost : boost (g₁ ++ hit.withRank rank h :: g₂) = boost (g₁ ++ hit :: g₂) := by
    simp [boost, hasExactMatch, RawRetrievalHit.withRank]
  have hentities : (g₁ ++ hit.withRank rank h :: g₂).map (·.entityId) =
      (g₁ ++ hit :: g₂).map (·.entityId) := by
    simp [RawRetrievalHit.withRank]
  have hscore : baseScore config (g₁ ++ hit :: g₂) ≤
      baseScore config (g₁ ++ hit.withRank rank h :: g₂) := by
    have hone := @contribution_le_withRank config hit rank h hweight hle
    simp only [baseScore, List.map_append, List.map_cons, List.sum_append, List.sum_cons]
    linarith
  rw [hboost, hentities]
  rcases hscore.lt_or_eq with hlt | heq
  · exact (Prod.Lex.toLex_lt_toLex.mpr (.inl (by dsimp only; linarith))).le
  · rw [heq]
    refine Prod.Lex.toLex_le_toLex.mpr (.inr ⟨rfl, Prod.Lex.toLex_le_toLex.mpr (.inr ⟨rfl, ?_⟩)⟩)
    have hbest : bestRank (g₁ ++ hit.withRank rank h :: g₂) ≤ bestRank (g₁ ++ hit :: g₂) :=
      bestRank_withRank_le hle
    rcases hbest.lt_or_eq with hlt | heq
    · exact (Prod.Lex.toLex_lt_toLex.mpr (.inl hlt)).le
    · dsimp only
      rw [heq]

def NotDown (chunkId : String) (before after : List FusedRetrievalCandidate) : Prop :=
  ∀ i : ℕ, (before.map (·.chunkId))[i]? = some chunkId →
    ∃ j : ℕ, j ≤ i ∧ (after.map (·.chunkId))[j]? = some chunkId

theorem getElem?_map_chunkId_fuse {i : ℕ} :
    ((fuse config stage hits).map (·.chunkId))[i]? = some chunkId ↔
      i < config.fusionTopK ∧ chunkId ∈ chunkIds hits ∧ i = (chunkIds hits).countP fun id =>
        keyOf config stage hits id < keyOf config stage hits chunkId := by
  rw [map_chunkId_fuse, List.getElem?_take]
  split_ifs with hlt
  · rw [rankedIds, getElem?_sortedBy_iff nodup_map_keyOf]
    simp [hlt]
  · simp [hlt]

theorem notDown_withRank (hweight : 0 ≤ config.weight hit.source) (hle : rank ≤ hit.sourceRank) :
    NotDown hit.chunkId (fuse config stage (l₁ ++ hit :: l₂))
      (fuse config stage (l₁ ++ hit.withRank rank h :: l₂)) := by
  intro i hi
  obtain ⟨hlt, hmem, rfl⟩ := getElem?_map_chunkId_fuse.mp hi
  have hkey := @keyOf_withRank_le config stage hit l₁ l₂ rank h hweight hle
  have hcount : (chunkIds (l₁ ++ hit.withRank rank h :: l₂)).countP (fun id =>
      keyOf config stage (l₁ ++ hit.withRank rank h :: l₂) id <
        keyOf config stage (l₁ ++ hit.withRank rank h :: l₂) hit.chunkId) ≤
      (chunkIds (l₁ ++ hit :: l₂)).countP (fun id =>
        keyOf config stage (l₁ ++ hit :: l₂) id <
          keyOf config stage (l₁ ++ hit :: l₂) hit.chunkId) := by
    rw [chunkIds_withRank]
    refine List.countP_mono_left fun id _ hsmaller => ?_
    rw [decide_eq_true_eq] at hsmaller ⊢
    have hne : hit.chunkId ≠ id := by
      rintro rfl
      exact absurd hsmaller (lt_irrefl _)
    rw [keyOf_withRank_of_ne hne] at hsmaller
    exact hsmaller.trans_le hkey
  exact ⟨_, hcount, getElem?_map_chunkId_fuse.mpr
    ⟨hcount.trans_lt hlt, chunkIds_withRank ▸ hmem, rfl⟩⟩

end Ranking

/-- The sources that the hits of a call may have. -/
def Stage.Accepts (stage : Stage) (source : RetrievalSource) : Prop :=
  stage = .preliminary → source ≠ .graph

/-- A call with the hits of all its lists that returned a ranking. -/
inductive Returns (config : RetrievalConfig) :
    Stage → List RawRetrievalHit → List FusedRetrievalCandidate → Prop
  | preliminary {dense sparse : List RawRetrievalHit} {result : List FusedRetrievalCandidate}
      (h : preliminaryRrf config dense sparse = .ok result) :
      Returns config .preliminary (dense ++ sparse) result
  | final (dense sparse graph : List RawRetrievalHit) :
      Returns config .final (dense ++ sparse ++ graph) (finalRrf config dense sparse graph)

section Calls

variable {config : RetrievalConfig} {stage : Stage} {hits : List RawRetrievalHit}
  {result : List FusedRetrievalCandidate}

theorem returns_iff : Returns config stage hits result ↔
    (∀ hit ∈ hits, stage.Accepts hit.source) ∧ result = fuse config stage hits := by
  constructor
  · intro hreturns
    cases hreturns with
    | preliminary h =>
      unfold preliminaryRrf at h
      split_ifs at h with hgraph
      refine ⟨fun hit hhit _ hsource => hgraph ?_, (Except.ok.inj h).symm⟩
      exact List.any_eq_true.mpr ⟨hit, hhit, decide_eq_true hsource⟩
    | final dense sparse graph => exact ⟨fun _ _ hstage => (nomatch hstage), rfl⟩
  · rintro ⟨haccepts, rfl⟩
    cases stage with
    | preliminary =>
      have hgraph : ¬ (hits ++ []).any fun hit => hit.source = RetrievalSource.graph := by
        simpa using fun hit hhit => haccepts hit hhit rfl
      have hcall : preliminaryRrf config hits [] = .ok (fuse config .preliminary (hits ++ [])) :=
        if_neg hgraph
      have hreturns := Returns.preliminary hcall
      rwa [List.append_nil] at hreturns
    | final =>
      have hreturns := @Returns.final config hits [] []
      rwa [finalRrf, List.append_nil, List.append_nil] at hreturns

def Monotone (config : RetrievalConfig) (stage : Stage) : Prop :=
  ∀ l₁ hit l₂ rank h, rank ≤ hit.sourceRank → ∀ before after,
    Returns config stage (l₁ ++ hit :: l₂) before →
    Returns config stage (l₁ ++ RawRetrievalHit.withRank hit rank h :: l₂) after →
    NotDown hit.chunkId before after

def probe (source : RetrievalSource) (chunkId : String) (rank : ℕ) (h : 1 ≤ rank) :
    RawRetrievalHit where
  source := source
  chunkId := chunkId
  entityId := chunkId
  sourceScore := 0
  sourceRank := rank
  one_le_sourceRank := h

variable {rank : ℕ} {source : RetrievalSource}

theorem keyOf_probe {chunkId : String} {h : 1 ≤ rank}
    (hgroup : chunkHits hits chunkId = [probe source chunkId rank h]) :
    keyOf config stage hits chunkId = toLex (-(config.weight source / (config.rrfK + rank : ℕ)),
      toLex (0, toLex (rank, toLex (chunkId, chunkId)))) := by
  rw [keyOf_eq, hgroup]
  simp [baseScore, contribution, boost, hasExactMatch, bestRank, leastBy, sortedBy, probe]

def probes (source : RetrievalSource) (rank : ℕ) (h : 1 ≤ rank) : List RawRetrievalHit :=
  [probe source "a" rank h, probe source "b" 2 (by decide)]

theorem first_probes_iff {h : 1 ≤ rank} :
    ((fuse config stage (probes source rank h)).map (·.chunkId))[0]? = some "a" ↔
      keyOf config stage (probes source rank h) "a" ≤
        keyOf config stage (probes source rank h) "b" := by
  have hids : chunkIds (probes source rank h) = ["a", "b"] := rfl
  have hpos : 0 < config.fusionTopK := config.one_le_fusionTopK
  rw [getElem?_map_chunkId_fuse, hids]
  simp [hpos]

/-- With a negative weight a hit that gets a better rank falls behind one that has its old one. -/
theorem not_monotone_of_neg (haccepts : stage.Accepts source)
    (hneg : config.weight source < 0) : ¬ Monotone config stage := by
  have hreturns : ∀ rank h, Returns config stage (probes source rank h)
      (fuse config stage (probes source rank h)) := by
    intro rank h
    refine returns_iff.mpr ⟨fun hit hhit => ?_, rfl⟩
    simp only [probes, List.mem_cons, List.not_mem_nil, or_false] at hhit
    rcases hhit with rfl | rfl <;> exact haccepts
  have ha : ∀ rank h, keyOf config stage (probes source rank h) "a" =
      toLex (-(config.weight source / (config.rrfK + rank : ℕ)),
        toLex (0, toLex (rank, toLex ("a", "a")))) := fun rank h => keyOf_probe rfl
  have hb : ∀ rank h, keyOf config stage (probes source rank h) "b" =
      toLex (-(config.weight source / (config.rrfK + 2 : ℕ)),
        toLex (0, toLex (2, toLex ("b", "b")))) := fun rank h => keyOf_probe rfl
  have hbefore : keyOf config stage (probes source 2 (by decide)) "a" ≤
      keyOf config stage (probes source 2 (by decide)) "b" := by
    rw [ha, hb]
    simp only [Prod.Lex.toLex_le_toLex, lt_self_iff_false, true_and, false_or]
    decide
  have hafter : ¬ keyOf config stage (probes source 1 (by decide)) "a" ≤
      keyOf config stage (probes source 1 (by decide)) "b" := by
    rw [ha, hb, not_le]
    refine Prod.Lex.toLex_lt_toLex.mpr (.inl ?_)
    have hpos : (0 : ℚ) < (config.rrfK + 1 : ℕ) := by
      exact_mod_cast Nat.succ_pos _
    have hlt : ((config.rrfK + 1 : ℕ) : ℚ) < (config.rrfK + 2 : ℕ) := by
      exact_mod_cast Nat.lt_succ_self _
    rw [neg_lt_neg_iff, div_lt_div_iff₀ hpos (hpos.trans hlt)]
    exact mul_lt_mul_of_neg_left hlt hneg
  intro hmono
  obtain ⟨j, hj, hplace⟩ := hmono [] (probe source "a" 2 (by decide))
    [probe source "b" 2 (by decide)] 1 (by decide) (Nat.le_succ 1) _ _ (hreturns 2 (by decide))
    (hreturns 1 (by decide)) 0 (first_probes_iff.mpr hbefore)
  obtain rfl : j = 0 := by omega
  exact hafter (first_probes_iff.mp hplace)

theorem monotone_iff : Monotone config stage ↔
    ∀ source, stage.Accepts source → 0 ≤ config.weight source := by
  constructor
  · intro hmono source haccepts
    by_contra hneg
    exact not_monotone_of_neg haccepts (not_le.mp hneg) hmono
  · intro hweights l₁ hit l₂ rank h hle before after hbefore hafter
    obtain ⟨haccepts, rfl⟩ := returns_iff.mp hbefore
    obtain ⟨-, rfl⟩ := returns_iff.mp hafter
    exact notDown_withRank (hweights _ (haccepts hit (by simp))) hle

/-- The ranking of a call depends on its hits only, holds each chunk once, and is a first segment
of the candidates in the order of their keys; a better rank never moves a chunk down exactly if no
source that the call accepts has a negative weight. -/
theorem returns_ranking (config : RetrievalConfig) (stage : Stage) :
    (∀ hits hits' result result', Returns config stage hits result →
      Returns config stage hits' result' → hits.Perm hits' → SameRanking result result') ∧
    (∀ hits result, Returns config stage hits result →
      (result.map (·.chunkId)).Nodup ∧ result.length ≤ config.fusionTopK ∧
      ∀ c ∈ result, ∀ d ∈ candidates config stage hits, d ∉ result →
        rankKey stage c < rankKey stage d) ∧
    (Monotone config stage ↔ ∀ source, stage.Accepts source → 0 ≤ config.weight source) := by
  refine ⟨?_, ?_, monotone_iff⟩
  · intro hits hits' result result' hresult hresult' hperm
    obtain ⟨-, rfl⟩ := returns_iff.mp hresult
    obtain ⟨-, rfl⟩ := returns_iff.mp hresult'
    exact sameRanking_of_perm hperm
  · intro hits result hresult
    obtain ⟨-, rfl⟩ := returns_iff.mp hresult
    refine ⟨?_, List.length_take_le _ _, fun c hc d hd => rankKey_lt_of_omitted hc hd⟩
    rw [map_chunkId_fuse]
    exact nodup_rankedIds.sublist (List.take_sublist _ _)

/-- A configuration that punishes dense hits. -/
def denseAverse : RetrievalConfig where
  sourceWeights := fun source => if source = "dense" then some (-1) else none

theorem not_monotone_denseAverse : ¬ Monotone denseAverse .final := by
  have hneg : denseAverse.weight .dense < 0 := by decide +kernel
  exact not_monotone_of_neg (fun hstage => nomatch hstage) hneg

end Calls

section Untouched

variable {config : RetrievalConfig} {stage stage' : Stage} {hits more : List RawRetrievalHit}
  {chunkId : String}

theorem chunkHits_append (h : chunkId ∉ chunkIds more) :
    chunkHits (hits ++ more) chunkId = chunkHits hits chunkId := by
  rw [mem_chunkIds] at h
  simpa [chunkHits] using h

theorem filter_rankedIds : (rankedIds config stage' (hits ++ more)).filter (· ∉ chunkIds more) =
    (rankedIds config stage hits).filter (· ∉ chunkIds more) := by
  have hkey : ∀ id ∉ chunkIds more,
      keyOf config stage' (hits ++ more) id = keyOf config stage hits id := by
    intro id hid
    rw [keyOf_eq, keyOf_eq, chunkHits_append hid]
  have hsorted := (@pairwise_sortedBy _ _ _ (keyOf config stage' (hits ++ more))
    (chunkIds (hits ++ more))).filter (· ∉ chunkIds more)
  refine List.Perm.eq_of_pairwise (fun a b _ _ hab hba => keyOf_injective (le_antisymm hab hba))
    (hsorted.imp_of_mem ?_) ((pairwise_sortedBy _).filter _) ?_
  · intro a b ha hb hle
    rwa [hkey a (by simpa using List.of_mem_filter ha),
      hkey b (by simpa using List.of_mem_filter hb)] at hle
  · rw [List.perm_ext_iff_of_nodup (nodup_rankedIds.filter _) (nodup_rankedIds.filter _)]
    intro id
    simp only [rankedIds, List.mem_filter, mem_sortedBy, mem_chunkIds, decide_eq_true_eq]
    grind

/-- Further hits, in whichever stage, neither reorder nor rescore the chunks that they miss. -/
def KeepsOrder (config : RetrievalConfig) : Prop :=
  ∀ stage stage' hits more before after, Returns config stage hits before →
    Returns config stage' (hits ++ more) after →
    (let missed := fun result : List FusedRetrievalCandidate =>
      (result.map (·.chunkId)).filter (· ∉ chunkIds more)
    missed before <+: missed after ∨ missed after <+: missed before) ∧
    ∀ c ∈ before, ∀ d ∈ after, d.chunkId = c.chunkId → c.chunkId ∉ chunkIds more →
      d.hits = c.hits ∧ d.contributions = c.contributions ∧ rankKey stage' d = rankKey stage c

theorem keepsOrder (config : RetrievalConfig) : KeepsOrder config := by
  intro stage stage' hits more before after hbefore hafter
  obtain ⟨-, rfl⟩ := returns_iff.mp hbefore
  obtain ⟨-, rfl⟩ := returns_iff.mp hafter
  constructor
  · dsimp only
    rw [map_chunkId_fuse, map_chunkId_fuse]
    have hfirst : ∀ l : List String, (l.take config.fusionTopK).filter (· ∉ chunkIds more) <+:
        l.filter (· ∉ chunkIds more) := fun l => (List.take_prefix _ l).filter _
    exact List.prefix_or_prefix_of_prefix (hfirst _)
      (@filter_rankedIds config stage stage' hits more ▸ hfirst _)
  · intro c hc d hd heq hmissed
    rw [fuse_eq] at hc hd
    obtain ⟨id, _, rfl⟩ := List.mem_map.mp hc
    obtain ⟨id', _, rfl⟩ := List.mem_map.mp hd
    obtain rfl : id' = id := heq
    have hkey : keyOf config stage' hits id' = keyOf config stage hits id' := by
      rw [keyOf_eq, keyOf_eq]
    rw [chunkHits_append (show id' ∉ chunkIds more from hmissed)]
    exact ⟨rfl, rfl, hkey⟩

end Untouched

end CodeResearch.Retrieval.Fusion
