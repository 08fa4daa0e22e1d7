import CodeResearch.Alignment.Recall

/-!
# What candidate recall depends on

The entities, the edges and the hits enter the recall as sets: their order changes at most
the order of the contributions of a candidate. The legacy list is a ranking, and its order
counts. The code graph adds the entities within the hops of the request, over shortest
paths.
-/
namespace CodeResearch.Alignment.Recall

variable {entityId : String}

theorem ContributionLog.mem_of {log : ContributionLog} {item : CandidateSourceContribution} :
    item ∈ log.of entityId ↔ (entityId, item) ∈ log := by
  unfold ContributionLog.of
  rw [List.mem_map]
  constructor
  · rintro ⟨⟨id, item⟩, hmem, rfl⟩
    obtain ⟨hlog, hid⟩ := List.mem_filter.mp hmem
    rwa [← of_decide_eq_true hid]
  · intro hmem
    exact ⟨(entityId, item), List.mem_filter.mpr ⟨hmem, decide_eq_true rfl⟩, rfl⟩

theorem ContributionLog.mem_ids {log : ContributionLog} :
    entityId ∈ log.ids ↔ ∃ item, (entityId, item) ∈ log := by
  unfold ContributionLog.ids
  rw [List.mem_reverse, List.mem_dedup, List.mem_reverse, List.mem_map]
  constructor
  · rintro ⟨⟨id, item⟩, hmem, rfl⟩
    exact ⟨item, hmem⟩
  · rintro ⟨item, hmem⟩
    exact ⟨_, hmem, rfl⟩

theorem ContributionLog.nodup_ids (log : ContributionLog) : log.ids.Nodup :=
  List.nodup_reverse.mpr (List.nodup_dedup _)

theorem ContributionLog.of_perm {log log' : ContributionLog} (h : log.Perm log')
    (entityId : String) : (log.of entityId).Perm (log'.of entityId) :=
  (h.filter _).map _

theorem ContributionLog.ids_perm {log log' : ContributionLog} (h : log.Perm log') :
    log.ids.Perm log'.ids := by
  rw [List.perm_ext_iff_of_nodup log.nodup_ids log'.nodup_ids]
  intro entityId
  rw [mem_ids, mem_ids]
  exact exists_congr fun item => h.mem_iff

def KnowledgeEdge.Joins (edge : KnowledgeEdge) (a b : String) : Prop :=
  edge.edgeType ∈ EdgeType.allowed ∧ ∃ target, edge.targetId = some target ∧ target ≠ "" ∧
    (edge.sourceId = a ∧ target = b ∨ target = a ∧ edge.sourceId = b)

/-- The ids of consecutive edges from one node to another. -/
inductive EdgePath (edges : List KnowledgeEdge) (a : String) : List String → String → Prop
  | nil : EdgePath edges a [] a
  | snoc {path : List String} {b c : String} {edge : KnowledgeEdge} :
    EdgePath edges a path b → edge ∈ edges → edge.Joins b c →
      EdgePath edges a (path ++ [edge.id]) c

variable {a b : String} {edges : List KnowledgeEdge}

theorem KnowledgeEdge.mem_arcs {edge : KnowledgeEdge} {e : String} :
    (b, e) ∈ edge.arcs a ↔ edge.id = e ∧ edge.Joins a b := by
  unfold arcs Joins
  cases edge.targetId with
  | none => simp
  | some target =>
    dsimp only
    by_cases hallowed : edge.edgeType ∈ EdgeType.allowed ∧ target ≠ ""
    · rw [if_pos hallowed, List.mem_append]
      constructor
      · rintro (h | h)
        · split_ifs at h with hsource
          · obtain ⟨rfl, rfl⟩ := Prod.mk.inj (List.mem_singleton.mp h)
            exact ⟨rfl, hallowed.1, _, rfl, hallowed.2, .inl ⟨hsource, rfl⟩⟩
          · exact absurd h List.not_mem_nil
        · split_ifs at h with htarget
          · obtain ⟨rfl, rfl⟩ := Prod.mk.inj (List.mem_singleton.mp h)
            exact ⟨rfl, hallowed.1, _, rfl, hallowed.2, .inr ⟨htarget, rfl⟩⟩
          · exact absurd h List.not_mem_nil
      · rintro ⟨rfl, _, _, hsome, _, ⟨rfl, rfl⟩ | ⟨rfl, rfl⟩⟩
        · left
          rw [if_pos rfl, Option.some.inj hsome]
          exact List.mem_singleton.mpr rfl
        · right
          rw [if_pos (Option.some.inj hsome)]
          exact List.mem_singleton.mpr rfl
    · rw [if_neg hallowed]
      refine iff_of_false List.not_mem_nil ?_
      rintro ⟨_, hedge, _, hsome, hne, _⟩
      exact hallowed ⟨hedge, Option.some.inj hsome ▸ hne⟩

theorem mem_neighbours {e : String} :
    (b, e) ∈ neighbours edges a ↔ ∃ edge ∈ edges, edge.id = e ∧ edge.Joins a b := by
  rw [neighbours, mem_sortedBy, List.mem_flatMap]
  exact exists_congr fun edge => and_congr_right fun _ => KnowledgeEdge.mem_arcs

theorem edgePath_iff_walk {path : List String} :
    EdgePath edges a path b ↔ BreadthFirst.Walk (neighbours edges) a path b := by
  constructor
  · intro h
    induction h with
    | nil => exact .nil
    | snoc _ hedge hjoins ih => exact ih.snoc (mem_neighbours.mpr ⟨_, hedge, rfl, hjoins⟩)
  · intro h
    induction h with
    | nil => exact .nil
    | snoc _ harc ih =>
      obtain ⟨edge, hedge, rfl, hjoins⟩ := mem_neighbours.mp harc
      exact ih.snoc hedge hjoins

theorem neighbours_congr {edges' : List KnowledgeEdge} (h : edges.Perm edges') :
    neighbours edges = neighbours edges' := by
  funext node
  exact sortedBy_congr (h.flatMap_right _) fun _ _ _ _ heq => toLex.injective heq

section Expansion

variable {seeds seeds' : List String} {edges edges' : List KnowledgeEdge} {maxHops : ℤ}

theorem graphExpand_congr (hseeds : seeds.Perm seeds') (hedges : edges.Perm edges') :
    graphExpand seeds edges maxHops = graphExpand seeds' edges' maxHops := by
  unfold graphExpand
  rw [neighbours_congr hedges, hseeds.length_eq, hedges.length_eq,
    sortedSet_congr fun a => hseeds.mem_iff]

/-- The search of the expansion ends with an empty queue. -/
theorem exists_finished (seeds : List String) (edges : List KnowledgeEdge) (maxHops : ℤ) :
    ∃ s, BreadthFirst.Invariant (neighbours edges) maxHops.toNat unseen (sortedSet seeds) s ∧
      s.queue = [] ∧ graphExpand seeds edges maxHops = s.found := by
  refine ⟨_, (BreadthFirst.invariant_start (by decide)).run _, ?_, rfl⟩
  let nodes : Finset String :=
    (edges.flatMap fun edge => [edge.sourceId, edge.targetId.getD ""]).toFinset
  have hcard : nodes.card ≤ 2 * edges.length := by
    refine (List.toFinset_card_le _).trans (le_of_eq ?_)
    induction edges with
    | nil => rfl
    | cons edge edges ih =>
      rw [List.flatMap_cons, List.length_append, ih, List.length_cons]
      dsimp only [List.length_cons, List.length_nil]
      omega
  have hlength : (sortedSet seeds).length ≤ seeds.length := by
    rw [sortedSet, (perm_sortedBy _).length_eq]
    exact (List.dedup_sublist seeds).length_le
  have hnodes : ∀ node, ∀ arc ∈ neighbours edges node, arc.1 ∈ nodes := by
    rintro node ⟨b, e⟩ harc
    obtain ⟨edge, hedge, _, _, target, htarget, _, ⟨_, rfl⟩ | ⟨_, rfl⟩⟩ := mem_neighbours.mp harc
    · exact List.mem_toFinset.mpr (List.mem_flatMap.mpr ⟨edge, hedge, by simp [htarget]⟩)
    · exact List.mem_toFinset.mpr (List.mem_flatMap.mpr ⟨edge, hedge, by simp⟩)
  apply BreadthFirst.queue_run hnodes
  refine (BreadthFirst.potential_start nodes).trans ?_
  gcongr

end Expansion

/-- The two requests differ in the order of entities, edges and hits. -/
structure RecallRequest.Permuted (r r' : RecallRequest) : Prop where
  profile : r.profile = r'.profile
  codeEntities : r.codeEntities.Perm r'.codeEntities
  edges : r.edges.Perm r'.edges
  externalHits : r.externalHits.Perm r'.externalHits
  legacyEntityIds : r.legacyEntityIds = r'.legacyEntityIds
  limit : r.limit = r'.limit
  graphMaxHops : r.graphMaxHops = r'.graphMaxHops

def RecallRequest.DistinctIds (r : RecallRequest) : Prop :=
  ((r.codeEntities.filter fun item => item.repoId = r.profile.repoId).map CodeEntity.id).Nodup

instance (r : RecallRequest) : Decidable r.DistinctIds := inferInstanceAs (Decidable (List.Nodup _))

/-- The candidates are the same but for the order of their contributions. -/
structure SameCandidate (c c' : RecalledCandidate) : Prop where
  rest : c' = { c with sourceContributions := c'.sourceContributions }
  contributions : c.sourceContributions.Perm c'.sourceContributions

def SameOutcome : Option (List RecalledCandidate) → Option (List RecalledCandidate) → Prop
  | none, none => True
  | some l, some l' => List.Forall₂ SameCandidate l l'
  | _, _ => False

theorem max?_perm {α : Type} [LinearOrder α] {l l' : List α} (h : l.Perm l') : l.max? = l'.max? := by
  apply Option.ext
  intro a
  rw [List.max?_eq_some_iff, List.max?_eq_some_iff, h.mem_iff]
  exact and_congr_right fun _ => forall_congr' fun b => by rw [h.mem_iff]

theorem min?_perm {α : Type} [LinearOrder α] {l l' : List α} (h : l.Perm l') : l.min? = l'.min? := by
  apply Option.ext
  intro a
  rw [List.min?_eq_some_iff, List.min?_eq_some_iff, h.mem_iff]
  exact and_congr_right fun _ => forall_congr' fun b => by rw [h.mem_iff]

theorem SameCandidate.rank {c c' : RecalledCandidate} (h : SameCandidate c c') :
    candidateRank c = candidateRank c' := by
  have hbest : bestContribution c.sourceContributions = bestContribution c'.sourceContributions := by
    unfold bestContribution
    rw [max?_perm (h.contributions.map _)]
  unfold candidateRank
  rw [h.rest, hbest]

namespace RecallRequest

variable {normalizeConcept : String → String} {candidateId : String → String → String → String}
  {r r' : RecallRequest}

theorem entities_eq (h : r.DistinctIds) :
    r.entities = r.codeEntities.filter fun item => item.repoId = r.profile.repoId := by
  unfold entities
  dsimp only
  rw [(List.nodup_reverse.mpr h).dedup, List.reverse_reverse, List.filterMap_map]
  conv_rhs => rw [← List.filterMap_some (l := List.filter _ r.codeEntities)]
  exact List.filterMap_congr fun entity hentity => dictBy_of_mem h hentity

theorem Permuted.distinctIds (h : r.Permuted r') (hids : r.DistinctIds) : r'.DistinctIds := by
  unfold DistinctIds at hids ⊢
  rw [← h.profile]
  exact ((h.codeEntities.filter _).map _).nodup_iff.mp hids

theorem Permuted.entities (h : r.Permuted r') (hids : r.DistinctIds) :
    r.entities.Perm r'.entities := by
  rw [entities_eq hids, entities_eq (h.distinctIds hids), h.profile]
  exact h.codeEntities.filter _

theorem Permuted.known (h : r.Permuted r') (hids : r.DistinctIds) (entityId : String) :
    r.Known entityId ↔ r'.Known entityId :=
  ((h.entities hids).map _).mem_iff

theorem Permuted.knownHits (h : r.Permuted r') (hids : r.DistinctIds) :
    r.knownHits.Perm r'.knownHits := by
  unfold RecallRequest.knownHits
  simp only [h.known hids]
  exact h.externalHits.filter _

variable (normalizeConcept) in
theorem Permuted.seedLog (h : r.Permuted r') (hids : r.DistinctIds) :
    (r.seedLog normalizeConcept).Perm (r'.seedLog normalizeConcept) := by
  refine .append (.append ?_ ?_) (.of_eq ?_)
  · unfold ruleLog
    rw [h.profile]
    exact (h.entities hids).flatMap_right _
  · exact (h.knownHits hids).map _
  · unfold legacyLog
    rw [h.legacyEntityIds, h.profile]
    simp only [h.known hids]

variable (normalizeConcept) in
theorem Permuted.log (h : r.Permuted r') (hids : r.DistinctIds) :
    (r.log normalizeConcept).Perm (r'.log normalizeConcept) := by
  refine .append (h.seedLog normalizeConcept hids) (.of_eq ?_)
  unfold graphLog
  rw [graphExpand_congr (ContributionLog.ids_perm (h.seedLog normalizeConcept hids)) h.edges, h.graphMaxHops]
  simp only [h.known hids]

variable (candidateId) in
theorem Permuted.candidateOf (h : r.Permuted r') (hids : r.DistinctIds) {log log' : ContributionLog}
    (hlog : log.Perm log') (entityId : String) :
    SameCandidate (r.candidateOf candidateId log entityId)
      (r'.candidateOf candidateId log' entityId) := by
  have hitems : (sortedBy contributionKey (log.of entityId)).Perm
      (sortedBy contributionKey (log'.of entityId)) :=
    (perm_sortedBy _).trans ((ContributionLog.of_perm hlog entityId).trans (perm_sortedBy _).symm)
  have hentity : dictBy CodeEntity.id r.entities entityId =
      dictBy CodeEntity.id r'.entities entityId := by
    have hnodup : (r.entities.map CodeEntity.id).Nodup := by
      rw [entities_eq hids]
      exact hids
    rw [dictBy_congr (h.entities hids) hnodup]
  have hchunks : ∀ chunk,
      chunk ∈ (r.knownHits.filter fun hit => hit.codeEntityId = entityId).flatMap
          ExternalRecallHit.chunkIds ↔
        chunk ∈ (r'.knownHits.filter fun hit => hit.codeEntityId = entityId).flatMap
          ExternalRecallHit.chunkIds :=
    fun chunk => (((h.knownHits hids).filter _).flatMap_right _).mem_iff
  refine ⟨?_, hitems⟩
  unfold RecallRequest.candidateOf
  dsimp only
  rw [h.profile, hentity, min?_perm (hitems.filterMap _), sortedSet_congr hchunks]

theorem recalled_eq : r.recalled normalizeConcept candidateId =
    (sortedBy (fun entityId => candidateRank
        (r.candidateOf candidateId (r.log normalizeConcept) entityId))
      (r.log normalizeConcept).ids).map (r.candidateOf candidateId (r.log normalizeConcept)) := by
  exact sortedBy_map _ _

variable (normalizeConcept candidateId) in
theorem forall₂_recalled (h : r.Permuted r') (hids : r.DistinctIds) :
    List.Forall₂ SameCandidate (r.recalled normalizeConcept candidateId)
      (r'.recalled normalizeConcept candidateId) := by
  have hsame := fun entityId => h.candidateOf candidateId hids (h.log normalizeConcept hids) entityId
  have hrank : (fun entityId => candidateRank
      (r.candidateOf candidateId (r.log normalizeConcept) entityId)) =
      fun entityId => candidateRank
        (r'.candidateOf candidateId (r'.log normalizeConcept) entityId) :=
    funext fun entityId => (hsame entityId).rank
  rw [recalled_eq, recalled_eq, ← hrank]
  rw [sortedBy_congr (ContributionLog.ids_perm (h.log normalizeConcept hids))]
  · rw [List.forall₂_map_left_iff, List.forall₂_map_right_iff, List.forall₂_same]
    exact fun entityId _ => hsame entityId
  · intro a _ b _ heq
    have hname := congrArg (fun key => (ofLex (ofLex key).2).2) heq
    exact hname

/-- Candidate recall does not depend on the order of entities, edges and hits. -/
theorem sameOutcome_generate (h : r.Permuted r') (hids : r.DistinctIds) :
    SameOutcome (r.generate normalizeConcept candidateId)
      (r'.generate normalizeConcept candidateId) := by
  have hhits : (∀ hit ∈ r.knownHits, 1 ≤ hit.rank) ↔ ∀ hit ∈ r'.knownHits, 1 ≤ hit.rank :=
    forall_congr' fun hit => by rw [(h.knownHits hids).mem_iff]
  have hrecalled := forall₂_recalled normalizeConcept candidateId h hids
  unfold generate
  by_cases hvalid : ∀ hit ∈ r.knownHits, 1 ≤ hit.rank
  · rw [if_pos hvalid, if_pos (hhits.mp hvalid), h.limit]
    unfold sliceTo SameOutcome
    dsimp only
    split_ifs
    · exact List.forall₂_take _ hrecalled
    · rw [hrecalled.length_eq]
      exact List.forall₂_take _ hrecalled
  · rw [if_neg hvalid, if_neg (mt hhits.mpr hvalid)]
    exact trivial

variable (normalizeConcept r) in
def Seed (entityId : String) : Prop := entityId ∈ (r.seedLog normalizeConcept).ids

variable {item : CandidateSourceContribution}

theorem exists_rule {profile : RecallProfile} {entity : CodeEntity}
    (h : item ∈ ruleContributions normalizeConcept profile entity) :
    ∃ kind, item.details = .rule kind := by
  unfold ruleContributions at h
  dsimp only at h
  split_ifs at h with hexact
  · rw [List.mem_singleton.mp h]
    exact ⟨_, rfl⟩
  all_goals
    simp only [List.mem_append, List.mem_singleton, List.not_mem_nil, or_false, false_or] at h
  · rcases h with (rfl | rfl) | rfl <;> exact ⟨_, rfl⟩
  · rcases h with rfl | rfl <;> exact ⟨_, rfl⟩
  · rcases h with rfl | rfl <;> exact ⟨_, rfl⟩
  · rw [h]
    exact ⟨_, rfl⟩
  · rcases h with rfl | rfl <;> exact ⟨_, rfl⟩
  · rw [h]
    exact ⟨_, rfl⟩
  · rw [h]
    exact ⟨_, rfl⟩

theorem details_of_seedLog (h : (entityId, item) ∈ r.seedLog normalizeConcept) (hop : ℕ)
    (edgeIds : List String) :
    item.details ≠ .graph hop edgeIds := by
  unfold seedLog at h
  rcases List.mem_append.mp h with h | h
  · rcases List.mem_append.mp h with h | h
    · obtain ⟨entity, _, hrule⟩ := List.mem_flatMap.mp h
      obtain ⟨rule, hmem, heq⟩ := List.mem_map.mp hrule
      obtain ⟨kind, hkind⟩ := exists_rule hmem
      rw [← (Prod.mk.inj heq).2, hkind]
      nofun
    · obtain ⟨hit, _, heq⟩ := List.mem_map.mp h
      rw [← (Prod.mk.inj heq).2]
      nofun
  · obtain ⟨entry, _, heq⟩ := List.mem_map.mp h
    rw [← (Prod.mk.inj heq).2]
    nofun

variable (normalizeConcept r) in
def visits : List (BreadthFirst.Visit String String) :=
  graphExpand (r.seedLog normalizeConcept).ids r.edges r.graphMaxHops

theorem mem_graphLog : (entityId, item) ∈ r.graphLog normalizeConcept ↔
      ∃ v ∈ r.visits normalizeConcept, r.Known v.node ∧ v.node = entityId ∧
        contributionOf .codeGraph (some v.depth) ((65 / 100) ^ v.depth) v.path
          (.graph v.depth v.path) = item := by
  unfold graphLog
  rw [List.mem_map]
  constructor
  · rintro ⟨v, hv, heq⟩
    obtain ⟨hmem, hknown⟩ := List.mem_filter.mp hv
    exact ⟨v, hmem, of_decide_eq_true hknown, Prod.mk.inj heq⟩
  · rintro ⟨v, hv, hknown, rfl, rfl⟩
    exact ⟨v, List.mem_filter.mpr ⟨hv, decide_eq_true hknown⟩, rfl⟩

def FromGraph (item : CandidateSourceContribution) : Prop :=
  match item.details with
  | .graph _ _ => True
  | _ => False

instance (item : CandidateSourceContribution) : Decidable (FromGraph item) := by
  unfold FromGraph
  exact match item.details with
    | .graph _ _ => .isTrue trivial
    | .rule _ => .isFalse id
    | .hit _ _ => .isFalse id
    | .legacy => .isFalse id

theorem fromGraph_iff : FromGraph item ↔ ∃ hop edgeIds, item.details = .graph hop edgeIds := by
  unfold FromGraph
  cases item.details <;> simp

/-- The contributions of the graph to an entity are those of its visits. -/
theorem filter_fromGraph (entityId : String) :
    ((r.log normalizeConcept).of entityId).filter (fun item => FromGraph item) =
      (r.graphLog normalizeConcept).of entityId := by
  have happend : (r.log normalizeConcept).of entityId =
      (r.seedLog normalizeConcept).of entityId ++ (r.graphLog normalizeConcept).of entityId := by
    unfold ContributionLog.of log
    rw [List.filter_append, List.map_append]
  have hseed : ((r.seedLog normalizeConcept).of entityId).filter (fun item => FromGraph item) = [] := by
    rw [List.filter_eq_nil_iff]
    intro item hitem hgraph
    obtain ⟨hop, edgeIds, heq⟩ := fromGraph_iff.mp (of_decide_eq_true hgraph)
    exact details_of_seedLog (ContributionLog.mem_of.mp hitem) hop edgeIds heq
  have hgraph : ((r.graphLog normalizeConcept).of entityId).filter (fun item => FromGraph item) =
      (r.graphLog normalizeConcept).of entityId := by
    rw [List.filter_eq_self]
    intro item hitem
    obtain ⟨v, _, _, _, rfl⟩ := mem_graphLog.mp (ContributionLog.mem_of.mp hitem)
    exact decide_eq_true trivial
  rw [happend, List.filter_append, hseed, hgraph, List.nil_append]

variable (normalizeConcept candidateId r) in
/-- What the code graph adds: one contribution to each entity of the repository within the
hops of the request that is no seed, over a shortest path. -/
structure GraphMinimal : Prop where
  shortest : ∀ c ∈ r.recalled normalizeConcept candidateId, ∀ item ∈ c.sourceContributions,
    ∀ hop edgeIds, item.details = .graph hop edgeIds →
      ¬ r.Seed normalizeConcept c.codeEntityId ∧ hop ≤ r.graphMaxHops ∧ edgeIds.length = hop ∧
        (∃ seed, r.Seed normalizeConcept seed ∧ EdgePath r.edges seed edgeIds c.codeEntityId) ∧
        ∀ seed path, r.Seed normalizeConcept seed → EdgePath r.edges seed path c.codeEntityId →
          hop ≤ path.length
  complete : ∀ entityId, r.Known entityId → ¬ r.Seed normalizeConcept entityId →
    (∃ seed path, r.Seed normalizeConcept seed ∧ EdgePath r.edges seed path entityId ∧
      path.length ≤ r.graphMaxHops) →
    ∃ c ∈ r.recalled normalizeConcept candidateId, c.codeEntityId = entityId ∧
      (c.sourceContributions.filter fun item => FromGraph item).length = 1

theorem mem_recalled {c : RecalledCandidate} : c ∈ r.recalled normalizeConcept candidateId ↔
    ∃ entityId ∈ (r.log normalizeConcept).ids,
      r.candidateOf candidateId (r.log normalizeConcept) entityId = c := by
  rw [recalled, mem_sortedBy, List.mem_map]

theorem graphMinimal (hhops : r.graphMaxHops < unseen) :
    r.GraphMinimal normalizeConcept candidateId := by
  obtain ⟨s, hinv, hqueue, hfound⟩ :=
    exists_finished (r.seedLog normalizeConcept).ids r.edges r.graphMaxHops
  have hvisits : r.visits normalizeConcept = s.found := hfound
  have hunseen : r.graphMaxHops.toNat < unseen := by
    have : 0 < unseen := by decide
    omega
  have hseed : ∀ entityId, entityId ∈ sortedSet (r.seedLog normalizeConcept).ids ↔
      r.Seed normalizeConcept entityId := fun _ => mem_sortedSet
  constructor
  · intro c hc item hitem hop edgeIds hdetails
    obtain ⟨entityId, _, rfl⟩ := mem_recalled.mp hc
    have hlog : (entityId, item) ∈ r.log normalizeConcept :=
      ContributionLog.mem_of.mp (mem_sortedBy.mp hitem)
    have hgraph : (entityId, item) ∈ r.graphLog normalizeConcept := by
      rcases List.mem_append.mp hlog with hlog | hlog
      · exact absurd hdetails (details_of_seedLog hlog hop edgeIds)
      · exact hlog
    obtain ⟨v, hv, _, rfl, rfl⟩ := mem_graphLog.mp hgraph
    obtain ⟨rfl, rfl⟩ : v.depth = hop ∧ v.path = edgeIds := by
      injection hdetails with hhop hpath
      exact ⟨hhop, hpath⟩
    rw [hvisits] at hv
    obtain ⟨⟨seed, hmem, hwalk⟩, hlength⟩ := hinv.walk v (List.mem_append_right _ hv)
    have hnode := (hinv.mem_found_iff hqueue hunseen).mp (List.mem_map_of_mem hv)
    have hdepth := hinv.within v hv
    refine ⟨fun h => hnode.1 ((hseed _).mpr h), by omega, hlength,
      ⟨seed, (hseed _).mp hmem, edgePath_iff_walk.mpr hwalk⟩, ?_⟩
    intro other path hother hpath
    exact hinv.depth_le hqueue hv ⟨other, (hseed _).mpr hother, path, edgePath_iff_walk.mp hpath, rfl⟩
  · rintro entityId hknown hnot ⟨seed, path, hmem, hpath, hlength⟩
    have hnode : entityId ∈ s.found.map BreadthFirst.Visit.node := by
      refine (hinv.mem_found_iff hqueue hunseen).mpr ⟨fun h => hnot ((hseed _).mp h),
        path.length, by omega, seed, (hseed _).mpr hmem, path, edgePath_iff_walk.mp hpath, rfl⟩
    obtain ⟨v, hv, rfl⟩ := List.mem_map.mp hnode
    have hgraph := mem_graphLog.mpr ⟨v, hvisits ▸ hv, hknown, rfl, rfl⟩
    have hids : v.node ∈ (r.log normalizeConcept).ids :=
      ContributionLog.mem_ids.mpr ⟨_, List.mem_append_right _ hgraph⟩
    refine ⟨_, mem_recalled.mpr ⟨v.node, hids, rfl⟩, rfl, ?_⟩
    have hperm : ((r.candidateOf candidateId (r.log normalizeConcept)
        v.node).sourceContributions.filter fun item => FromGraph item).Perm
        ((r.graphLog normalizeConcept).of v.node) := by
      rw [← filter_fromGraph]
      exact (perm_sortedBy _).filter _
    rw [hperm.length_eq, ContributionLog.of, List.length_map]
    unfold graphLog
    rw [show graphExpand (r.seedLog normalizeConcept).ids r.edges r.graphMaxHops = s.found from hfound,
      List.filter_map, List.length_map, List.filter_filter]
    have hcount := List.count_eq_one_of_mem hinv.nodup (List.mem_map_of_mem hv)
    rw [List.count_eq_countP, List.countP_map, List.countP_eq_length_filter] at hcount
    rw [← hcount]
    refine congrArg List.length (List.filter_congr fun w _ => ?_)
    rw [Bool.eq_iff_iff]
    simp only [Function.comp_apply, Bool.and_eq_true, decide_eq_true_eq, beq_iff_eq]
    exact ⟨fun h => h.1, fun h => ⟨h, h ▸ hknown⟩⟩

theorem sliceTo_eq_take {α : Type} (limit : ℤ) (l : List α) : ∃ n, sliceTo limit l = l.take n := by
  unfold sliceTo
  split_ifs
  · exact ⟨_, rfl⟩
  · exact ⟨_, rfl⟩

variable (normalizeConcept candidateId r) in
def CutByRank : Prop :=
  ∀ l, r.generate normalizeConcept candidateId = some l →
    l = sliceTo r.limit (r.recalled normalizeConcept candidateId) ∧
      ∀ kept ∈ l, ∀ omitted ∈ r.recalled normalizeConcept candidateId, omitted ∉ l →
        candidateRank kept ≤ candidateRank omitted

theorem cutByRank : r.CutByRank normalizeConcept candidateId := by
  intro l hl
  unfold generate at hl
  split_ifs at hl
  obtain rfl := Option.some.inj hl
  refine ⟨rfl, ?_⟩
  obtain ⟨n, hn⟩ := sliceTo_eq_take r.limit (r.recalled normalizeConcept candidateId)
  rw [hn]
  intro kept hkept omitted homitted hleft
  have hsorted : (r.recalled normalizeConcept candidateId).Pairwise
      fun a b => candidateRank a ≤ candidateRank b := pairwise_sortedBy _
  rw [← List.take_append_drop n (r.recalled normalizeConcept candidateId), List.mem_append]
    at homitted
  rw [← List.take_append_drop n (r.recalled normalizeConcept candidateId), List.pairwise_append]
    at hsorted
  exact hsorted.2.2 kept hkept omitted (homitted.resolve_left hleft)

/-- Recall does not depend on the order of entities, edges and hits, adds what the code graph
reaches over shortest paths, and is cut by rank. -/
theorem recall_minimal (hids : r.DistinctIds) (hhops : r.graphMaxHops < unseen) :
    (∀ r', r.Permuted r' → SameOutcome (r.generate normalizeConcept candidateId)
        (r'.generate normalizeConcept candidateId)) ∧
      r.GraphMinimal normalizeConcept candidateId ∧ r.CutByRank normalizeConcept candidateId :=
  ⟨fun _ h => sameOutcome_generate h hids, graphMinimal hhops, cutByRank⟩

end RecallRequest

namespace Sample

def profile : RecallProfile where
  profileId := "profile"
  alignmentRunId := "run"
  profileType := .module
  evidenceIds := ["paper-evidence"]
  content := ""
  repoId := "repo"
  indexVersionId := "idx"
  canonicalName := "attention"
  aliases := []
  abbreviations := []
  role := none
  figureNeighborIds := []

def entity (id name : String) : CodeEntity where
  id := id
  repoId := "repo"
  entityType := .function
  path := name
  name := name
  qualifiedName := name
  docstring := none
  evidenceRefs := []

def request (legacyEntityIds : List String) : RecallRequest where
  profile := profile
  codeEntities := [entity "a" "left", entity "b" "right", entity "c" "far"]
  edges := [⟨"e", "a", some "c", .calls⟩]
  externalHits := []
  legacyEntityIds := legacyEntityIds

/-- A legacy list in the other order gives other ranks. -/
theorem legacy_order_counts :
    ¬ SameOutcome ((request ["a", "b"]).generate id fun _ _ entityId => entityId)
      ((request ["b", "a"]).generate id fun _ _ entityId => entityId) := by
  intro h
  have hids : ((request ["a", "b"]).generate id fun _ _ entityId => entityId).map
      (List.map RecalledCandidate.codeEntityId) = some ["a", "c", "b"] := by decide +kernel
  have hids' : ((request ["b", "a"]).generate id fun _ _ entityId => entityId).map
      (List.map RecalledCandidate.codeEntityId) = some ["b", "c", "a"] := by decide +kernel
  obtain ⟨l, hl, hmap⟩ := Option.map_eq_some_iff.mp hids
  obtain ⟨l', hl', hmap'⟩ := Option.map_eq_some_iff.mp hids'
  rw [hl, hl'] at h
  have hsame : l.map RecalledCandidate.codeEntityId = l'.map RecalledCandidate.codeEntityId := by
    refine List.forall₂_eq_eq_eq ▸ ?_
    rw [List.forall₂_map_left_iff, List.forall₂_map_right_iff]
    exact h.imp fun c c' hc => by rw [hc.rest]
  rw [hmap, hmap'] at hsame
  exact absurd hsame (by decide)

theorem recall_minimal_sample :
    (∀ r', (request ["a", "b"]).Permuted r' →
        SameOutcome ((request ["a", "b"]).generate id fun _ _ entityId => entityId)
          (r'.generate id fun _ _ entityId => entityId)) ∧
      (request ["a", "b"]).GraphMinimal id (fun _ _ entityId => entityId) ∧
        (request ["a", "b"]).CutByRank id fun _ _ entityId => entityId :=
  RecallRequest.recall_minimal (by decide) (by decide)

end Sample

end CodeResearch.Alignment.Recall
