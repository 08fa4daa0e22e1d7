import CodeResearch.Alignment.Schemas
import CodeResearch.Library.BreadthFirst
import CodeResearch.Library.Dict
import CodeResearch.Library.Ranking
import Mathlib.Algebra.Order.Ring.Rat
import Mathlib.Data.Prod.Lex
import Mathlib.Data.String.Basic

/-!
# Candidate recall

`generate_alignment_candidates` collects the contributions of the rules, of the external
hits, of the legacy alignment and of the code graph to the entities of a repository, merges
them by entity and returns the first candidates of their ranking. `normalize_concept`, which
normalizes Unicode texts, is given.
-/
namespace CodeResearch.Alignment.Recall

/-- `cls` is the source's `class`. -/
inductive CodeEntityType
  | repository | directory | file | cls | function | method | modelModule | config
  | trainingEntry | inferenceEntry | dataset
  deriving DecidableEq

structure CodeEntity where
  id : String
  repoId : String
  entityType : CodeEntityType
  path : String
  name : String
  qualifiedName : String
  docstring : Option String
  evidenceRefs : List String
  deriving DecidableEq

inductive EdgeType
  | contains | defines | imports | calls | inherits | instantiates | configures | trains
  | usedInInference | nextModule | alignsWith
  deriving DecidableEq

structure KnowledgeEdge where
  id : String
  sourceId : String
  targetId : Option String
  edgeType : EdgeType
  deriving DecidableEq

inductive AlignmentSource
  | deterministicRule | legacyAlignment | retrievalSparse | retrievalDense | codeGraph | figureVlm
  | structuredLlm | scorer | calibrator | llmVerifier | humanReview
  deriving DecidableEq

def AlignmentSource.text : AlignmentSource → String
  | .deterministicRule => "deterministic_rule"
  | .legacyAlignment => "legacy_alignment"
  | .retrievalSparse => "retrieval_sparse"
  | .retrievalDense => "retrieval_dense"
  | .codeGraph => "code_graph"
  | .figureVlm => "figure_vlm"
  | .structuredLlm => "structured_llm"
  | .scorer => "scorer"
  | .calibrator => "calibrator"
  | .llmVerifier => "llm_verifier"
  | .humanReview => "human_review"

structure ExternalRecallHit where
  source : AlignmentSource
  codeEntityId : String
  rank : ℤ
  score : Option ℚ
  evidenceIds : List String
  chunkIds : List String
  /-- the value that `details` has under `raw_score`, if it has one -/
  rawScore : Option (Option ℚ)
  /-- the other details as canonical text -/
  details : String
  deriving DecidableEq

/-- The fields of a profile that the recall reads. -/
structure RecallProfile extends PaperModuleProfile where
  repoId : String
  indexVersionId : String
  canonicalName : String
  aliases : List String
  abbreviations : List String
  role : Option String
  figureNeighborIds : List String
  deriving DecidableEq

inductive ContributionDetails
  /-- the `match` of a rule -/
  | rule (kind : String)
  | hit (rawScore : Option ℚ) (details : String)
  | legacy
  | graph (hop : ℕ) (edgeIds : List String)
  deriving DecidableEq

structure CandidateSourceContribution where
  source : AlignmentSource
  sourceRank : Option ℤ
  sourceScore : Option ℚ
  normalizedContribution : ℚ
  evidenceIds : List String
  details : ContributionDetails
  deriving DecidableEq

def ContributionDetails.rawScore : ContributionDetails → Option ℚ
  | .hit rawScore _ => rawScore
  | _ => none

/-- The contribution that `_add` appends. -/
def contributionOf (source : AlignmentSource) (rank : Option ℤ) (contribution : ℚ)
    (evidenceIds : List String) (details : ContributionDetails) : CandidateSourceContribution where
  source := source
  sourceRank := rank
  sourceScore := details.rawScore
  normalizedContribution := max 0 contribution
  evidenceIds := sortedSet evidenceIds
  details := details

/-- The contributions in the order in which `_add` appends them, with their entities. -/
abbrev ContributionLog := List (String × CandidateSourceContribution)

def ContributionLog.of (log : ContributionLog) (entityId : String) :
    List CandidateSourceContribution :=
  (log.filter fun entry => entry.1 = entityId).map Prod.snd

def ContributionLog.ids (log : ContributionLog) : List String :=
  (log.map Prod.fst).reverse.dedup.reverse

section Rules

variable (normalizeConcept : String → String)

def normalizedNames (names : List String) : Finset String :=
  ((names.map normalizeConcept).filter fun value => value ≠ "").toFinset

def profileNames (profile : RecallProfile) : Finset String :=
  normalizedNames normalizeConcept (profile.canonicalName :: profile.aliases ++ profile.abbreviations)

def entityNames (entity : CodeEntity) : Finset String :=
  normalizedNames normalizeConcept [entity.name, entity.qualifiedName, entity.path]

/-- `str.split`. -/
def splitWords (text : String) : List String :=
  ((text.toList.splitOnP fun c => isSpace c).filter fun word => word ≠ []).map String.ofList

def nameTokens (names : Finset String) : Finset String :=
  (names.biUnion fun value => (splitWords value).toFinset).filter fun token =>
    token ∉ ["module", "model"]

def tokenOverlap (left right : Finset String) : ℚ :=
  let leftTokens := nameTokens left
  let rightTokens := nameTokens right
  if leftTokens = ∅ ∨ rightTokens = ∅ then 0
  else ((leftTokens ∩ rightTokens).card : ℚ) / (leftTokens ∪ rightTokens).card

def entityText (entity : CodeEntity) : String :=
  normalizeConcept
    (" ".intercalate [entity.name, entity.qualifiedName, entity.path, entity.docstring.getD ""])

def ruleContributions (profile : RecallProfile) (entity : CodeEntity) :
    List CandidateSourceContribution :=
  let names := profileNames normalizeConcept profile
  let others := entityNames normalizeConcept entity
  if names ∩ others ≠ ∅ then
    [contributionOf .deterministicRule (some 1) 1 profile.evidenceIds (.rule "exact")]
  else
    let overlap := tokenOverlap names others
    let role := profile.role.getD ""
    (if 0 < overlap then
      [contributionOf .deterministicRule none overlap profile.evidenceIds (.rule "normalized")]
    else []) ++
    (if role ≠ "" ∧ role.toList <:+: (entityText normalizeConcept entity).toList then
      [contributionOf .deterministicRule none (65 / 100) profile.evidenceIds (.rule "role")]
    else []) ++
    (if profile.figureNeighborIds ≠ [] ∧
        entity.entityType ∈ [CodeEntityType.modelModule, .cls, .method] then
      [contributionOf .figureVlm none (35 / 100) profile.figureNeighborIds
        (.rule "figure_topology_seed")]
    else [])

end Rules

/-- The edge types that `_graph_expand` follows. -/
def EdgeType.allowed : List EdgeType :=
  [contains, defines, calls, instantiates, imports, nextModule]

def KnowledgeEdge.arcs (edge : KnowledgeEdge) (node : String) : List (String × String) :=
  match edge.targetId with
  | none => []
  | some target =>
    if edge.edgeType ∈ EdgeType.allowed ∧ target ≠ "" then
      (if edge.sourceId = node then [(target, edge.id)] else []) ++
        if target = node then [(edge.sourceId, edge.id)] else []
    else []

/-- `sorted(adjacency.get(node, []))`. -/
def neighbours (edges : List KnowledgeEdge) (node : String) : List (String × String) :=
  sortedBy (fun arc : String × String => toLex arc) (edges.flatMap fun edge => edge.arcs node)

/-- The distance that `_graph_expand` takes for a node that it has not seen. -/
def unseen : ℕ := 99

/-- `_graph_expand`. A node is queued whenever its distance drops, which bounds the turns of
the loop. -/
def graphExpand (seeds : List String) (edges : List KnowledgeEdge) (maxHops : ℤ) :
    List (BreadthFirst.Visit String String) :=
  (BreadthFirst.run (neighbours edges) maxHops.toNat (seeds.length + 2 * edges.length * unseen)
    (BreadthFirst.start unseen (sortedSet seeds))).found

structure RecalledCandidate where
  candidateId : String
  alignmentRunId : String
  profileId : String
  codeEntityId : String
  sourceContributions : List CandidateSourceContribution
  bestSourceRank : Option ℤ
  codeEvidenceIds : List String
  retrievalChunkIds : List String
  deriving DecidableEq

/-- The inputs of `generate_alignment_candidates`. -/
structure RecallRequest where
  profile : RecallProfile
  codeEntities : List CodeEntity
  edges : List KnowledgeEdge
  externalHits : List ExternalRecallHit
  legacyEntityIds : List String
  limit : ℤ := 20
  graphMaxHops : ℤ := 2
  deriving DecidableEq

def contributionKey (item : CandidateSourceContribution) : ℤ ×ₗ ℚ ×ₗ String :=
  toLex (item.sourceRank.getD 1000000, toLex (-item.normalizedContribution, item.source.text))

def bestContribution (contributions : List CandidateSourceContribution) : ℚ :=
  (contributions.map CandidateSourceContribution.normalizedContribution).max?.getD 0

/-- `_candidate_rank`. -/
def candidateRank (item : RecalledCandidate) : ℚ ×ₗ ℤ ×ₗ String :=
  toLex (-bestContribution item.sourceContributions,
    toLex (item.bestSourceRank.getD 1000000, item.codeEntityId))

/-- `l[:limit]`. -/
def sliceTo {α : Type} (limit : ℤ) (l : List α) : List α :=
  if 0 ≤ limit then l.take limit.toNat else l.take (l.length - limit.natAbs)

namespace RecallRequest

variable (normalizeConcept : String → String) (candidateId : String → String → String → String)
  (r : RecallRequest)

def entities : List CodeEntity :=
  let own := r.codeEntities.filter fun item => item.repoId = r.profile.repoId
  (own.map CodeEntity.id).reverse.dedup.reverse.filterMap (dictBy CodeEntity.id own)

def Known (entityId : String) : Prop := entityId ∈ r.entities.map CodeEntity.id

instance (entityId : String) : Decidable (r.Known entityId) :=
  inferInstanceAs (Decidable (_ ∈ _))

def ruleLog : ContributionLog :=
  r.entities.flatMap fun entity =>
    (ruleContributions normalizeConcept r.profile entity).map fun item => (entity.id, item)

def knownHits : List ExternalRecallHit := r.externalHits.filter fun hit => r.Known hit.codeEntityId

def hitLog : ContributionLog :=
  r.knownHits.map fun hit => (hit.codeEntityId,
    contributionOf hit.source (some hit.rank) (1 / (max 1 hit.rank : ℤ)) hit.evidenceIds
      (.hit (hit.rawScore.getD hit.score) hit.details))

def legacyLog : ContributionLog :=
  ((r.legacyEntityIds.zipIdx 1).filter fun entry => r.Known entry.1).map fun entry =>
    (entry.1, contributionOf .legacyAlignment (some entry.2) (1 / entry.2) r.profile.evidenceIds
      .legacy)

def seedLog : ContributionLog := r.ruleLog normalizeConcept ++ r.hitLog ++ r.legacyLog

def graphLog : ContributionLog :=
  ((graphExpand (r.seedLog normalizeConcept).ids r.edges r.graphMaxHops).filter
    fun visit => r.Known visit.node).map fun visit =>
      (visit.node, contributionOf .codeGraph (some visit.depth) ((65 / 100) ^ visit.depth) visit.path
        (.graph visit.depth visit.path))

def log : ContributionLog := r.seedLog normalizeConcept ++ r.graphLog normalizeConcept

/-- The candidate that `merge_candidate_contributions` builds for an entity. -/
def candidateOf (log : ContributionLog) (entityId : String) : RecalledCandidate :=
  let ordered := sortedBy contributionKey (log.of entityId)
  { candidateId := candidateId r.profile.profileId r.profile.indexVersionId entityId
    alignmentRunId := r.profile.alignmentRunId
    profileId := r.profile.profileId
    codeEntityId := entityId
    sourceContributions := ordered
    bestSourceRank := (ordered.filterMap CandidateSourceContribution.sourceRank).min?
    codeEvidenceIds := sortedSet
      (((dictBy CodeEntity.id r.entities entityId).map CodeEntity.evidenceRefs).getD [])
    retrievalChunkIds := sortedSet
      ((r.knownHits.filter fun hit => hit.codeEntityId = entityId).flatMap
        ExternalRecallHit.chunkIds) }

def recalled : List RecalledCandidate :=
  sortedBy candidateRank
    ((r.log normalizeConcept).ids.map (r.candidateOf candidateId (r.log normalizeConcept)))

/-- `generate_alignment_candidates`, which raises for a hit whose rank is not positive. -/
def generate : Option (List RecalledCandidate) :=
  if ∀ hit ∈ r.knownHits, 1 ≤ hit.rank then
    some (sliceTo r.limit (r.recalled normalizeConcept candidateId))
  else none

end RecallRequest

end CodeResearch.Alignment.Recall
