import CodeResearch.Alignment.RunProcess

/-!
# Resuming a run

A run that is cut off between two store calls is processed again from its status. What the
replayed stages compute does not depend on the order in which the rows are loaded, except
for the candidates that a fallback verification lists; and the verifier sees its own
decisions when it is cut off after it saved them.
-/
namespace CodeResearch.Alignment

open DomainJobs (AlignmentStatus)

/-- Stages whose results are named as the extractors and the generators name them. -/
structure LawfulStages extends Stages where
  nodup_profiles : (profiles.map PaperModuleProfile.profileId).Nodup
  profileId_candidates : ∀ p, ∀ c ∈ candidates p, c.profileId = p.profileId
  nodup_candidates : ((profiles.flatMap candidates).map AlignmentCandidate.candidateId).Nodup
  feature_ids : ∀ p c, (feature p c).candidateId = c.candidateId ∧
    (feature p c).profileId = p.profileId
  score_ids : ∀ v, (score v).candidateId = v.candidateId ∧ (score v).profileId = v.profileId
  candidateJson_inj : ∀ p ∈ profiles, ∀ c ∈ candidates p, ∀ c' ∈ candidates p,
    candidateJson c = candidateJson c' → c = c'

/-- A run, the call that processes it, and the decisions that the provider was asked about. -/
structure Resumption where
  store : RunRecord := {}
  process : Process := { token := none }
  asked : List AlignmentDecision := []

inductive ResumeLabel
  | advance
  /-- the call is cut off, and `process_run` is called again -/
  | cut
  deriving DecidableEq

namespace Resumption

variable (g : Stages) (x : Resumption)

def asks (l : Locals) (table : StageTable) : List AlignmentDecision :=
  if table = .finals ∧ g.provider.isSome then l.decisions else []

def advance : Resumption :=
  let result := x.process.advance g x.store 0
  { store := result.1
    process := result.2
    asked := x.asked ++ match x.process.ops with
      | .compute table :: _ => asks g x.process.locals table
      | _ => [] }

def step : ResumeLabel → Option Resumption
  | .advance => if x.process.ops = [] then none else some (x.advance g)
  | .cut => if x.process.ops = [] then none else some { x with process := { token := none } }

def machine : Machine Resumption ResumeLabel := ⟨step g⟩

/-- `process_run` returned. -/
def Returned : Prop := x.process.ops = []

instance : Decidable x.Returned := inferInstanceAs (Decidable (_ = _))

end Resumption

namespace LawfulStages

variable (g : LawfulStages)

def allCandidates : List AlignmentCandidate := g.profiles.flatMap g.candidates

def allFeatures : List AlignmentFeatureVector :=
  (g.allCandidates.filter fun c => g.hasEntity c.codeEntityId).filterMap fun c =>
    (Stages.profileById g.profiles c.profileId).map fun p => g.feature p c

def allScores : List AlignmentCandidateScore := g.allFeatures.map g.score

def profileScores (p : PaperModuleProfile) : List AlignmentCandidateScore :=
  g.allScores.filter fun s => s.profileId = p.profileId

def scorerDecision (p : PaperModuleProfile) : AlignmentDecision :=
  buildProfileDecision g.ids p (g.candidates p) (g.profileScores p)

def verified (p : PaperModuleProfile) : AlignmentDecision × AlignmentVerification :=
  verifyProfile g.ids g.verificationIds g.provider p (g.candidates p) (g.profileScores p)
    (g.scorerDecision p)

def finalDecisions : List AlignmentDecision :=
  if g.verifierEnabled then g.profiles.map fun p => (g.verified p).1
  else g.profiles.map g.scorerDecision

def finalVerifications : List AlignmentVerification :=
  if g.verifierEnabled then g.profiles.map fun p => (g.verified p).2 else []

def FallsBack (p : PaperModuleProfile) : Prop :=
  g.provider.bind (fun provider => provider.verify g.ids g.verificationIds p (g.candidates p)
    (g.profileScores p) (g.scorerDecision p)) = none

instance (p : PaperModuleProfile) : Decidable (g.FallsBack p) :=
  decidable_of_iff _ Option.isNone_iff_eq_none

/-- A cut that leaves no decision of the verifier, and no candidates that a fallback would
list in another order once they are loaded. -/
def Spares (x : Resumption) (label : ResumeLabel) : Prop :=
  label = .cut → (∀ d ∈ x.store.decisions, d.decisionSource = .scorer) ∧
    (g.verifierEnabled = true →
      x.store.status ∈ [AlignmentStatus.featurizing, .scoring, .verifying, .active] →
      ∀ p ∈ g.profiles, g.FallsBack p → byText g.candidateJson (g.candidates p) = g.candidates p)

instance (x : Resumption) (label : ResumeLabel) : Decidable (g.Spares x label) :=
  inferInstanceAs (Decidable (_ → _))

/-- The rows of a run are those of another run, in some order. -/
structure SameResult (s t : RunRecord) : Prop where
  status : s.status = t.status
  profiles : s.profiles.Perm t.profiles
  candidates : s.candidates.Perm t.candidates
  features : s.features.Perm t.features
  scores : s.scores.Perm t.scores
  decisions : s.decisions.Perm t.decisions
  verifications : s.verifications.Perm t.verifications

end LawfulStages

def RunRecord.NamesVerifications (s : RunRecord) : Prop :=
  ∀ d ∈ s.decisions, d.decisionSource = .llmVerifier → ∃ v ∈ s.verifications,
    d.verifierId = some v.verificationId ∧ v.profileId = d.profileId ∧ v.status = .success

theorem mapM_eq_some_filterMap {α β : Type*} {f : α → Option β} {l : List α}
    (h : ∀ a ∈ l, (f a).isSome) : l.mapM f = some (l.filterMap f) := by
  induction l with
  | nil => rfl
  | cons a l ih =>
    obtain ⟨b, hb⟩ := Option.isSome_iff_exists.mp (h a List.mem_cons_self)
    rw [List.mapM_cons, hb, ih fun c hc => h c (List.mem_cons_of_mem a hc),
      List.filterMap_cons_some hb]
    rfl

namespace LawfulStages

variable {g : LawfulStages} {l : Locals} {p : PaperModuleProfile}

theorem perm_byText {α : Type*} (text : α → String) (l : List α) : (byText text l).Perm l :=
  List.perm_insertionSort _ _

theorem filter_allCandidates (hp : p ∈ g.profiles) :
    g.allCandidates.filter (fun c => c.profileId = p.profileId) = g.candidates p :=
  filter_flatMap_of_key g.profileId_candidates g.nodup_profiles hp

theorem exists_profile {c : AlignmentCandidate} (hc : c ∈ g.allCandidates) :
    ∃ p ∈ g.profiles, c ∈ g.candidates p ∧ Stages.profileById g.profiles c.profileId = some p := by
  obtain ⟨p, hp, hcp⟩ := List.mem_flatMap.mp hc
  refine ⟨p, hp, hcp, ?_⟩
  rw [g.profileId_candidates p c hcp]
  exact dictBy_of_mem g.nodup_profiles hp

theorem featuresOf_perm (hprofiles : l.profiles.Perm g.profiles)
    (hcandidates : l.candidates.Perm g.allCandidates) :
    ∃ features, g.featuresOf l = some features ∧ features.Perm g.allFeatures := by
  have hdict : Stages.profileById l.profiles = Stages.profileById g.profiles :=
    dictBy_congr hprofiles ((hprofiles.map _).nodup_iff.mpr g.nodup_profiles)
  have hsome : ∀ c ∈ l.candidates.filter fun c => g.hasEntity c.codeEntityId,
      ((Stages.profileById g.profiles c.profileId).map fun p => g.feature p c).isSome := by
    intro c hc
    obtain ⟨p, _, _, hfind⟩ := exists_profile (hcandidates.mem_iff.mp (List.mem_filter.mp hc).1)
    rw [hfind]
    rfl
  refine ⟨_, ?_, ((hcandidates.filter _).filterMap _)⟩
  unfold Stages.featuresOf
  rw [hdict]
  exact mapM_eq_some_filterMap hsome

/-- Features and scores keep the ids of their candidates. -/
theorem candidateId_allScores : (g.allScores.map AlignmentCandidateScore.candidateId).Sublist
    (g.allCandidates.map AlignmentCandidate.candidateId) := by
  have hids : g.allScores.map AlignmentCandidateScore.candidateId =
      (g.allCandidates.filter fun c => g.hasEntity c.codeEntityId).map
        AlignmentCandidate.candidateId := by
    unfold allScores allFeatures
    rw [List.map_map, List.map_filterMap]
    apply List.filterMap_eq_map_iff_forall_eq_some.mpr
    intro c hc
    obtain ⟨p, _, _, hfind⟩ := exists_profile (List.mem_filter.mp hc).1
    rw [hfind]
    simp [(g.score_ids _).1, (g.feature_ids p c).1]
  rw [hids]
  exact List.filter_sublist.map _

theorem nodup_allScores : (g.allScores.map AlignmentCandidateScore.candidateId).Nodup :=
  candidateId_allScores.nodup g.nodup_candidates

section Profile

variable (hp : p ∈ g.profiles) (hcandidates : l.candidates.Perm g.allCandidates)
  (hscores : l.scores.Perm g.allScores)

include hp hcandidates in
theorem candidatesOf_perm : (Stages.candidatesOf l p).Perm (g.candidates p) :=
  filter_allCandidates hp ▸ hcandidates.filter _

include hscores in
theorem scoresOf_perm : (Stages.scoresOf l p).Perm (g.profileScores p) := hscores.filter _

include hcandidates in
theorem nodup_candidatesOf :
    ((Stages.candidatesOf l p).map AlignmentCandidate.candidateId).Nodup := by
  have hall := (hcandidates.map AlignmentCandidate.candidateId).nodup_iff.mpr g.nodup_candidates
  exact (List.filter_sublist.map _).nodup hall

include hscores in
theorem nodup_scoresOf :
    ((Stages.scoresOf l p).map AlignmentCandidateScore.candidateId).Nodup := by
  have hall := (hscores.map AlignmentCandidateScore.candidateId).nodup_iff.mpr nodup_allScores
  exact (List.filter_sublist.map _).nodup hall

include hp hcandidates hscores in
theorem decision_eq : buildProfileDecision g.ids p (Stages.candidatesOf l p) (Stages.scoresOf l p) =
    g.scorerDecision p :=
  buildProfileDecision_congr p (candidatesOf_perm hp hcandidates) (scoresOf_perm hscores)
    (nodup_candidatesOf hcandidates) (nodup_scoresOf hscores)

include hp hcandidates hscores in
theorem verify_eq (provider : Provider) (d : AlignmentDecision) :
    provider.verify g.ids g.verificationIds p (Stages.candidatesOf l p) (Stages.scoresOf l p) d =
      provider.verify g.ids g.verificationIds p (g.candidates p) (g.profileScores p) d := by
  unfold Provider.verify scoreByCandidate
  rw [dictBy_congr (scoresOf_perm hscores) (nodup_scoresOf hscores)]
  dsimp only
  rw [ranked_congr (candidatesOf_perm hp hcandidates) (nodup_candidatesOf hcandidates)]

include hp hcandidates hscores in
theorem verifyProfile_eq (horder : g.FallsBack p → Stages.candidatesOf l p = g.candidates p) :
    verifyProfile g.ids g.verificationIds g.provider p (Stages.candidatesOf l p)
      (Stages.scoresOf l p) (g.scorerDecision p) = g.verified p := by
  have hbind : (g.provider.bind fun provider => provider.verify g.ids g.verificationIds p
        (Stages.candidatesOf l p) (Stages.scoresOf l p) (g.scorerDecision p)) =
      g.provider.bind fun provider => provider.verify g.ids g.verificationIds p
        (g.candidates p) (g.profileScores p) (g.scorerDecision p) :=
    Option.bind_congr fun provider _ =>
      verify_eq hp hcandidates hscores provider (g.scorerDecision p)
  unfold verified verifyProfile
  rw [hbind]
  cases hverify : g.provider.bind fun provider => provider.verify g.ids g.verificationIds p
    (g.candidates p) (g.profileScores p) (g.scorerDecision p) with
  | some result => rfl
  | none => rw [horder hverify]

end Profile

theorem decisions_perm (hprofiles : l.profiles.Perm g.profiles)
    (hcandidates : l.candidates.Perm g.allCandidates) (hscores : l.scores.Perm g.allScores) :
    (l.profiles.map fun p => buildProfileDecision g.ids p (Stages.candidatesOf l p)
      (Stages.scoresOf l p)).Perm (g.profiles.map g.scorerDecision) := by
  have heq : l.profiles.map (fun p => buildProfileDecision g.ids p (Stages.candidatesOf l p)
      (Stages.scoresOf l p)) = l.profiles.map g.scorerDecision :=
    List.map_congr_left fun p hp => decision_eq (hprofiles.mem_iff.mp hp) hcandidates hscores
  rw [heq]
  exact hprofiles.map _

theorem nodup_scorerDecisions :
    ((g.profiles.map g.scorerDecision).map AlignmentDecision.profileId).Nodup := by
  have hids : (g.profiles.map g.scorerDecision).map AlignmentDecision.profileId =
      g.profiles.map PaperModuleProfile.profileId := by
    rw [List.map_map]
    exact List.map_congr_left fun p _ => profileId_buildProfileDecision p _ _
  rw [hids]
  exact g.nodup_profiles

theorem decisionByProfile_eq (hdecisions : l.decisions.Perm (g.profiles.map g.scorerDecision))
    (hp : p ∈ g.profiles) :
    Stages.decisionByProfile l.decisions p.profileId = some (g.scorerDecision p) := by
  have hnodup := (hdecisions.map AlignmentDecision.profileId).nodup_iff.mpr nodup_scorerDecisions
  have hmem := hdecisions.mem_iff.mpr (List.mem_map_of_mem (f := g.scorerDecision) hp)
  have hfind := dictBy_of_mem hnodup hmem
  rwa [show (g.scorerDecision p).profileId = p.profileId from
    profileId_buildProfileDecision p _ _] at hfind

theorem verify_perm (hprofiles : l.profiles.Perm g.profiles)
    (hcandidates : l.candidates.Perm g.allCandidates) (hscores : l.scores.Perm g.allScores)
    (hdecisions : l.decisions.Perm (g.profiles.map g.scorerDecision))
    (horder : ∀ p ∈ g.profiles, g.FallsBack p → Stages.candidatesOf l p = g.candidates p) :
    ∃ results, g.verify l = some results ∧ results.Perm (g.profiles.map g.verified) := by
  have hround : ∀ p ∈ l.profiles, ((Stages.decisionByProfile l.decisions p.profileId).map fun d =>
      verifyProfile g.ids g.verificationIds g.provider p (Stages.candidatesOf l p)
        (Stages.scoresOf l p) d) = some (g.verified p) := by
    intro p hp
    have hmem := hprofiles.mem_iff.mp hp
    rw [decisionByProfile_eq hdecisions hmem, Option.map_some,
      verifyProfile_eq hmem hcandidates hscores (horder p hmem)]
  refine ⟨l.profiles.map g.verified, ?_, hprofiles.map _⟩
  unfold Stages.verify
  rw [mapM_eq_some_filterMap fun p hp => by rw [hround p hp]; rfl]
  exact congrArg some (List.filterMap_eq_map_iff_forall_eq_some.mpr hround)

theorem candidatesOf_generated {profiles : List PaperModuleProfile}
    (hprofiles : profiles.Perm g.profiles) (hl : l.candidates = profiles.flatMap g.candidates)
    (hp : p ∈ g.profiles) : Stages.candidatesOf l p = g.candidates p := by
  unfold Stages.candidatesOf
  rw [hl]
  exact filter_flatMap_of_key g.profileId_candidates
    ((hprofiles.map _).nodup_iff.mpr g.nodup_profiles) (hprofiles.mem_iff.mpr hp)

/-- Loaded candidates come in the order of their texts. -/
theorem candidatesOf_loaded {stored : List AlignmentCandidate} (hstored : stored.Perm g.allCandidates)
    (hl : l.candidates = byText g.candidateJson stored) (hp : p ∈ g.profiles) :
    Stages.candidatesOf l p = byText g.candidateJson (g.candidates p) := by
  have hcandidates : l.candidates.Perm g.allCandidates := hl ▸ (perm_byText _ _).trans hstored
  have hsorted : (Stages.candidatesOf l p).Pairwise fun a b =>
      g.candidateJson a ≤ g.candidateJson b := by
    unfold Stages.candidatesOf
    rw [hl]
    exact (List.pairwise_insertionSort _ _).sublist List.filter_sublist
  apply List.Perm.eq_of_pairwise ?_ hsorted (List.pairwise_insertionSort _ _)
    ((candidatesOf_perm hp hcandidates).trans (perm_byText _ _).symm)
  intro a b ha hb hab hba
  exact g.candidateJson_inj p hp a ((candidatesOf_perm hp hcandidates).mem_iff.mp ha) b
    ((perm_byText _ _).mem_iff.mp hb) (le_antisymm hab hba)

end LawfulStages

end CodeResearch.Alignment
