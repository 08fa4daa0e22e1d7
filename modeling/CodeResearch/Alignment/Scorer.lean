import CodeResearch.Alignment.Decisions

/-!
# Automatic decisions

The scorer ranks the scores of a profile, selects those that are eligible, and accepts when
the first score of the ranking leads the second. Whether a score is eligible plays no part
in that lead.
-/
namespace CodeResearch.Alignment.Scorer

/-- The parameters of `build_profile_decision`, with their defaults. -/
structure DecisionPolicy where
  acceptThreshold : ℚ := 72 / 100
  reviewThreshold : ℚ := 45 / 100
  acceptMargin : ℚ := 8 / 100
  maxSelections : ℕ := 5
  strongNegativeEvidence : Bool := false
  humanConfirmedNoImplementation : Bool := false
  deriving DecidableEq

structure DecisionScores where
  setScore : Option ℚ
  setCoverage : ℚ
  setCompatibility : ℚ
  setConfidence : Option ℚ
  autoAcceptProbability : Option ℚ
  hasImplementationProbability : ℚ
  topMargin : ℚ
  deriving DecidableEq

/-- A decision with its scores, whose selections agree with its status. -/
structure ProfileDecision where
  decisionId : String
  alignmentRunId : String
  profileId : String
  status : DecisionStatus
  selections : List AlignmentSelection
  scores : DecisionScores
  reasonCodes : List String
  selects : status = .accepted → selections ≠ []
  selectsNone : status ∈ [DecisionStatus.abstained, .noImplementation] → selections = []

variable (ids : AlignmentIds) (policy : DecisionPolicy)

namespace DecisionPolicy

def Eligible (score : AlignmentCandidateScore) : Prop :=
  policy.acceptThreshold ≤ score.probability ∧
    score.requiredWeightRatio ≤ score.availableWeightRatio ∧
    "required_feature_missing" ∉ score.reasonCodes

instance (score : AlignmentCandidateScore) : Decidable (policy.Eligible score) :=
  inferInstanceAs (Decidable (_ ∧ _ ∧ _))

def eligible (ranked : List AlignmentCandidateScore) : List AlignmentCandidateScore :=
  (ranked.filter fun score => policy.Eligible score).take policy.maxSelections

end DecisionPolicy

def rankScores (scores : List AlignmentCandidateScore) : List AlignmentCandidateScore :=
  ranked AlignmentCandidateScore.probability AlignmentCandidateScore.candidateId scores

def probabilityAt (ranked : List AlignmentCandidateScore) (k : ℕ) : ℚ :=
  (ranked[k]?.map AlignmentCandidateScore.probability).getD 0

def topMargin (ranked : List AlignmentCandidateScore) : ℚ :=
  max 0 (probabilityAt ranked 0 - probabilityAt ranked 1)

def selectScores (profile : PaperModuleProfile) (lookup : String → Option AlignmentCandidate)
    (scores : List AlignmentCandidateScore) : List AlignmentSelection :=
  scores.filterMap fun score => (lookup score.candidateId).map fun candidate =>
    selectionOf ids (ids.decisionId profile.profileId) profile candidate score

/-- The scores and the confidence that `build_profile_decision` computes. -/
def decisionScores (ranked : List AlignmentCandidateScore) (selections : List AlignmentSelection)
    (status : DecisionStatus) : DecisionScores :=
  let eligible := policy.eligible ranked
  let setScore := if eligible = [] then none else
    some ((eligible.map AlignmentCandidateScore.probability).sum / eligible.length)
  { setScore
    setCoverage := if selections = [] then 0 else
      min 1 ((selections.length : ℚ) / max 1 (ranked.length : ℚ))
    setCompatibility := if (selections.map AlignmentSelection.candidateId).Nodup then 1 else 0
    setConfidence := setScore
    autoAcceptProbability := if status = .accepted then setScore else none
    hasImplementationProbability :=
      ((ranked.map AlignmentCandidateScore.probability).max?).getD 0
    topMargin := topMargin ranked }

/-- `build_profile_decision` once the scores are ranked and the candidates are looked up. -/
def decideRanked (profile : PaperModuleProfile) (lookup : String → Option AlignmentCandidate)
    (ranked : List AlignmentCandidateScore) : ProfileDecision :=
  let select := selectScores ids profile lookup
  let selections := select (policy.eligible ranked)
  let decide := fun (status : DecisionStatus) (selections : List AlignmentSelection)
      (reasonCodes : List String) selects selectsNone =>
    { decisionId := ids.decisionId profile.profileId, alignmentRunId := profile.alignmentRunId
      profileId := profile.profileId, status, selections
      scores := decisionScores policy ranked selections status
      reasonCodes, selects, selectsNone : ProfileDecision }
  if h : selections ≠ [] ∧ policy.acceptMargin ≤ topMargin ranked then
    decide .accepted selections ["candidate_threshold_met", "coverage_gate_met", "margin_gate_met"]
      (fun _ => h.1) (by simp)
  else if policy.strongNegativeEvidence ∧ policy.humanConfirmedNoImplementation then
    decide .noImplementation [] ["strong_negative_evidence", "human_review_confirmed"]
      (by simp) (by simp)
  else if ranked ≠ [] ∧ policy.reviewThreshold ≤ probabilityAt ranked 0 then
    decide .needsReview (select (ranked.take policy.maxSelections)) ["review_band_or_small_margin"]
      (by simp) (by simp)
  else
    decide .abstained [] ["insufficient_alignment_evidence"] selects_abstained
      (selectsNone_nil _)

/-- `build_profile_decision`. -/
def buildProfileDecision (profile : PaperModuleProfile) (candidates : List AlignmentCandidate)
    (scores : List AlignmentCandidateScore) : ProfileDecision :=
  decideRanked ids policy profile (candidateById candidates) (rankScores scores)

variable {ids policy} {profile : PaperModuleProfile} {candidates : List AlignmentCandidate}
  {scores kept : List AlignmentCandidateScore}

def probabilityOf (selection : AlignmentSelection) : ℚ :=
  selection.calibratedMatchProbability.getD 0

variable {selection : AlignmentSelection}

theorem mem_selectScores : selection ∈ selectScores ids profile (candidateById candidates) kept ↔
      ∃ score ∈ kept, ∃ candidate, candidateById candidates score.candidateId = some candidate ∧
        selectionOf ids (ids.decisionId profile.profileId) profile candidate score = selection := by
  unfold selectScores
  simp [List.mem_filterMap]

theorem score_of_selection
    (h : selection ∈ selectScores ids profile (candidateById candidates) kept) :
    ∃ score ∈ kept, score.candidateId = selection.candidateId ∧
      score.probability = probabilityOf selection ∧
      selection.candidateId ∈ candidates.map AlignmentCandidate.candidateId := by
  obtain ⟨score, hscore, candidate, hcandidate, rfl⟩ := mem_selectScores.mp h
  obtain ⟨hmem, hid⟩ := mem_of_dictBy hcandidate
  exact ⟨score, hscore, hid.symm, rfl, List.mem_map_of_mem hmem⟩

theorem selects_iff (hcandidates : (candidates.map AlignmentCandidate.candidateId).Nodup)
    {id : String} :
    id ∈ (selectScores ids profile (candidateById candidates) kept).map
        AlignmentSelection.candidateId ↔
      id ∈ kept.map AlignmentCandidateScore.candidateId ∧
        id ∈ candidates.map AlignmentCandidate.candidateId := by
  constructor
  · intro h
    obtain ⟨selection, hselection, rfl⟩ := List.mem_map.mp h
    obtain ⟨score, hscore, hid, _, hknown⟩ := score_of_selection hselection
    exact ⟨hid ▸ List.mem_map_of_mem hscore, hknown⟩
  · rintro ⟨hscore, hcandidate⟩
    obtain ⟨score, hmem, rfl⟩ := List.mem_map.mp hscore
    obtain ⟨candidate, hmem', hid⟩ := List.mem_map.mp hcandidate
    have hlookup : candidateById candidates score.candidateId = some candidate :=
      hid ▸ dictBy_of_mem hcandidates hmem'
    exact List.mem_map.mpr ⟨_, mem_selectScores.mpr ⟨score, hmem, candidate, hlookup, rfl⟩, hid⟩

theorem candidateIds_selectScores :
    ((selectScores ids profile (candidateById candidates) kept).map
      AlignmentSelection.candidateId).Sublist (kept.map AlignmentCandidateScore.candidateId) := by
  induction kept with
  | nil => exact List.Sublist.refl _
  | cons score kept ih =>
    unfold selectScores at ih ⊢
    cases hlookup : candidateById candidates score.candidateId with
    | none =>
      rw [List.filterMap_cons_none (by rw [hlookup]; rfl), List.map_cons]
      exact ih.cons _
    | some candidate =>
      rw [List.filterMap_cons_some (by rw [hlookup]; rfl), List.map_cons, List.map_cons]
      have hid : candidate.candidateId = score.candidateId := (mem_of_dictBy hlookup).2
      exact hid ▸ ih.cons_cons _

/-- What the selections of every decision keep. -/
structure ProfileDecision.Orderly (policy : DecisionPolicy) (candidates : List AlignmentCandidate)
    (scores : List AlignmentCandidateScore) (d : ProfileDecision) : Prop where
  distinct : (d.selections.map AlignmentSelection.candidateId).Nodup
  known : ∀ selection ∈ d.selections,
    selection.candidateId ∈ candidates.map AlignmentCandidate.candidateId
  bounded : d.selections.length ≤ policy.maxSelections
  ordered : d.selections.Pairwise fun a b => probabilityOf b ≤ probabilityOf a
  complete : ∀ score ∈ scores, policy.Eligible score →
    score.candidateId ∈ candidates.map AlignmentCandidate.candidateId →
    score.candidateId ∉ d.selections.map AlignmentSelection.candidateId →
    ∀ selection ∈ d.selections, score.probability ≤ probabilityOf selection

theorem pairwise_selectScores {l : List AlignmentCandidateScore}
    (h : l.Pairwise fun a b => b.probability ≤ a.probability) :
    (selectScores ids profile (candidateById candidates) l).Pairwise
      fun a b => probabilityOf b ≤ probabilityOf a := by
  unfold selectScores
  apply h.filterMap
  intro a b hab x hx y hy
  obtain ⟨_, _, rfl⟩ := Option.map_eq_some_iff.mp hx
  obtain ⟨_, _, rfl⟩ := Option.map_eq_some_iff.mp hy
  exact hab

/-- The first scores of the ranking that pass a test are selected in order. The eligible ones
among them leave out no other eligible one that scores higher. -/
theorem orderly_of_kept {d : ProfileDecision} {test : AlignmentCandidateScore → Bool}
    (hcandidates : (candidates.map AlignmentCandidate.candidateId).Nodup)
    (hscores : (scores.map AlignmentCandidateScore.candidateId).Nodup)
    (htest : ∀ score, policy.Eligible score → test score)
    (hd : d.selections = selectScores ids profile (candidateById candidates)
      (((rankScores scores).filter test).take policy.maxSelections)) :
    d.Orderly policy candidates scores := by
  have hkept : ((((rankScores scores).filter test).take policy.maxSelections).map
      AlignmentCandidateScore.candidateId).Nodup := by
    have hranked : ((rankScores scores).map AlignmentCandidateScore.candidateId).Nodup :=
      ((perm_ranked scores).map _).nodup_iff.mpr hscores
    exact hranked.sublist (((List.take_sublist _ _).trans List.filter_sublist).map _)
  refine ⟨?distinct, ?known, ?bounded, ?ordered, ?complete⟩
  case distinct =>
    rw [hd]
    exact hkept.sublist candidateIds_selectScores
  case known =>
    intro selection hselection
    obtain ⟨_, _, _, _, hknown⟩ := score_of_selection (hd ▸ hselection)
    exact hknown
  case bounded =>
    rw [hd]
    exact (List.length_filterMap_le _ _).trans (List.length_take_le _ _)
  case ordered =>
    rw [hd]
    exact pairwise_selectScores
      (((pairwise_ranked scores).filter test).sublist (List.take_sublist _ _))
  case complete =>
    intro score hscore heligible hknown hleft selection hselection
    rw [hd] at hleft hselection
    obtain ⟨other, hother, _, hprobability, _⟩ := score_of_selection hselection
    have hunkept : score ∉ ((rankScores scores).filter test).take policy.maxSelections :=
      fun hmem => hleft ((selects_iff hcandidates).mpr ⟨List.mem_map_of_mem hmem, hknown⟩)
    rw [← hprobability]
    exact score_le_of_take hother hscore (htest score heligible) hunkept

theorem buildProfileDecision_cases (ids : AlignmentIds) (policy : DecisionPolicy)
    (profile : PaperModuleProfile) (candidates : List AlignmentCandidate)
    (scores : List AlignmentCandidateScore) :
    let d := buildProfileDecision ids policy profile candidates scores
    let select := selectScores ids profile (candidateById candidates)
    (d.status = .accepted ∧ d.selections = select (policy.eligible (rankScores scores)) ∧
        policy.acceptMargin ≤ topMargin (rankScores scores)) ∨
      (d.status ≠ .accepted ∧
        (d.selections = [] ∨
          d.selections = select ((rankScores scores).take policy.maxSelections))) := by
  unfold buildProfileDecision decideRanked
  dsimp only
  split_ifs with haccept
  · exact .inl ⟨rfl, rfl, haccept.2⟩
  · exact .inr ⟨by simp, .inl rfl⟩
  · exact .inr ⟨by simp, .inr rfl⟩
  · exact .inr ⟨by simp, .inl rfl⟩

theorem orderly_buildProfileDecision
    (hcandidates : (candidates.map AlignmentCandidate.candidateId).Nodup)
    (hscores : (scores.map AlignmentCandidateScore.candidateId).Nodup) :
    (buildProfileDecision ids policy profile candidates scores).Orderly policy candidates
      scores := by
  rcases buildProfileDecision_cases ids policy profile candidates scores with
    ⟨_, hselected, _⟩ | ⟨_, hnone | hselected⟩
  · exact orderly_of_kept hcandidates hscores (fun _ h => decide_eq_true h) hselected
  · constructor <;> simp [hnone]
  · have hall : (buildProfileDecision ids policy profile candidates scores).selections =
        selectScores ids profile (candidateById candidates)
          (((rankScores scores).filter fun _ => true).take policy.maxSelections) := by
      rw [hselected, List.filter_true]
    exact orderly_of_kept hcandidates hscores (fun _ _ => rfl) hall

theorem eligible_of_accepted
    (haccepted : (buildProfileDecision ids policy profile candidates scores).status = .accepted)
    (h : selection ∈ (buildProfileDecision ids policy profile candidates scores).selections) :
    ∃ score ∈ scores, score.candidateId = selection.candidateId ∧
      score.probability = probabilityOf selection ∧ policy.Eligible score := by
  rcases buildProfileDecision_cases ids policy profile candidates scores with
    ⟨_, hselected, _⟩ | ⟨hstatus, _⟩
  · rw [hselected] at h
    obtain ⟨score, hscore, hid, hprobability, _⟩ := score_of_selection h
    obtain ⟨hmem, heligible⟩ := List.mem_filter.mp (List.mem_of_mem_take hscore)
    exact ⟨score, mem_ranked.mp hmem, hid, hprobability, of_decide_eq_true heligible⟩
  · exact absurd haccepted hstatus

def IsTop (scores : List AlignmentCandidateScore) (top : AlignmentCandidateScore) : Prop :=
  top ∈ scores ∧ ∀ other ∈ scores, other.probability ≤ top.probability

theorem exists_top (h : scores ≠ []) : ∃ top, IsTop scores top := by
  have hsorted : (rankScores scores).Pairwise fun a b => b.probability ≤ a.probability :=
    pairwise_ranked scores
  have hperm : (rankScores scores).Perm scores := perm_ranked scores
  have hne : rankScores scores ≠ [] := fun hnil => h (hnil ▸ hperm).nil_eq.symm
  obtain ⟨top, rest, hranked⟩ := List.exists_cons_of_ne_nil hne
  have hmem : ∀ score, score ∈ top :: rest ↔ score ∈ scores := fun score => by
    rw [← hranked]
    exact mem_ranked
  refine ⟨top, (hmem top).mp List.mem_cons_self, fun other hother => ?_⟩
  rcases List.mem_cons.mp ((hmem other).mpr hother) with rfl | hrest
  · exact le_refl _
  · exact (List.pairwise_cons.mp (hranked ▸ hsorted)).1 other hrest

theorem lead_of_topMargin {margin : ℚ} (h : margin ≤ topMargin (rankScores scores))
    {top other : AlignmentCandidateScore} (htop : IsTop scores top) (hother : other ∈ scores)
    (hne : other ≠ top) : other.probability + margin ≤ top.probability := by
  have hsorted : (rankScores scores).Pairwise fun a b => b.probability ≤ a.probability :=
    pairwise_ranked scores
  have hmem : ∀ score ∈ scores, score ∈ rankScores scores := fun _ => mem_ranked.mpr
  have hin : ∀ score ∈ rankScores scores, score ∈ scores := fun _ => mem_ranked.mp
  cases hranked : rankScores scores with
  | nil => exact absurd (hranked ▸ hmem other hother) List.not_mem_nil
  | cons first rest =>
    rw [hranked] at h hsorted hmem hin
    cases rest with
    | nil =>
      have hsame : other = top :=
        (List.mem_singleton.mp (hmem other hother)).trans
          (List.mem_singleton.mp (hmem top htop.1)).symm
      exact absurd hsame hne
    | cons second rest =>
      obtain ⟨hfirst, hrest⟩ := List.pairwise_cons.mp hsorted
      have hsecond : ∀ score ∈ second :: rest, score.probability ≤ second.probability := by
        intro score hscore
        rcases List.mem_cons.mp hscore with rfl | hscore
        · exact le_refl _
        · exact (List.pairwise_cons.mp hrest).1 score hscore
      have hnonneg : second.probability ≤ first.probability := hfirst second List.mem_cons_self
      have hmargin : margin ≤ first.probability - second.probability :=
        h.trans_eq (max_eq_right (sub_nonneg.mpr hnonneg))
      rcases List.mem_cons.mp (hmem top htop.1) with rfl | htoprest
      · have hotherrest := (List.mem_cons.mp (hmem other hother)).resolve_left hne
        linarith [hsecond other hotherrest]
      · have hbound := htop.2 first (hin first List.mem_cons_self)
        linarith [hsecond top htoprest, htop.2 other hother]

def ProfileDecision.Leads (margin : ℚ) (scores : List AlignmentCandidateScore)
    (d : ProfileDecision) : Prop :=
  ∀ best ∈ d.selections, (∀ selection ∈ d.selections, probabilityOf selection ≤ probabilityOf best) →
    ∀ score ∈ scores, score.candidateId ∉ d.selections.map AlignmentSelection.candidateId →
      score.probability + margin ≤ probabilityOf best

theorem exists_best {selections : List AlignmentSelection} (h : selections ≠ [])
    (hordered : selections.Pairwise fun a b => probabilityOf b ≤ probabilityOf a) :
    ∃ best ∈ selections, ∀ selection ∈ selections, probabilityOf selection ≤ probabilityOf best := by
  obtain ⟨best, rest, rfl⟩ := List.exists_cons_of_ne_nil h
  refine ⟨best, List.mem_cons_self, fun selection hselection => ?_⟩
  rcases List.mem_cons.mp hselection with rfl | hselection
  · exact le_refl _
  · exact (List.pairwise_cons.mp hordered).1 selection hselection

/-- The selections of an accepted decision lead by a positive margin exactly when the top of
the ranking is selected. -/
theorem leads_iff (hscores : (scores.map AlignmentCandidateScore.candidateId).Nodup)
    (hmargin : 0 < policy.acceptMargin)
    (haccepted : (buildProfileDecision ids policy profile candidates scores).status = .accepted)
    (horderly : (buildProfileDecision ids policy profile candidates scores).Orderly policy
      candidates scores) :
    (buildProfileDecision ids policy profile candidates scores).Leads policy.acceptMargin scores ↔
      ∀ top, IsTop scores top → top.candidateId ∈
        (buildProfileDecision ids policy profile candidates scores).selections.map
          AlignmentSelection.candidateId := by
  set d := buildProfileDecision ids policy profile candidates scores with hd
  have hgate : policy.acceptMargin ≤ topMargin (rankScores scores) := by
    rcases buildProfileDecision_cases ids policy profile candidates scores with
      ⟨_, _, hgate⟩ | ⟨hstatus, _⟩
    · exact hgate
    · exact absurd haccepted hstatus
  have hbound : ∀ selection ∈ d.selections, ∃ score ∈ scores,
      score.candidateId = selection.candidateId ∧ score.probability = probabilityOf selection := by
    intro selection hselection
    obtain ⟨score, hscore, hid, hprobability, _⟩ := eligible_of_accepted haccepted hselection
    exact ⟨score, hscore, hid, hprobability⟩
  constructor
  · intro hleads top htop
    by_contra hleft
    obtain ⟨best, hbest, hhighest⟩ := exists_best (d.selects haccepted) horderly.ordered
    obtain ⟨score, hscore, _, hprobability⟩ := hbound best hbest
    have hlead := hleads best hbest hhighest top htop.1 hleft
    linarith [htop.2 score hscore]
  · intro htops best hbest hhighest score hscore hleft
    obtain ⟨top, htop⟩ := exists_top (List.ne_nil_of_mem hscore)
    obtain ⟨selection, hselection, hid⟩ := List.mem_map.mp (htops top htop)
    obtain ⟨same, hsame, hsameId, hprobability⟩ := hbound selection hselection
    have htopSame : same = top :=
      List.inj_on_of_nodup_map hscores hsame htop.1 (hsameId.trans hid)
    have hne : score ≠ top := fun h => hleft (h ▸ htops top htop)
    have hlead := lead_of_topMargin hgate htop hscore hne
    have hbest' := hhighest selection hselection
    rw [← hprobability, htopSame] at hbest'
    exact hlead.trans hbest'

theorem buildProfileDecision_perm {candidates' : List AlignmentCandidate}
    {scores' : List AlignmentCandidateScore} (hcandidates : candidates.Perm candidates')
    (hscores : scores.Perm scores')
    (hcandidateIds : (candidates.map AlignmentCandidate.candidateId).Nodup)
    (hscoreIds : (scores.map AlignmentCandidateScore.candidateId).Nodup) :
    buildProfileDecision ids policy profile candidates' scores' =
      buildProfileDecision ids policy profile candidates scores := by
  have hlookup : candidateById candidates' = candidateById candidates :=
    (dictBy_congr hcandidates hcandidateIds).symm
  have hranked : rankScores scores' = rankScores scores := (ranked_congr hscores hscoreIds).symm
  unfold buildProfileDecision
  rw [hlookup, hranked]

/-- The selections of a decision are orderly whatever its status; an accepted decision has
eligible selections and a top that leads every other score. The selections share that lead
exactly when the top is one of them. -/
theorem buildProfileDecision_sound (ids : AlignmentIds) (policy : DecisionPolicy)
    (profile : PaperModuleProfile) (candidates : List AlignmentCandidate)
    (scores : List AlignmentCandidateScore)
    (hcandidates : (candidates.map AlignmentCandidate.candidateId).Nodup)
    (hscores : (scores.map AlignmentCandidateScore.candidateId).Nodup) :
    let d := buildProfileDecision ids policy profile candidates scores
    d.Orderly policy candidates scores ∧
      (d.status = .accepted →
        (∀ selection ∈ d.selections, ∃ score ∈ scores, score.candidateId = selection.candidateId ∧
          score.probability = probabilityOf selection ∧ policy.Eligible score) ∧
        (∀ top, IsTop scores top → ∀ other ∈ scores, other ≠ top →
          other.probability + policy.acceptMargin ≤ top.probability) ∧
        (0 < policy.acceptMargin → (d.Leads policy.acceptMargin scores ↔
          ∀ top, IsTop scores top →
            top.candidateId ∈ d.selections.map AlignmentSelection.candidateId))) ∧
      ∀ candidates' scores', candidates.Perm candidates' → scores.Perm scores' →
        buildProfileDecision ids policy profile candidates' scores' = d := by
  have horderly : (buildProfileDecision ids policy profile candidates scores).Orderly policy
      candidates scores := orderly_buildProfileDecision hcandidates hscores
  refine ⟨horderly, fun haccepted => ⟨fun _ hselection => ?eligible, ?lead, fun hmargin => ?shared⟩,
    fun _ _ hc hs => buildProfileDecision_perm hc hs hcandidates hscores⟩
  case eligible => exact eligible_of_accepted haccepted hselection
  case lead =>
    intro top htop other hother hne
    rcases buildProfileDecision_cases ids policy profile candidates scores with
      ⟨_, _, hgate⟩ | ⟨hstatus, _⟩
    · exact lead_of_topMargin hgate htop hother hne
    · exact absurd haccepted hstatus
  case shared => exact leads_iff hscores hmargin haccepted horderly

def demoIds : AlignmentIds where
  decisionId := id
  selectionId := fun decision candidate _ => decision ++ "/" ++ candidate
  describe := fun _ _ _ => ""

def demoProfile : PaperModuleProfile := ⟨"profile", "run", .module, ["paper evidence"], ""⟩

def demoCandidate (name : String) : AlignmentCandidate :=
  ⟨name, "run", "profile", name ++ " entity", [name ++ " evidence"], ""⟩

def demoScore (name : String) (probability : ℚ) (reasonCodes : List String) :
    AlignmentCandidateScore :=
  ⟨name, "profile", name, 1, 1 / 2, probability, some probability, reasonCodes, ""⟩

def demoScores : List AlignmentCandidateScore :=
  [demoScore "leader" (95 / 100) ["required_feature_missing"], demoScore "second" (80 / 100) []]

theorem buildProfileDecision_sound_demo :
    (buildProfileDecision demoIds {} demoProfile [demoCandidate "leader", demoCandidate "second"]
      demoScores).Orderly {} [demoCandidate "leader", demoCandidate "second"] demoScores :=
  (buildProfileDecision_sound demoIds {} demoProfile
    [demoCandidate "leader", demoCandidate "second"] demoScores (by decide) (by decide)).1

/-- The lead of a candidate that may not be selected accepts another one behind it. -/
theorem ineligible_leader_accepts_second :
    (buildProfileDecision demoIds {} demoProfile [demoCandidate "leader", demoCandidate "second"]
      demoScores).status = .accepted ∧
    ¬ (buildProfileDecision demoIds {} demoProfile [demoCandidate "leader", demoCandidate "second"]
      demoScores).Leads ({} : DecisionPolicy).acceptMargin demoScores := by
  have hselected : (buildProfileDecision demoIds {} demoProfile
      [demoCandidate "leader", demoCandidate "second"] demoScores).selections =
        [selectionOf demoIds "profile" demoProfile (demoCandidate "second")
          (demoScore "second" (80 / 100) [])] := by decide +kernel
  refine ⟨by decide +kernel, fun hleads => ?_⟩
  have hbest := hleads _ (hselected ▸ List.mem_singleton_self _)
    (by rw [hselected]; simp) (demoScore "leader" (95 / 100) ["required_feature_missing"])
    List.mem_cons_self (by rw [hselected]; decide)
  exact absurd hbest (by decide +kernel)

end CodeResearch.Alignment.Scorer
