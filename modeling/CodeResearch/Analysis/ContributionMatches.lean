import CodeResearch.Analysis.SetOrders

/-!
# Matches of contributions and the crowd around them

The five best targets of a contribution are taken before those without strong evidence are
left out, and the best of all scores gives the confidence. What is reported follows the
targets with strong evidence alone exactly if no other target stands before them in the
ranking where it counts.
-/
namespace CodeResearch.Analysis.Matches

def ranking (scored : List ScoredTarget) : List ScoredTarget :=
  sortedBy (fun item => OrderDual.toDual item.score)
    (scored.filter fun item => decide (0 < item.score))

variable {scored items : List ScoredTarget} {item : ScoredTarget}

theorem mem_ranking : item ∈ ranking scored ↔ item ∈ scored ∧ 0 < item.score := by
  simp [ranking]

theorem pairwise_ranking (scored : List ScoredTarget) :
    (ranking scored).Pairwise fun a b => b.score ≤ a.score := by
  have hsorted : (ranking scored).Pairwise fun a b =>
      OrderDual.toDual a.score ≤ OrderDual.toDual b.score := pairwise_sortedBy _
  exact hsorted.imp fun h => OrderDual.toDual_le_toDual.mp h

def listed (scored : List ScoredTarget) : List ScoredTarget :=
  (ranking scored).filter ScoredTarget.isListed

theorem mem_listed : item ∈ listed scored ↔ item ∈ scored ∧ item.isListed := by
  rw [listed, List.mem_filter, mem_ranking, and_assoc]
  refine and_congr_right fun _ => and_iff_right_of_imp fun hlisted => ?_
  rw [ScoredTarget.isListed, Bool.and_eq_true, decide_eq_true_eq] at hlisted
  omega

theorem pairwise_listed (scored : List ScoredTarget) :
    (listed scored).Pairwise fun a b => b.score ≤ a.score :=
  (pairwise_ranking scored).filter _

def topScore (items : List ScoredTarget) : ℕ := (items.head?.map ScoredTarget.score).getD 0

theorem score_le_topScore (h : items.Pairwise fun a b => b.score ≤ a.score) (hitem : item ∈ items) :
    item.score ≤ topScore items := by
  cases items with
  | nil => simp at hitem
  | cons best items =>
    rcases List.mem_cons.mp hitem with rfl | hitem
    · exact le_refl _
    · exact List.rel_of_pairwise_cons h hitem

theorem exists_topScore (h : items ≠ []) : ∃ item ∈ items, item.score = topScore items := by
  cases items with
  | nil => exact absurd rfl h
  | cons best items => exact ⟨best, List.mem_cons_self, rfl⟩

theorem topScore_take {n : ℕ} : topScore (items.take (n + 1)) = topScore items := by
  cases items <;> rfl

def evidenceCount (items : List ScoredTarget) : ℕ :=
  (items.map fun item => item.evidence.length).sum

theorem confidenceFromScore_eq {score : ℕ} : confidenceFromScore score items =
      if 7 ≤ score ∧ 2 ≤ evidenceCount (items.filter ScoredTarget.isListed) then .high
      else if 4 ≤ score then .medium else .low := rfl

/-- The five best targets with strong evidence. -/
def chosen (scored : List ScoredTarget) : List ScoredTarget := (listed scored).take 5

/-- The item of a contribution is about the best targets with strong evidence, and about
nothing else. -/
structure Reported (scored : List ScoredTarget) (item : PaperCodeAlignmentItem) : Prop where
  status : item.status = .matched ↔ ∃ target ∈ scored, target.isListed
  targets : item.matchedTargets = dedupeTargets ((chosen scored).map fun best => best.target.target)
  keywords : item.matchedKeywords = dedupe ((chosen scored).flatMap ScoredTarget.keywords)
  evidence : item.status = .matched → item.evidence = (chosen scored).flatMap ScoredTarget.evidence
  confidence : item.confidence = if chosen scored = [] then .low
    else confidenceFromScore (topScore (chosen scored)) (chosen scored)

/-- No target without strong evidence stands before one with strong evidence among the five
best, nor raises the confidence above what those earn. -/
structure Uncrowded (scored : List ScoredTarget) : Prop where
  places : (∀ item ∈ (ranking scored).take 5, item.isListed) ∨
    ∀ item ∈ (ranking scored).drop 5, ¬ item.isListed
  top : listed scored ≠ [] → 7 ≤ topScore (ranking scored) → 2 ≤ evidenceCount (chosen scored) →
    7 ≤ topScore (listed scored)

/-- What the rules of the scores give: strong evidence has a line of evidence and a score of
at least four, and a score of seven has two lines. -/
structure Graded (item : ScoredTarget) : Prop where
  evidence : item.strong → 1 ≤ item.evidence.length
  score : item.strong → 4 ≤ item.score
  top : item.strong → 7 ≤ item.score → 2 ≤ item.evidence.length

theorem Graded.isListed_iff (h : Graded item) : item.isListed ↔ item.strong := by
  rw [ScoredTarget.isListed, Bool.and_eq_true, decide_eq_true_eq]
  refine and_iff_right_of_imp fun hstrong => ?_
  have := h.score hstrong
  omega

section

variable {scored : List ScoredTarget}

theorem listed_ne_nil_iff : listed scored ≠ [] ↔ ∃ target ∈ scored, target.isListed := by
  rw [ne_eq, List.eq_nil_iff_forall_not_mem, not_forall_not]
  exact exists_congr fun target => mem_listed

theorem filter_bestTargets_prefix :
    (bestTargets scored).filter ScoredTarget.isListed <+: chosen scored := filter_take_prefix

theorem filter_chosen : (chosen scored).filter ScoredTarget.isListed = chosen scored := by
  rw [List.filter_eq_self]
  intro item hitem
  exact (mem_listed.mp (List.mem_of_mem_take hitem)).2

theorem filter_bestTargets_eq_iff :
    (bestTargets scored).filter ScoredTarget.isListed = chosen scored ↔
      (∀ item ∈ (ranking scored).take 5, item.isListed) ∨
        ∀ item ∈ (ranking scored).drop 5, ¬ item.isListed := filter_take_eq_iff

theorem chosen_eq_nil_iff : chosen scored = [] ↔ listed scored = [] := by
  rw [chosen, List.take_eq_nil_iff]
  simp

theorem topScore_chosen : topScore (chosen scored) = topScore (listed scored) := topScore_take

theorem topScore_bestTargets : topScore (bestTargets scored) = topScore (ranking scored) :=
  topScore_take

theorem topScore_listed_le : topScore (listed scored) ≤ topScore (ranking scored) := by
  by_cases hnil : listed scored = []
  · rw [hnil]
    exact Nat.zero_le _
  · obtain ⟨item, hitem, hscore⟩ := exists_topScore hnil
    rw [← hscore]
    exact score_le_topScore (pairwise_ranking scored) (List.mem_of_mem_filter hitem)

theorem eq_of_prefix_of_flatMap_evidence {items items' : List ScoredTarget}
    (hstart : items <+: items') (hlines : ∀ item ∈ items', 1 ≤ item.evidence.length)
    (h : items.flatMap ScoredTarget.evidence = items'.flatMap ScoredTarget.evidence) :
    items = items' := by
  obtain ⟨rest, rfl⟩ := hstart
  rw [List.flatMap_append, List.self_eq_append_right, List.flatMap_eq_nil_iff] at h
  cases rest with
  | nil => rw [List.append_nil]
  | cons item rest =>
    have hone := hlines item (List.mem_append_right _ List.mem_cons_self)
    rw [h item List.mem_cons_self] at hone
    exact absurd hone (by simp)

theorem chosen_subset (h : item ∈ chosen scored) :
    item ∈ scored ∧ item.isListed := mem_listed.mp (List.mem_of_mem_take h)

theorem alignmentItem_of_ne_nil (contribution : PaperContribution)
    (h : (bestTargets scored).filter ScoredTarget.isListed ≠ []) :
    let item := (alignmentItem contribution (bestTargets scored)).1
    let best := (bestTargets scored).filter ScoredTarget.isListed
    item.status = .matched ∧
      item.matchedTargets = dedupeTargets (best.map fun item => item.target.target) ∧
      item.matchedKeywords = dedupe (best.flatMap ScoredTarget.keywords) ∧
      item.confidence = confidenceFromScore (topScore (ranking scored)) (bestTargets scored) ∧
      item.evidence = best.flatMap ScoredTarget.evidence := by
  have htop : 3 ≤ topScore (bestTargets scored) := by
    obtain ⟨item, hitem⟩ := List.exists_mem_of_ne_nil _ h
    obtain ⟨hmem, hlisted⟩ := List.mem_filter.mp hitem
    have hsorted : (bestTargets scored).Pairwise fun a b => b.score ≤ a.score :=
      (pairwise_ranking scored).sublist (List.take_sublist 5 _)
    have hle := score_le_topScore hsorted hmem
    rw [ScoredTarget.isListed, Bool.and_eq_true, decide_eq_true_eq] at hlisted
    omega
  have hcond : 3 ≤ ((bestTargets scored).head?.map ScoredTarget.score).getD 0 ∧
      (bestTargets scored).filter ScoredTarget.isListed ≠ [] := ⟨htop, h⟩
  have hscore : topScore (ranking scored) =
      ((bestTargets scored).head?.map ScoredTarget.score).getD 0 := topScore_bestTargets.symm
  dsimp only [alignmentItem]
  rw [if_pos hcond, hscore]
  exact ⟨rfl, rfl, rfl, rfl, rfl⟩

theorem alignmentItem_of_nil (contribution : PaperContribution)
    (h : (bestTargets scored).filter ScoredTarget.isListed = []) :
    let item := (alignmentItem contribution (bestTargets scored)).1
    item.status = .unmatched ∧ item.matchedTargets = [] ∧ item.matchedKeywords = [] ∧
      item.confidence = .low := by
  dsimp only [alignmentItem]
  rw [if_neg fun hcond => hcond.2 h]
  exact ⟨rfl, rfl, rfl, rfl⟩

/-- The confidence of targets with strong evidence is that of the best of them. -/
theorem confidence_eq_iff {best items : List ScoredTarget} {score top n : ℕ}
    (hfour : 4 ≤ top) (hle : top ≤ score)
    (hcount : evidenceCount (best.filter ScoredTarget.isListed) = n)
    (hcount' : evidenceCount (items.filter ScoredTarget.isListed) = n) :
    confidenceFromScore score best = confidenceFromScore top items ↔
      (7 ≤ score → 2 ≤ n → 7 ≤ top) := by
  rw [confidenceFromScore_eq, confidenceFromScore_eq, hcount, hcount', if_pos hfour,
    if_pos (hfour.trans hle)]
  by_cases hscore : 7 ≤ score ∧ 2 ≤ n
  · by_cases htop : 7 ≤ top
    · rw [if_pos hscore, if_pos ⟨htop, hscore.2⟩]
      exact iff_of_true rfl fun _ _ => htop
    · rw [if_pos hscore, if_neg fun h => htop h.1]
      exact iff_of_false nofun fun h => htop (h hscore.1 hscore.2)
  · rw [if_neg hscore, if_neg fun h => hscore ⟨h.1.trans hle, h.2⟩]
    exact iff_of_true rfl fun h1 h2 => absurd ⟨h1, h2⟩ hscore

/-- What is reported of a contribution is about its best targets exactly if they are not
crowded out. -/
theorem reported_iff {contribution : PaperContribution}
    (hgraded : ∀ item ∈ scored, Graded item) :
    Reported scored (alignmentItem contribution (bestTargets scored)).1 ↔ Uncrowded scored := by
  by_cases hnil : (bestTargets scored).filter ScoredTarget.isListed = []
  · obtain ⟨hstatus, htargets, hkeywords, hconfidence⟩ :=
      alignmentItem_of_nil contribution hnil
    constructor
    · intro h
      have hlisted : listed scored = [] := by
        by_contra hne
        exact nomatch hstatus.symm.trans (h.status.mpr (listed_ne_nil_iff.mp hne))
      have hchosen : chosen scored = [] := chosen_eq_nil_iff.mpr hlisted
      exact ⟨filter_bestTargets_eq_iff.mp (hnil.trans hchosen.symm), fun hne => absurd hlisted hne⟩
    · intro h
      have hchosen : chosen scored = [] := (filter_bestTargets_eq_iff.mpr h.places).symm.trans hnil
      have hlisted : ¬ ∃ target ∈ scored, target.isListed := by
        rw [← listed_ne_nil_iff, not_not]
        exact chosen_eq_nil_iff.mp hchosen
      refine ⟨iff_of_false (by rw [hstatus]; nofun) hlisted, ?_, ?_, fun h => ?_, ?_⟩
      · rw [htargets, hchosen]
        rfl
      · rw [hkeywords, hchosen]
        rfl
      · exact nomatch hstatus.symm.trans h
      · rw [hconfidence, if_pos hchosen]
  · obtain ⟨hstatus, htargets, hkeywords, hconfidence, hevidence⟩ :=
      alignmentItem_of_ne_nil contribution hnil
    have hchosen : chosen scored ≠ [] := by
      intro h
      exact hnil (List.prefix_nil.mp (h ▸ filter_bestTargets_prefix))
    have hlisted : listed scored ≠ [] := fun h => hchosen (chosen_eq_nil_iff.mpr h)
    have hfour : 4 ≤ topScore (listed scored) := by
      obtain ⟨item, hitem, hscore⟩ := exists_topScore hlisted
      obtain ⟨hmem, hitem⟩ := mem_listed.mp hitem
      rw [← hscore]
      exact (hgraded item hmem).score ((hgraded item hmem).isListed_iff.mp hitem)
    have hconfidence_iff (h : (bestTargets scored).filter ScoredTarget.isListed = chosen scored) :=
      confidence_eq_iff hfour topScore_listed_le (congrArg evidenceCount h)
        (congrArg evidenceCount filter_chosen)
    constructor
    · intro h
      have heq : (bestTargets scored).filter ScoredTarget.isListed = chosen scored := by
        apply eq_of_prefix_of_flatMap_evidence filter_bestTargets_prefix
        · intro item hitem
          obtain ⟨hmem, hitem⟩ := chosen_subset hitem
          exact (hgraded item hmem).evidence ((hgraded item hmem).isListed_iff.mp hitem)
        · exact hevidence.symm.trans (h.evidence hstatus)
      refine ⟨filter_bestTargets_eq_iff.mp heq, fun _ => ?_⟩
      have hconf := hconfidence.symm.trans h.confidence
      rw [if_neg hchosen, topScore_chosen] at hconf
      exact (hconfidence_iff heq).mp hconf
    · intro h
      have heq := filter_bestTargets_eq_iff.mpr h.places
      refine ⟨iff_of_true hstatus (listed_ne_nil_iff.mp hlisted), ?_, ?_, fun _ => ?_, ?_⟩
      · rw [htargets, heq]
      · rw [hkeywords, heq]
      · rw [hevidence, heq]
      · rw [hconfidence, if_neg hchosen, topScore_chosen]
        exact (hconfidence_iff heq).mpr (h.top hlisted)

end

/-- Targets that are added: others without strong evidence, and ones that are there. -/
structure Adds (isStrong : CodeTargetCandidate → Bool)
    (targets targets' : List CodeTargetCandidate) : Prop where
  sublist : targets.Sublist targets'
  added : ∀ target ∈ targets', target ∈ targets ∨ ¬ isStrong target

/-- A match stays one, with its confidence. -/
structure Stable (item item' : PaperCodeAlignmentItem) : Prop where
  status : item.status = .matched → item'.status = .matched
  confidence : item'.confidence = item.confidence

theorem seven_le_confidence (hgraded : ∀ item ∈ scored, Graded item) (hne : listed scored ≠ []) :
    confidenceFromScore (topScore (chosen scored)) (chosen scored) =
      if 7 ≤ topScore (listed scored) then .high else .medium := by
  obtain ⟨item, hitem, hscore⟩ := exists_topScore (mt chosen_eq_nil_iff.mp hne)
  obtain ⟨hmem, hlisted⟩ := chosen_subset hitem
  have hstrong := (hgraded item hmem).isListed_iff.mp hlisted
  have hfour := (hgraded item hmem).score hstrong
  rw [hscore, topScore_chosen] at hfour
  rw [confidenceFromScore_eq, filter_chosen, topScore_chosen, if_pos hfour]
  refine if_congr (and_iff_left_of_imp fun hseven => ?_) rfl rfl
  rw [← topScore_chosen, ← hscore] at hseven
  have hle : item.evidence.length ≤ evidenceCount (chosen scored) :=
    List.single_le_sum (fun _ _ => Nat.zero_le _) _
      (List.mem_map_of_mem (f := fun item => item.evidence.length) hitem)
  exact ((hgraded item hmem).top hstrong hseven).trans hle

/-- What is reported of the best targets stays when others are added. -/
theorem stable_of_reported {scored' : List ScoredTarget}
    (hgraded : ∀ item ∈ scored, Graded item) (hgraded' : ∀ item ∈ scored', Graded item)
    (hadds : ∀ item : ScoredTarget, item.isListed → (item ∈ scored ↔ item ∈ scored'))
    {item item' : PaperCodeAlignmentItem} (h : Reported scored item)
    (h' : Reported scored' item') : Stable item item' := by
  have hmem (item : ScoredTarget) : item ∈ listed scored ↔ item ∈ listed scored' := by
    rw [mem_listed, mem_listed]
    exact and_congr_left (hadds item)
  have hnil : listed scored = [] ↔ listed scored' = [] := by
    simp only [List.eq_nil_iff_forall_not_mem, hmem]
  constructor
  · intro hstatus
    rw [h.status, ← listed_ne_nil_iff, ne_eq, hnil] at hstatus
    exact h'.status.mpr (listed_ne_nil_iff.mp hstatus)
  · rw [h.confidence, h'.confidence]
    by_cases hempty : listed scored = []
    · rw [if_pos (chosen_eq_nil_iff.mpr hempty), if_pos (chosen_eq_nil_iff.mpr (hnil.mp hempty))]
    · have hempty' : listed scored' ≠ [] := fun h => hempty (hnil.mpr h)
      have htop : topScore (listed scored') = topScore (listed scored) := by
        obtain ⟨best, hbest, hscore⟩ := exists_topScore hempty
        obtain ⟨best', hbest', hscore'⟩ := exists_topScore hempty'
        apply le_antisymm
        · rw [← hscore']
          exact score_le_topScore (pairwise_listed scored) ((hmem best').mpr hbest')
        · rw [← hscore]
          exact score_le_topScore (pairwise_listed scored') ((hmem best).mp hbest)
      rw [if_neg (mt chosen_eq_nil_iff.mp hempty), if_neg (mt chosen_eq_nil_iff.mp hempty'),
        seven_le_confidence hgraded hempty, seven_le_confidence hgraded' hempty', htop]

section

variable {py : Python} {order : SetOrder String} {contribution : PaperContribution}
  {queryTerms : List String} {target : CodeTargetCandidate}

variable {evidence : List String} {filePath qualifiedName : Option String} {lineNo : Option ℕ}
  {name text : String} {targetType : TargetType}

theorem roleTerms_candidate {term : String} :
    term ∈ (candidate py targetType name filePath qualifiedName lineNo text evidence).roleTerms ↔
      term ∈ normalizeTerms text ∧ term ∈ strongRoleTerms ++
        ["activation", "embedding", "normalization", "transformer", "fusion"] := by
  simp [candidate]

structure IsBuilt (py : Python) (target : CodeTargetCandidate) : Prop where
  roles : ∀ term, term ∈ target.roleTerms ↔ term ∈ target.terms ∧ term ∈ strongRoleTerms ++
    ["activation", "embedding", "normalization", "transformer", "fusion"]
  names : target.exactNames =
    (py.lower target.target.name :: (nameParts target.target.name).map py.lower).toFinset

theorem isBuilt_candidate :
    IsBuilt py (candidate py targetType name filePath qualifiedName lineNo text evidence) where
  roles _ := roleTerms_candidate
  names := rfl

variable {index : CodeIndex}

theorem isBuilt_of_mem (h : target ∈ buildCodeTargets py index) : IsBuilt py target := by
  simp only [buildCodeTargets, List.mem_append, List.mem_map, List.mem_flatMap,
    List.mem_filterMap] at h
  rcases h with (((⟨_, _, rfl⟩ | ⟨_, _, rfl⟩) | ⟨_, _, rfl⟩) | ⟨model, _, h⟩) | ⟨call, _, h⟩
  · exact isBuilt_candidate
  · exact isBuilt_candidate
  · exact isBuilt_candidate
  · rw [modelTargets, List.mem_append, List.mem_map, List.mem_map] at h
    rcases h with ⟨_, _, rfl⟩ | ⟨_, _, rfl⟩ <;> exact isBuilt_candidate
  · rw [libraryTarget] at h
    split_ifs at h
    rw [← Option.some.inj h]
    exact isBuilt_candidate

theorem matchedTerms_ne_nil (hbuilt : IsBuilt py target) (h : roleMatches queryTerms target ≠ []) :
    matchedTerms queryTerms target ≠ [] := by
  obtain ⟨term, hterm⟩ := List.exists_mem_of_ne_nil _ h
  simp only [roleMatches, mem_sortedSet, List.mem_filter, decide_eq_true_eq] at hterm
  obtain ⟨hquery, hrole, hstrong⟩ := hterm
  have hgeneric : ∀ term ∈ strongRoleTerms, term ∉ genericTerms := by decide
  refine List.ne_nil_of_mem (a := term) ?_
  simp only [matchedTerms, mem_sortedSet, List.mem_filter, decide_eq_true_eq]
  exact ⟨hquery, ((hbuilt.roles term).mp hrole).1, hgeneric term hstrong⟩

theorem roleMatches_of_loss (hbuilt : IsBuilt py target) (hquery : "loss" ∈ queryTerms)
    (hterms : "loss" ∈ target.terms) : roleMatches queryTerms target ≠ [] := by
  refine List.ne_nil_of_mem (a := "loss") ?_
  simp only [roleMatches, mem_sortedSet, List.mem_filter, decide_eq_true_eq]
  exact ⟨hquery, (hbuilt.roles "loss").mpr ⟨hterms, by decide⟩, by decide⟩

/-- The score, the lines of evidence and their strength count the kinds of matches: by name,
by terms, by role and by loss. -/
theorem exists_kinds (hbuilt : IsBuilt py target) :
    ∃ byName byTerms byRole byLoss : ℕ, byName ≤ 1 ∧ byRole ≤ byTerms ∧ byLoss ≤ byRole ∧
      byTerms ≤ (matchedTerms queryTerms target).length ∧
      (byTerms = 0 → (matchedTerms queryTerms target).length = 0) ∧
      (scoreTarget py order contribution queryTerms target).score =
        5 * byName + (matchedTerms queryTerms target).length + 3 * byRole + 2 * byLoss ∧
      (scoreTarget py order contribution queryTerms target).evidence.length =
        byName + byTerms + byRole + byLoss ∧
      ((scoreTarget py order contribution queryTerms target).strong ↔
        1 ≤ byName + byRole + byLoss) := by
  have hterms := @matchedTerms_ne_nil _ queryTerms _ hbuilt
  have hloss := @roleMatches_of_loss _ queryTerms _ hbuilt
  refine ⟨if exactMatches py order contribution target = [] then 0 else 1,
    if matchedTerms queryTerms target = [] then 0 else 1,
    if roleMatches queryTerms target = [] then 0 else 1,
    if "loss" ∈ queryTerms ∧ "loss" ∈ target.terms then 1 else 0, ?_, ?_, ?_, ?_, ?_, ?_, ?_, ?_⟩
  · split_ifs <;> omega
  · split_ifs with hroles hmatched hmatched
    · exact le_refl 0
    · exact Nat.zero_le 1
    · exact absurd hmatched (hterms hroles)
    · exact le_refl 1
  · split_ifs with hboth hroles hroles
    · exact absurd hroles (hloss hboth.1 hboth.2)
    · exact le_refl 1
    · exact le_refl 0
    · exact Nat.zero_le 1
  · split_ifs with hmatched
    · exact Nat.zero_le _
    · exact List.length_pos_iff.mpr hmatched
  · split_ifs with hmatched
    · rw [hmatched]
      exact fun _ => rfl
    · nofun
  · simp only [scoreTarget, decide_eq_true_eq]
    split_ifs <;> omega
  · simp only [scoreTarget, decide_eq_true_eq]
    split_ifs <;> rfl
  · simp only [scoreTarget, decide_eq_true_eq]
    split_ifs <;> simp_all

theorem graded_scoreTarget (hbuilt : IsBuilt py target) :
    Graded (scoreTarget py order contribution queryTerms target) := by
  obtain ⟨byName, byTerms, byRole, byLoss, hname, hrole, hloss, hterms, hnone, hscore, hlines,
    hstrong⟩ := @exists_kinds py order contribution queryTerms target hbuilt
  constructor
  · rw [hstrong, hlines]
    omega
  · rw [hstrong, hscore]
    omega
  · rw [hstrong, hscore, hlines]
    omega

/-- Targets that are added change none of the scores with strong evidence. -/
theorem mem_scored_iff {targets targets' : List CodeTargetCandidate}
    (h : Adds (fun target => (scoreTarget py order contribution queryTerms target).strong)
      targets targets') (hlisted : item.isListed) :
    item ∈ targets.map (scoreTarget py order contribution queryTerms) ↔
      item ∈ targets'.map (scoreTarget py order contribution queryTerms) := by
  constructor
  · intro hitem
    exact (h.sublist.map _).subset hitem
  · intro hitem
    obtain ⟨target, htarget, rfl⟩ := List.mem_map.mp hitem
    rcases h.added target htarget with hmem | hweak
    · exact List.mem_map_of_mem hmem
    · rw [ScoredTarget.isListed, Bool.and_eq_true] at hlisted
      exact absurd hlisted.2 hweak

/-- `name` stands in `text` with no letter or digit of a word before or after it. -/
def StandsIn (isWord : Char → Bool) (name text : List Char) : Prop :=
  ∃ before after, text = before ++ name ++ after ∧
    (∀ c ∈ before.getLast?, ¬ isWord c) ∧ ∀ c ∈ after.head?, ¬ isWord c

def NamesWhole (py : Python) (order : SetOrder String) (isWord : Char → Bool)
    (contribution : PaperContribution) (targets : List CodeTargetCandidate) : Prop :=
  ∀ target ∈ targets, exactMatches py order contribution target ≠ [] →
    StandsIn isWord (py.lower target.target.name).toList (contributionText py contribution).toList

def NoFragments (py : Python) (isWord : Char → Bool) (contribution : PaperContribution)
    (targets : List CodeTargetCandidate) : Prop :=
  ∀ target ∈ targets, StandsIn isWord (py.lower target.target.name).toList
      (contributionText py contribution).toList ∨
    ∀ part ∈ py.lower target.target.name :: (nameParts target.target.name).map py.lower,
      ¬ isExactMatch py contribution part

theorem namesWhole_iff {isWord : Char → Bool} {targets : List CodeTargetCandidate}
    (hbuilt : ∀ target ∈ targets, IsBuilt py target) :
    NamesWhole py order isWord contribution targets ↔
      NoFragments py isWord contribution targets := by
  refine forall₂_congr fun target htarget => ?_
  have hnil : exactMatches py order contribution target = [] ↔
      ∀ part ∈ py.lower target.target.name :: (nameParts target.target.name).map py.lower,
        ¬ isExactMatch py contribution part := by
    rw [exactMatches_eq_nil_iff, namesFound, (hbuilt target htarget).names,
      Finset.filter_eq_empty_iff]
    simp only [List.mem_toFinset]
  rw [ne_eq, hnil]
  tauto

def itemOf (py : Python) (order : SetOrder String) (paper : PaperAnalysis) (index : CodeIndex)
    (contribution : PaperContribution) : PaperCodeAlignmentItem :=
  (alignmentItem contribution (bestTargets (scoredTargets py order paper index contribution))).1

/-- The item of a contribution says what its targets give, and names none it does not name. -/
structure MatchesOf (py : Python) (order : SetOrder String) (isWord : Char → Bool)
    (paper : PaperAnalysis) (contribution : PaperContribution) (index : CodeIndex) : Prop where
  reported : Reported (scoredTargets py order paper index contribution)
    (itemOf py order paper index contribution)
  names : NamesWhole py order isWord contribution (buildCodeTargets py index)

/-- The targets of a contribution are neither crowded out nor named by a fragment. -/
structure Clear (py : Python) (order : SetOrder String) (isWord : Char → Bool)
    (paper : PaperAnalysis) (contribution : PaperContribution) (index : CodeIndex) : Prop where
  uncrowded : Uncrowded (scoredTargets py order paper index contribution)
  noFragments : NoFragments py isWord contribution (buildCodeTargets py index)

def AddsTo (py : Python) (order : SetOrder String) (paper : PaperAnalysis)
    (contribution : PaperContribution) (index index' : CodeIndex) : Prop :=
  Adds (fun target => (scoreTarget py order contribution
      (termsFromContribution contribution paper.moduleNames) target).strong)
    (buildCodeTargets py index) (buildCodeTargets py index')

variable {paper : PaperAnalysis} {isWord : Char → Bool}

theorem alignmentItems_eq (h : paper.paperProvided) (index : CodeIndex) :
    (alignPaperToCode py order paper index).alignmentItems =
      paper.contributions.map (itemOf py order paper index) := by
  rw [alignPaperToCode, if_pos h]
  exact List.map_map

theorem graded_of_mem (h : item ∈ scoredTargets py order paper index contribution) :
    Graded item := by
  obtain ⟨target, htarget, rfl⟩ := List.mem_map.mp h
  exact graded_scoreTarget (isBuilt_of_mem htarget)

theorem matchesOf_iff : MatchesOf py order isWord paper contribution index ↔
      Clear py order isWord paper contribution index := by
  have hreported := @reported_iff (scoredTargets py order paper index contribution) contribution
    fun item hitem => graded_of_mem hitem
  have hnames := @namesWhole_iff py order contribution isWord (buildCodeTargets py index)
    fun target htarget => isBuilt_of_mem htarget
  constructor
  · rintro ⟨h, h'⟩
    exact ⟨hreported.mp h, hnames.mp h'⟩
  · rintro ⟨h, h'⟩
    exact ⟨hreported.mpr h, hnames.mpr h'⟩

/-- The matches of a contribution are those its targets give, and stay so with more targets,
exactly if no target is crowded out or named by a fragment. -/
theorem matches_iff_clear (py : Python) (order : SetOrder String) (isWord : Char → Bool)
    (paper : PaperAnalysis) (hpaper : paper.paperProvided) :
    (∀ index, (alignPaperToCode py order paper index).alignmentItems =
      paper.contributions.map (itemOf py order paper index)) ∧
    ∀ contribution index index', AddsTo py order paper contribution index index' →
      (MatchesOf py order isWord paper contribution index ∧
        MatchesOf py order isWord paper contribution index' ∧
        Stable (itemOf py order paper index contribution)
          (itemOf py order paper index' contribution) ↔
      Clear py order isWord paper contribution index ∧
        Clear py order isWord paper contribution index') := by
  refine ⟨alignmentItems_eq hpaper, fun contribution index index' hadds => ?_⟩
  rw [← matchesOf_iff, ← matchesOf_iff]
  constructor
  · rintro ⟨h, h', _⟩
    exact ⟨h, h'⟩
  · rintro ⟨h, h'⟩
    exact ⟨h, h', stable_of_reported (fun _ => graded_of_mem) (fun _ => graded_of_mem)
      (fun _ => mem_scored_iff hadds) h.reported h'.reported⟩

end

namespace Crowd

def isWord (c : Char) : Bool := c.isAlphanum || c == '_'

def contribution : PaperContribution :=
  ⟨"c1", "Graph token sampler cache memory", "with attention", []⟩

def paper : PaperAnalysis := ⟨true, [contribution], []⟩

/-- Classes by name, path and bases. -/
def code (classes : List (String × String × List String)) : CodeIndex where
  pythonFiles := []
  fileAnalysis := []
  classes := classes.map fun info => ⟨info.2.1, info.1, info.2.2, some 1, some 9⟩
  functions := []
  functionAnalysis := []
  modelAnalysis := []
  libraryCalls := []

def strong : String × String × List String := ("Xz", "xz.py", ["Attention"])

def weak : String × String × List String := ("Zq", "graph/token/sampler/cache/memory.py", [])

/-- Five targets that share five terms with the contribution stand before the one that shares
its role. -/
def index : CodeIndex := code [weak, weak, weak, weak, weak, strong]

end Crowd

/-- With the strong target alone, or with one weak one more, the matches are as they should. -/
theorem crowd_of_one : AddsTo Nested.python SetOrder.sorted Crowd.paper Crowd.contribution
      (Crowd.code [Crowd.strong]) (Crowd.code [Crowd.weak, Crowd.strong]) ∧
    (MatchesOf Nested.python SetOrder.sorted Crowd.isWord Crowd.paper Crowd.contribution
        (Crowd.code [Crowd.strong]) ∧
      MatchesOf Nested.python SetOrder.sorted Crowd.isWord Crowd.paper Crowd.contribution
        (Crowd.code [Crowd.weak, Crowd.strong]) ∧
      Stable (itemOf Nested.python SetOrder.sorted Crowd.paper (Crowd.code [Crowd.strong])
          Crowd.contribution)
        (itemOf Nested.python SetOrder.sorted Crowd.paper (Crowd.code [Crowd.weak, Crowd.strong])
          Crowd.contribution)) := by
  have hadds : AddsTo Nested.python SetOrder.sorted Crowd.paper Crowd.contribution
      (Crowd.code [Crowd.strong]) (Crowd.code [Crowd.weak, Crowd.strong]) :=
    ⟨by decide +kernel, by decide +kernel⟩
  have hnames (classes : List (String × String × List String))
      (h : ∀ target ∈ buildCodeTargets Nested.python (Crowd.code classes),
        ∀ part ∈ Nested.python.lower target.target.name ::
            (nameParts target.target.name).map Nested.python.lower,
          ¬ isExactMatch Nested.python Crowd.contribution part) :
      NoFragments Nested.python Crowd.isWord Crowd.contribution
        (buildCodeTargets Nested.python (Crowd.code classes)) :=
    fun target htarget => .inr (h target htarget)
  refine ⟨hadds, ((matches_iff_clear Nested.python SetOrder.sorted Crowd.isWord Crowd.paper rfl).2
    Crowd.contribution _ _ hadds).mpr ⟨⟨⟨?_, ?_⟩, ?_⟩, ⟨⟨?_, ?_⟩, ?_⟩⟩⟩
  · exact .inl (by decide +kernel)
  · decide +kernel
  · exact hnames _ (by decide +kernel)
  · exact .inr (by decide +kernel)
  · decide +kernel
  · exact hnames _ (by decide +kernel)

/-- Five weak targets crowd out the one with strong evidence. -/
theorem crowded_out : ¬ MatchesOf Nested.python SetOrder.sorted Crowd.isWord Crowd.paper
    Crowd.contribution Crowd.index := by
  intro h
  have hstatus := h.reported.status.mpr (by decide +kernel)
  revert hstatus
  decide +kernel

end CodeResearch.Analysis.Matches
