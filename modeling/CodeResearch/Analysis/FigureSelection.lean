import CodeResearch.Library.Dict
import CodeResearch.Library.Ranking
import CodeResearch.Library.Text
import Mathlib.Data.Prod.Lex
import Mathlib.Data.String.Basic

/-!
# Selecting the figures of a paper

`tools/paper_figure_extract_tool.py`: figures with the same preview are reported as
duplicates of the first, the others are ranked, and those at the first places of the ranking
are selected, if they have a preview. Numbers are those of a linear order, and how they are
written is a parameter.
-/
namespace CodeResearch.Analysis.Figures

/-- `FigurePreview`: the hash is a `hexdigest`. -/
structure FigurePreview where
  sha256 : String
  colon : ':' ∉ sha256.toList
deriving DecidableEq

structure PaperFigure (F : Type*) where
  figureId : String
  aliases : List String
  pageNumber : ℕ
  normalizedBbox : List F
  normalizedLabel : String
  canonicalPreview : Option FigurePreview
  score : F
  selected : Bool
  skipReason : Option String

structure SkippedFigure where
  figureId : String
  reason : String
  duplicateOf : Option String
deriving DecidableEq

/-- `str` of a list of numbers: it has no colon, and tells the lists apart. -/
structure Writing (F : Type*) where
  str : List F → String
  injective : Function.Injective str
  colon : ∀ numbers, ':' ∉ (str numbers).toList

variable {F : Type*} [LinearOrder F] (writing : Writing F) {item : PaperFigure F}

/-- `preview_hash or f"{page_number}:{normalized_label}:{normalized_bbox}"`. -/
def dedupeKey (item : PaperFigure F) : String :=
  match item.canonicalPreview with
  | some preview => preview.sha256
  | none => toString item.pageNumber ++ ":" ++ item.normalizedLabel ++ ":" ++
      writing.str item.normalizedBbox

def addAlias (key figureId : String) (item : PaperFigure F) : PaperFigure F :=
  if dedupeKey writing item = key then { item with aliases := item.aliases ++ [figureId] } else item

/-- The loop of `_dedupe_candidates`. -/
def dedupeStep (acc : List (PaperFigure F) × List SkippedFigure) (item : PaperFigure F) :
    List (PaperFigure F) × List SkippedFigure :=
  match acc.1.find? fun primary => decide (dedupeKey writing primary = dedupeKey writing item) with
  | some primary =>
    (acc.1.map (addAlias writing (dedupeKey writing item) item.figureId),
      acc.2 ++ [⟨item.figureId, "exact_duplicate", some primary.figureId⟩])
  | none => (acc.1 ++ [item], acc.2)

/-- `_dedupe_candidates`. -/
def dedupeCandidates (candidates : List (PaperFigure F)) :
    List (PaperFigure F) × List SkippedFigure :=
  candidates.foldl (dedupeStep writing) ([], [])

/-- `(-score, page_number, tuple(normalized_bbox), figure_id)`. -/
def rankKey (item : PaperFigure F) : Fᵒᵈ ×ₗ ℕ ×ₗ List F ×ₗ String :=
  toLex (OrderDual.toDual item.score, toLex (item.pageNumber,
    toLex (item.normalizedBbox, item.figureId)))

/-- A figure with its selection, at its place in the ranking. -/
def markFigure (maxFigureAnalyses index : ℕ) (item : PaperFigure F) : PaperFigure F :=
  let selectable := item.canonicalPreview.isSome
  if selectable ∧ index < maxFigureAnalyses then { item with selected := true }
  else { item with
    selected := false
    skipReason := some (if selectable then "figure_limit_exceeded" else "preview_unavailable") }

def markFigures (maxFigureAnalyses : ℕ) : ℕ → List (PaperFigure F) → List (PaperFigure F)
  | _, [] => []
  | index, item :: rest =>
    markFigure maxFigureAnalyses index item :: markFigures maxFigureAnalyses (index + 1) rest

def skippedOf (item : PaperFigure F) : Option SkippedFigure :=
  if item.selected then none else some ⟨item.figureId, item.skipReason.getD "", none⟩

def selectFigures (maxFigureAnalyses : ℕ) (candidates : List (PaperFigure F)) :
    List (PaperFigure F) × List SkippedFigure :=
  let deduped := dedupeCandidates writing candidates
  let figures := markFigures maxFigureAnalyses 0 (sortedBy rankKey deduped.1)
  (figures, deduped.2 ++ figures.filterMap skippedOf)

def Same (a b : PaperFigure F) : Prop :=
  match a.canonicalPreview, b.canonicalPreview with
  | some preview, some preview' => preview.sha256 = preview'.sha256
  | none, none => a.pageNumber = b.pageNumber ∧ a.normalizedLabel = b.normalizedLabel ∧
      a.normalizedBbox = b.normalizedBbox
  | _, _ => False

omit [LinearOrder F] in
theorem dedupeKey_of_some {preview : FigurePreview} (h : item.canonicalPreview = some preview) :
    dedupeKey writing item = preview.sha256 := by
  rw [dedupeKey, h]

omit [LinearOrder F] in
theorem toList_dedupeKey_of_none (h : item.canonicalPreview = none) :
    (dedupeKey writing item).toList = (toString item.pageNumber).toList ++
      ':' :: (item.normalizedLabel.toList ++ ':' :: (writing.str item.normalizedBbox).toList) := by
  simp [dedupeKey, h, String.toList_append]

omit [LinearOrder F] in
/-- Equal keys are those of the same figure. -/
theorem dedupeKey_eq_iff {a b : PaperFigure F} :
    dedupeKey writing a = dedupeKey writing b ↔ Same a b := by
  -- a key made of a place has a colon, a hash has none
  have hmixed {a b : PaperFigure F} {preview : FigurePreview} (ha : a.canonicalPreview = some preview)
      (hb : b.canonicalPreview = none) : dedupeKey writing a ≠ dedupeKey writing b := by
    intro heq
    have hcolon := preview.colon
    rw [← dedupeKey_of_some writing ha, heq, toList_dedupeKey_of_none writing hb] at hcolon
    simp at hcolon
  unfold Same
  cases ha : a.canonicalPreview with
  | some preview =>
    cases hb : b.canonicalPreview with
    | some preview' => rw [dedupeKey_of_some writing ha, dedupeKey_of_some writing hb]
    | none => exact iff_of_false (hmixed ha hb) id
  | none =>
    cases hb : b.canonicalPreview with
    | some preview => exact iff_of_false (hmixed hb ha).symm id
    | none =>
      have hdigits (n : ℕ) : ':' ∉ (toString n).toList := fun h =>
        absurd (isDigit_of_mem_toString h) (by decide)
      have hnumber : toString a.pageNumber = toString b.pageNumber ↔ a.pageNumber = b.pageNumber :=
        ⟨fun h => toString_nat_injective (congrArg String.toList h), congrArg _⟩
      rw [← String.toList_inj, toList_dedupeKey_of_none writing ha,
        toList_dedupeKey_of_none writing hb,
        append_separated_inj (hdigits _) (hdigits _) (.inr rfl) (.inr rfl), List.cons_inj_right,
        append_last_inj (writing.colon _) (writing.colon _)]
      simp only [String.toList_inj, writing.injective.eq_iff, hnumber]

def bare (item : PaperFigure F) : PaperFigure F :=
  { item with aliases := [], selected := false, skipReason := none }

omit [LinearOrder F] in
@[simp] theorem dedupeKey_bare (item : PaperFigure F) :
    dedupeKey writing (bare item) = dedupeKey writing item := rfl

omit [LinearOrder F] in
theorem bare_addAlias (key figureId : String) (item : PaperFigure F) :
    bare (addAlias writing key figureId item) = bare item := by
  unfold addAlias
  split_ifs <;> rfl

def distinctFigures (candidates : List (PaperFigure F)) : List (PaperFigure F) :=
  firstBy (dedupeKey writing) candidates

/-- A repeated figure is entered with the figure that was kept for it. -/
structure Repeated (candidates : List (PaperFigure F)) (entry : SkippedFigure) : Prop where
  reason : entry.reason = "exact_duplicate"
  primary : ∃ item ∈ candidates, item.figureId = entry.figureId ∧
    ∃ primary ∈ distinctFigures writing candidates, primary.figureId ≠ item.figureId ∧
      Same primary item ∧ entry.duplicateOf = some primary.figureId

/-- What the loop has done with the candidates before. -/
structure Deduped (candidates : List (PaperFigure F))
    (acc : List (PaperFigure F) × List SkippedFigure) : Prop where
  kept : acc.1.map bare = (distinctFigures writing candidates).map bare
  ids : (acc.1.map PaperFigure.figureId ++ acc.2.map SkippedFigure.figureId).Perm
    (candidates.map PaperFigure.figureId)
  entries : ∀ entry ∈ acc.2, Repeated writing candidates entry

section Dedupe

variable {writing} {candidates : List (PaperFigure F)}
  {acc : List (PaperFigure F) × List SkippedFigure}

omit [LinearOrder F] in
theorem map_eq_of_map_bare {β : Type*} {l l' : List (PaperFigure F)} {f : PaperFigure F → β}
    (hf : ∀ item, f (bare item) = f item) (h : l.map bare = l'.map bare) : l.map f = l'.map f := by
  have hmap := congrArg (List.map f) h
  simpa only [List.map_map, Function.comp_def, hf] using hmap

omit [LinearOrder F] in
theorem Repeated.concat {entry : SkippedFigure} (h : Repeated writing candidates entry)
    (item : PaperFigure F) : Repeated writing (candidates ++ [item]) entry := by
  obtain ⟨repeated, hrepeated, hid, primary, hprimary, hrest⟩ := h.primary
  refine ⟨h.reason, repeated, List.mem_append_left _ hrepeated, hid, primary, ?_, hrest⟩
  rw [distinctFigures, firstBy_concat]
  exact List.mem_append_left _ hprimary

omit [LinearOrder F] in
theorem Deduped.find?_eq_none_iff (h : Deduped writing candidates acc) {key : String} :
    (acc.1.find? fun primary => decide (dedupeKey writing primary = key)) = none ↔
      key ∉ candidates.map (dedupeKey writing) := by
  rw [List.find?_eq_none, ← mem_map_firstBy, ← distinctFigures,
    ← map_eq_of_map_bare (dedupeKey_bare writing) h.kept, List.mem_map]
  simp only [decide_eq_true_eq, not_exists, not_and]

omit [LinearOrder F] in
theorem Deduped.step (h : Deduped writing candidates acc)
    (hid : item.figureId ∉ candidates.map PaperFigure.figureId) :
    Deduped writing (candidates ++ [item]) (dedupeStep writing acc item) := by
  unfold dedupeStep
  cases hfind : acc.1.find? fun primary =>
      decide (dedupeKey writing primary = dedupeKey writing item) with
  | none =>
    have hnew := h.find?_eq_none_iff.mp hfind
    have hdistinct : distinctFigures writing (candidates ++ [item]) =
        distinctFigures writing candidates ++ [item] := by
      rw [distinctFigures, firstBy_concat, if_neg hnew]
      rfl
    refine ⟨?_, ?_, fun entry hentry => (h.entries entry hentry).concat item⟩
    · rw [hdistinct, List.map_append, List.map_append, h.kept]
    · rw [List.map_append, List.map_append, List.append_assoc, List.map_singleton]
      exact (List.perm_append_comm.append_left _).trans
        (by rw [← List.append_assoc]; exact h.ids.append_right _)
  | some primary =>
    have hprimary : primary ∈ acc.1 := List.mem_of_find?_eq_some hfind
    have hkey : dedupeKey writing primary = dedupeKey writing item := by
      simpa using List.find?_some hfind
    have hseen : dedupeKey writing item ∈ candidates.map (dedupeKey writing) := by
      by_contra hnew
      exact nomatch hfind.symm.trans (h.find?_eq_none_iff.mpr hnew)
    have hdistinct : distinctFigures writing (candidates ++ [item]) =
        distinctFigures writing candidates := by
      rw [distinctFigures, firstBy_concat, if_pos hseen, List.append_nil]
      rfl
    have hbare : (acc.1.map (addAlias writing (dedupeKey writing item) item.figureId)).map bare =
        acc.1.map bare := by
      rw [List.map_map]
      exact List.map_congr_left fun item' _ => bare_addAlias writing _ _ item'
    refine ⟨?_, ?_, fun entry hentry => ?_⟩
    · rw [hdistinct, hbare, h.kept]
    · rw [map_eq_of_map_bare (fun _ => rfl) hbare, List.map_append, List.map_append,
        ← List.append_assoc]
      exact h.ids.append_right _
    · rcases List.mem_append.mp hentry with hentry | hentry
      · exact (h.entries entry hentry).concat item
      · rw [List.mem_singleton.mp hentry]
        have hkept : bare primary ∈ (distinctFigures writing candidates).map bare := by
          rw [← h.kept]
          exact List.mem_map_of_mem hprimary
        obtain ⟨first, hfirst, hsame⟩ := List.mem_map.mp hkept
        have hid' : (bare first).figureId = (bare primary).figureId := by rw [hsame]
        have hkey' : dedupeKey writing (bare first) = dedupeKey writing (bare primary) := by
          rw [hsame]
        refine ⟨rfl, item, by simp, rfl, first, hdistinct ▸ hfirst, ?_, ?_, ?_⟩
        · intro heq
          refine hid (heq ▸ List.mem_map_of_mem ?_)
          exact (firstBy_sublist candidates).subset hfirst
        · exact (dedupeKey_eq_iff writing).mp (hkey'.trans hkey)
        · exact congrArg some hid'.symm

omit [LinearOrder F] in
theorem deduped_dedupeCandidates (hids : (candidates.map PaperFigure.figureId).Nodup) :
    Deduped writing candidates (dedupeCandidates writing candidates) := by
  induction candidates using List.reverseRecOn with
  | nil => exact ⟨rfl, .refl _, by simp [dedupeCandidates]⟩
  | append_singleton candidates item ih =>
    rw [List.map_append, List.nodup_append] at hids
    rw [dedupeCandidates, List.foldl_append]
    refine (ih hids.1).step fun hmem => ?_
    exact hids.2.2 _ hmem _ (by simp) rfl

end Dedupe

section Select

variable {maxFigureAnalyses : ℕ}

def hasPreview (item : PaperFigure F) : Bool := item.canonicalPreview.isSome

omit [LinearOrder F] in
theorem bare_markFigure (index : ℕ) (item : PaperFigure F) :
    bare (markFigure maxFigureAnalyses index item) = bare item := by
  unfold markFigure
  dsimp only
  split_ifs <;> rfl

omit [LinearOrder F] in
theorem selected_markFigure (index : ℕ) (item : PaperFigure F) :
    (markFigure maxFigureAnalyses index item).selected =
      (hasPreview item && decide (index < maxFigureAnalyses)) := by
  unfold markFigure
  dsimp only
  by_cases hselected : item.canonicalPreview.isSome ∧ index < maxFigureAnalyses
  · rw [if_pos hselected, hasPreview, hselected.1, Bool.true_and]
    exact (decide_eq_true hselected.2).symm
  · rw [if_neg hselected, eq_comm, Bool.eq_false_iff, ne_eq, Bool.and_eq_true, decide_eq_true_eq]
    exact hselected

omit [LinearOrder F] in
/-- The selected figures are those of the first places that have a preview. -/
theorem filter_selected_markFigures (index : ℕ) (items : List (PaperFigure F)) :
    ((markFigures maxFigureAnalyses index items).filter PaperFigure.selected).map bare =
      ((items.take (maxFigureAnalyses - index)).filter hasPreview).map bare := by
  induction items generalizing index with
  | nil => simp [markFigures]
  | cons item rest ih =>
    rw [markFigures, List.filter_cons, selected_markFigure]
    by_cases hindex : index < maxFigureAnalyses
    · have hlast : maxFigureAnalyses - index = (maxFigureAnalyses - (index + 1)) + 1 := by omega
      rw [hlast, List.take_succ_cons, List.filter_cons]
      cases hpreview : hasPreview item with
      | true => simp [hindex, bare_markFigure, ih]
      | false => simp [ih]
    · have hnone : maxFigureAnalyses - index = 0 := by omega
      have hrest : maxFigureAnalyses - (index + 1) = 0 := by omega
      rw [hnone, List.take_zero]
      have ih' := ih (index + 1)
      rw [hrest, List.take_zero] at ih'
      simpa [hindex] using ih'

omit [LinearOrder F] in
theorem skippedOf_markFigure (index : ℕ) (item : PaperFigure F) :
    skippedOf (markFigure maxFigureAnalyses index item) =
      if hasPreview item ∧ index < maxFigureAnalyses then none
      else some ⟨item.figureId,
        if hasPreview item then "figure_limit_exceeded" else "preview_unavailable", none⟩ := by
  unfold markFigure hasPreview
  dsimp only
  by_cases hselected : item.canonicalPreview.isSome ∧ index < maxFigureAnalyses
  · rw [if_pos hselected, if_pos hselected]
    rfl
  · rw [if_neg hselected, if_neg hselected]
    rfl

omit [LinearOrder F] in
/-- Each figure is selected, or is entered with its reason. -/
theorem perm_markFigures (index : ℕ) (items : List (PaperFigure F)) :
    (((markFigures maxFigureAnalyses index items).filter PaperFigure.selected).map
        PaperFigure.figureId ++
      ((markFigures maxFigureAnalyses index items).filterMap skippedOf).map
        SkippedFigure.figureId).Perm (items.map PaperFigure.figureId) := by
  induction items generalizing index with
  | nil => exact .refl _
  | cons item rest ih =>
    have hid : (markFigure maxFigureAnalyses index item).figureId = item.figureId := by
      unfold markFigure
      dsimp only
      split_ifs <;> rfl
    rw [markFigures, List.filter_cons, List.filterMap_cons, selected_markFigure,
      skippedOf_markFigure, List.map_cons]
    by_cases hselected : hasPreview item ∧ index < maxFigureAnalyses
    · rw [if_pos hselected, if_pos (by simp [hselected.1, hselected.2]), List.map_cons, hid,
        List.cons_append]
      exact (ih (index + 1)).cons _
    · rw [if_neg hselected, if_neg (by simpa using hselected)]
      exact List.perm_middle.trans ((ih (index + 1)).cons _)

omit [LinearOrder F] in
/-- The entry of a figure that has a place says whether it has a preview. -/
theorem entry_of_mem {index : ℕ} {items : List (PaperFigure F)} {entry : SkippedFigure}
    (h : entry ∈ (markFigures maxFigureAnalyses index items).filterMap skippedOf) :
    entry.duplicateOf = none ∧ ∃ item ∈ items, item.figureId = entry.figureId ∧
      entry.reason = if hasPreview item then "figure_limit_exceeded" else "preview_unavailable" := by
  induction items generalizing index with
  | nil => cases h
  | cons item rest ih =>
    rw [markFigures, List.filterMap_cons, skippedOf_markFigure] at h
    by_cases hselected : hasPreview item ∧ index < maxFigureAnalyses
    · rw [if_pos hselected] at h
      obtain ⟨hnone, item', hitem', hrest⟩ := ih h
      exact ⟨hnone, item', List.mem_cons_of_mem _ hitem', hrest⟩
    · rw [if_neg hselected] at h
      rcases List.mem_cons.mp h with rfl | h
      · exact ⟨rfl, item, List.mem_cons_self, rfl, rfl⟩
      · obtain ⟨hnone, item', hitem', hrest⟩ := ih h
        exact ⟨hnone, item', List.mem_cons_of_mem _ hitem', hrest⟩

end Select

def ranking (candidates : List (PaperFigure F)) : List (PaperFigure F) :=
  sortedBy rankKey (distinctFigures writing candidates)

def selectable (candidates : List (PaperFigure F)) : List (PaperFigure F) :=
  (ranking writing candidates).filter hasPreview

/-- An entry has the reason that applies to its figure. -/
inductive Entered (maxFigureAnalyses : ℕ) (candidates : List (PaperFigure F))
    (entry : SkippedFigure) : Prop
  | duplicate (h : Repeated writing candidates entry)
  | unavailable (item : PaperFigure F) (hitem : item ∈ ranking writing candidates)
      (hid : item.figureId = entry.figureId) (hpreview : ¬ hasPreview item)
      (hreason : entry.reason = "preview_unavailable") (hnone : entry.duplicateOf = none)
  | limit (item : PaperFigure F)
      (hitem : item ∈ (selectable writing candidates).drop maxFigureAnalyses)
      (hid : item.figureId = entry.figureId)
      (hreason : entry.reason = "figure_limit_exceeded") (hnone : entry.duplicateOf = none)

/-- The best figures with a preview are selected up to the quota, and every other candidate
is entered once, with its reason. -/
structure Accounted (maxFigureAnalyses : ℕ) (candidates : List (PaperFigure F))
    (result : List (PaperFigure F) × List SkippedFigure) : Prop where
  selected : (result.1.filter PaperFigure.selected).map PaperFigure.figureId =
    ((selectable writing candidates).take maxFigureAnalyses).map PaperFigure.figureId
  quota : (result.1.filter PaperFigure.selected).length =
    min maxFigureAnalyses (selectable writing candidates).length
  partition : ((result.1.filter PaperFigure.selected).map PaperFigure.figureId ++
    result.2.map SkippedFigure.figureId).Perm (candidates.map PaperFigure.figureId)
  reasons : ∀ entry ∈ result.2, Entered writing maxFigureAnalyses candidates entry

section Account

variable {writing} {maxFigureAnalyses : ℕ} {candidates : List (PaperFigure F)}

theorem map_bare_ranked (hids : (candidates.map PaperFigure.figureId).Nodup) :
    (sortedBy rankKey (dedupeCandidates writing candidates).1).map bare =
      (ranking writing candidates).map bare := by
  have hsorted (l : List (PaperFigure F)) :
      (sortedBy rankKey l).map bare = sortedBy rankKey (l.map bare) := by
    have hmap : sortedBy rankKey (l.map bare) =
        (sortedBy (fun item => rankKey (bare item)) l).map bare := sortedBy_map bare l
    exact hmap.symm
  rw [hsorted, (deduped_dedupeCandidates hids).kept, ranking, hsorted]

omit [LinearOrder F] in
theorem map_bare_filter_take {l l' : List (PaperFigure F)} (h : l.map bare = l'.map bare) (n : ℕ) :
    ((l.take n).filter hasPreview).map bare = ((l'.take n).filter hasPreview).map bare := by
  have hfilter (l : List (PaperFigure F)) : (l.filter hasPreview).map bare =
      (l.map bare).filter hasPreview := by
    rw [List.filter_map]
    rfl
  rw [hfilter, hfilter, List.map_take, List.map_take, h]

theorem selected_selectFigures (hids : (candidates.map PaperFigure.figureId).Nodup) :
    ((selectFigures writing maxFigureAnalyses candidates).1.filter PaperFigure.selected).map bare =
      (((ranking writing candidates).take maxFigureAnalyses).filter hasPreview).map bare := by
  rw [selectFigures, filter_selected_markFigures, Nat.sub_zero,
    map_bare_filter_take (map_bare_ranked hids)]

theorem partition_selectFigures (hids : (candidates.map PaperFigure.figureId).Nodup) :
    (((selectFigures writing maxFigureAnalyses candidates).1.filter
        PaperFigure.selected).map PaperFigure.figureId ++
      (selectFigures writing maxFigureAnalyses candidates).2.map SkippedFigure.figureId).Perm
        (candidates.map PaperFigure.figureId) := by
  have hdeduped := @deduped_dedupeCandidates F writing _ hids
  have hmarks := @perm_markFigures F maxFigureAnalyses 0
    (sortedBy rankKey (dedupeCandidates writing candidates).1)
  have hranked := (@perm_sortedBy _ _ _ rankKey
    (dedupeCandidates writing candidates).1).map PaperFigure.figureId
  rw [selectFigures, List.map_append]
  refine (List.perm_append_comm_assoc _ _ _).trans ?_
  refine ((hmarks.trans hranked).append_left _).trans ?_
  exact List.perm_append_comm.trans hdeduped.ids

/-- With the best figures selected, every entry has the reason that applies. -/
theorem entered_selectFigures (hids : (candidates.map PaperFigure.figureId).Nodup)
    (hselected : ((selectFigures writing maxFigureAnalyses candidates).1.filter
        PaperFigure.selected).map PaperFigure.figureId =
      ((selectable writing candidates).take maxFigureAnalyses).map PaperFigure.figureId) :
    ∀ entry ∈ (selectFigures writing maxFigureAnalyses candidates).2,
      Entered writing maxFigureAnalyses candidates entry := by
  intro entry hentry
  have hpartition := @partition_selectFigures F _ writing maxFigureAnalyses candidates hids
  rcases List.mem_append.mp hentry with hdeduped | hmarked
  · exact .duplicate ((deduped_dedupeCandidates hids).entries entry hdeduped)
  obtain ⟨hnone, marked, hmarked, hid, hreason⟩ := entry_of_mem hmarked
  have hranked : bare marked ∈ (ranking writing candidates).map bare := by
    rw [← map_bare_ranked hids]
    exact List.mem_map_of_mem hmarked
  obtain ⟨item, hitem, hbare⟩ := List.mem_map.mp hranked
  have hid' : (bare item).figureId = (bare marked).figureId := by rw [hbare]
  have hpreview : hasPreview (bare item) = hasPreview (bare marked) := by rw [hbare]
  change hasPreview item = hasPreview marked at hpreview
  rw [← hpreview] at hreason
  by_cases hhas : hasPreview item
  · rw [if_pos hhas] at hreason
    refine .limit item ?_ (hid'.trans hid) hreason hnone
    have hmem : item ∈ selectable writing candidates := List.mem_filter.mpr ⟨hitem, hhas⟩
    rw [← List.take_append_drop maxFigureAnalyses (selectable writing candidates)] at hmem
    refine (List.mem_append.mp hmem).resolve_left fun htake => ?_
    -- a selected figure has no entry
    have hnodup := hpartition.symm.nodup hids
    rw [List.nodup_append, hselected] at hnodup
    exact hnodup.2.2 _ (List.mem_map_of_mem htake) _ (List.mem_map_of_mem hentry)
      (hid'.trans hid)
  · rw [if_neg hhas] at hreason
    exact .unavailable item hitem (hid'.trans hid) hhas hreason hnone

end Account

/-- The quota is filled and every figure is accounted for exactly if no figure without a
preview has a place within the quota while one with a preview has its place behind it. -/
theorem selectFigures_accounted_iff (maxFigureAnalyses : ℕ) (candidates : List (PaperFigure F))
    (hids : (candidates.map PaperFigure.figureId).Nodup) :
    Accounted writing maxFigureAnalyses candidates
        (selectFigures writing maxFigureAnalyses candidates) ↔
      (∀ item ∈ (ranking writing candidates).take maxFigureAnalyses, hasPreview item) ∨
        ∀ item ∈ (ranking writing candidates).drop maxFigureAnalyses, ¬ hasPreview item := by
  have hselected := @selected_selectFigures F _ writing maxFigureAnalyses candidates hids
  have hselectedIds := map_eq_of_map_bare (fun _ => rfl) hselected (f := PaperFigure.figureId)
  rw [← filter_take_eq_iff]
  constructor
  · intro h
    have hlength := congrArg List.length (hselectedIds.symm.trans h.selected)
    rw [List.length_map, List.length_map] at hlength
    exact filter_take_prefix.eq_of_length hlength
  · intro h
    rw [h] at hselected hselectedIds
    refine ⟨hselectedIds, ?_, partition_selectFigures hids,
      entered_selectFigures hids hselectedIds⟩
    have hlength := congrArg List.length hselected
    rwa [List.length_map, List.length_map, List.length_take] at hlength

namespace Sample

def str (numbers : List ℕ) : List Char := numbers.flatMap fun n => (toString n).toList ++ [',']

theorem str_injective : Function.Injective str := by
  intro l l' h
  induction l generalizing l' with
  | nil =>
    cases l' with
    | nil => rfl
    | cons m l' => simp [str] at h
  | cons n l ih =>
    cases l' with
    | nil => simp [str] at h
    | cons m l' =>
      have hdigits (n : ℕ) : ',' ∉ (toString n).toList := fun h =>
        absurd (isDigit_of_mem_toString h) (by decide)
      simp only [str, List.flatMap_cons, List.append_assoc, List.singleton_append] at h
      obtain ⟨hnumber, hrest⟩ :=
        (append_separated_inj (hdigits n) (hdigits m) (.inr rfl) (.inr rfl)).mp h
      rw [toString_nat_injective hnumber, ih (List.cons_inj_right _ |>.mp hrest)]

def digits : Writing ℕ where
  str numbers := String.ofList (str numbers)
  injective l l' h := str_injective (by simpa using congrArg String.toList h)
  colon numbers h := by
    rw [String.toList_ofList, str, List.mem_flatMap] at h
    obtain ⟨n, _, h⟩ := h
    rcases List.mem_append.mp h with h | h
    · exact absurd (isDigit_of_mem_toString h) (by decide)
    · simp at h

def figure (figureId label : String) (preview : Option FigurePreview) (score : ℕ) :
    PaperFigure ℕ :=
  ⟨figureId, [], 1, [0, 0, 1, 1], label, preview, score, false, none⟩

def figures : List (PaperFigure ℕ) :=
  [figure "fig_a" "1" none 5, figure "fig_b" "2" (some ⟨"b5", by decide⟩) 3]

end Sample

/-- With a quota of two, the figure with a preview is selected. -/
theorem selectFigures_quota_two : Accounted Sample.digits 2 Sample.figures
    (selectFigures Sample.digits 2 Sample.figures) :=
  (selectFigures_accounted_iff Sample.digits 2 Sample.figures (by decide)).mpr
    (.inr (by decide +kernel))

/-- With a quota of one, no figure is selected. -/
theorem selectFigures_quota_one : ¬ Accounted Sample.digits 1 Sample.figures
    (selectFigures Sample.digits 1 Sample.figures) := by
  intro h
  have hquota := h.quota
  revert hquota
  decide +kernel

end CodeResearch.Analysis.Figures
