import CodeResearch.Analysis.PaperCodeAlign
import CodeResearch.Analysis.SkeletonBuilder

/-!
# Analysis and the iteration order of sets

Two runs of the analysis differ in the orders they list sets of strings in. What they
produce is the same in all orders exactly if no forward step calls two layers, and what a
matched contribution reports of the exact names it found reads the same in all orders.
-/
namespace CodeResearch.Analysis

variable (py : Python)

def calledLayers (layerNames : Finset String) (aliases : List (String × String))
    (expression : Node) : Finset String :=
  layerNames.filter fun name => "self." ++ name ∈ callNames expression aliases

def stepsFrom (order : SetOrder String) (function : FunctionInfo) (layerNames : Finset String)
    (aliases : List (String × String)) : List Node → ℕ → List ForwardStep
  | [], _ => []
  | stmt :: stmts, count =>
    match stepParts stmt with
    | none => stepsFrom order function layerNames aliases stmts count
    | some parts => forwardStep order function layerNames aliases stmt parts count ::
        stepsFrom order function layerNames aliases stmts (count + 1)

theorem appendForwardSteps_eq (order : SetOrder String) (function : FunctionInfo)
    (layerNames : Finset String) (aliases : List (String × String)) (stmts : List Node)
    (acc : List ForwardStep × List String) :
    appendForwardSteps order function layerNames aliases stmts acc =
      (acc.1 ++ stepsFrom order function layerNames aliases stmts acc.1.length,
        acc.2 ++ (stmts.filterMap stepParts).flatMap fun parts =>
          if parts.2.2 then [parts.2.1.sourceText] else []) := by
  induction stmts generalizing acc with
  | nil => simp [appendForwardSteps, stepsFrom]
  | cons stmt stmts ih =>
    obtain ⟨steps, outputs⟩ := acc
    rw [appendForwardSteps, ih, stepsFrom]
    cases hparts : stepParts stmt with
    | none => rw [List.filterMap_cons_none hparts]
    | some parts =>
      rw [List.filterMap_cons_some hparts, List.flatMap_cons]
      dsimp only
      rw [List.length_append, List.length_singleton, List.append_assoc, List.singleton_append]
      cases parts.2.2 <;> simp

variable {aliases : List (String × String)} {known : Finset String}

/-- A step of at most one layer is the same in all orders. -/
theorem forwardStep_congr {order order' : SetOrder String} {function : FunctionInfo}
    {layerNames : Finset String} {stmt : Node}
    {parts : Option String × Node × Bool} {count : ℕ}
    (h : (calledLayers layerNames aliases parts.2.1).card ≤ 1) :
    forwardStep order function layerNames aliases stmt parts count =
      forwardStep order' function layerNames aliases stmt parts count := by
  have hlist : (order.list layerNames).filter
        (fun name => decide ("self." ++ name ∈ callNames parts.2.1 aliases)) =
      (order'.list layerNames).filter
        (fun name => decide ("self." ++ name ∈ callNames parts.2.1 aliases)) := by
    apply SetOrder.filter_congr
    simpa [calledLayers] using h
  rw [forwardStep, forwardStep, hlist]

def stepStatements (stmts : List Node) : List (Option String × Node × Bool) :=
  stmts.filterMap stepParts

variable {py} {forwardFunction : Option FunctionInfo} {contribution : PaperContribution}
  {target : CodeTargetCandidate}

/-- The steps of a body are the same in all orders exactly if each calls at most one layer. -/
theorem stepsFrom_congr_iff {function : FunctionInfo} {layerNames : Finset String}
    {stmts : List Node} {count : ℕ} :
    (∀ order order' : SetOrder String,
      stepsFrom order function layerNames aliases stmts count =
        stepsFrom order' function layerNames aliases stmts count) ↔
      ∀ parts ∈ stepStatements stmts,
        (calledLayers layerNames aliases parts.2.1).card ≤ 1 := by
  induction stmts generalizing count with
  | nil => simp [stepsFrom, stepStatements]
  | cons stmt stmts ih =>
    cases hparts : stepParts stmt with
    | none =>
      have hsteps : ∀ order : SetOrder String,
          stepsFrom order function layerNames aliases (stmt :: stmts) count =
            stepsFrom order function layerNames aliases stmts count := by
        intro order
        rw [stepsFrom, hparts]
      rw [stepStatements, List.filterMap_cons_none hparts]
      simp only [hsteps]
      exact ih
    | some parts =>
      have hsteps : ∀ order : SetOrder String,
          stepsFrom order function layerNames aliases (stmt :: stmts) count =
            forwardStep order function layerNames aliases stmt parts count ::
              stepsFrom order function layerNames aliases stmts (count + 1) := by
        intro order
        rw [stepsFrom, hparts]
      rw [stepStatements, List.filterMap_cons_some hparts, List.forall_mem_cons]
      simp only [hsteps, List.cons_eq_cons]
      constructor
      · intro h
        refine ⟨?_, ih.mp fun order order' => (h order order').2⟩
        rw [calledLayers]
        have hcard := SetOrder.card_le_one_of_filter_eq (s := layerNames)
          (p := fun name => decide ("self." ++ name ∈ callNames parts.2.1 aliases)) ?_
        · simpa using hcard
        intro order order'
        exact List.map_injective_iff.mpr (fun _ _ => (String.append_right_inj _).mp)
          (congrArg ForwardStep.usesLayers (h order order').1)
      · rintro ⟨hhead, htail⟩ order order'
        exact ⟨forwardStep_congr hhead, ih.mpr htail order order'⟩

variable (py)

/-- The statements of a `forward` function that steps are made of. -/
def forwardStatements (forwardFunction : Option FunctionInfo) :
    List (Option String × Node × Bool) :=
  match forwardFunction.bind (parseFunctionSource py) with
  | none => []
  | some tree =>
    match tree.walk.find? fun n => decide (Node.IsFunction n.kind) with
    | none => []
    | some functionDef => stepStatements (visitedStatements (functionDef.field .body))

theorem extractForwardSteps_congr_iff {layers : List ModelLayer} :
    (∀ order order' : SetOrder String,
      extractForwardSteps py order forwardFunction layers aliases =
        extractForwardSteps py order' forwardFunction layers aliases) ↔
      ∀ parts ∈ forwardStatements py forwardFunction,
        (calledLayers (layers.map ModelLayer.name).toFinset aliases parts.2.1).card ≤ 1 := by
  cases forwardFunction with
  | none => simp [extractForwardSteps, forwardStatements]
  | some function =>
    cases htree : parseFunctionSource py function with
    | none => simp [extractForwardSteps, forwardStatements, htree]
    | some tree =>
      cases hdef : tree.walk.find? fun n => decide (Node.IsFunction n.kind) with
      | none => simp [extractForwardSteps, forwardStatements, htree, hdef]
      | some functionDef =>
        simp only [extractForwardSteps, forwardStatements, Option.bind_some, htree, hdef,
          appendForwardSteps_eq, List.nil_append, List.length_nil]
        rw [← @stepsFrom_congr_iff _ function _ _ 0]
        refine forall_congr' fun order => forall_congr' fun order' => ?_
        split_ifs
        · simp
        · simp

/-- The order shows in the steps alone. -/
theorem extractForwardSteps_ext {layers : List ModelLayer} {order order' : SetOrder String}
    (h : (extractForwardSteps py order forwardFunction layers aliases).steps =
      (extractForwardSteps py order' forwardFunction layers aliases).steps) :
    extractForwardSteps py order forwardFunction layers aliases =
      extractForwardSteps py order' forwardFunction layers aliases := by
  cases forwardFunction with
  | none => rfl
  | some function =>
    cases htree : parseFunctionSource py function with
    | none => simp [extractForwardSteps, htree]
    | some tree =>
      cases hdef : tree.walk.find? fun n => decide (Node.IsFunction n.kind) with
      | none => simp [extractForwardSteps, htree, hdef]
      | some functionDef =>
        simp only [extractForwardSteps, htree, hdef, appendForwardSteps_eq] at h ⊢
        split_ifs at h ⊢
        · exact congrArg (fun steps => ForwardFacts.mk steps _ _ _) h
        · exact congrArg (fun steps => ForwardFacts.mk steps _ _ _) h

@[simp] theorem map_forwardSteps_markMain (models : List ModelAnalysis)
    (fileType : String → Option String) :
    (markMainModelCandidates py models fileType).map ModelAnalysis.forwardSteps =
      models.map ModelAnalysis.forwardSteps := by
  unfold markMainModelCandidates
  split
  · rfl
  · rename_i i _
    apply List.ext_getElem?
    intro j
    rw [List.getElem?_map, List.getElem?_modify, List.getElem?_map]
    cases models[j]? with
    | none => rfl
    | some model =>
      simp only [Option.map_eq_map, Option.map_some]
      split_ifs <;> rfl

def OneLayerSteps (input : ModelInput) (info : ClassInfo) : Prop :=
  ∀ parts ∈ forwardStatements py (findClassFunctions info input.functions "forward"),
    (calledLayers ((input.layers py info).map ModelLayer.name).toFinset
      (input.aliases info.filePath) parts.2.1).card ≤ 1

theorem analyseModel_congr {input : ModelInput} {info : ClassInfo}
    (h : OneLayerSteps py input info) (order order' : SetOrder String) :
    analyseModel py order input info = analyseModel py order' input info := by
  unfold analyseModel
  dsimp only
  rw [(extractForwardSteps_congr_iff py).mpr h order order']

/-- The analysis of the models is the same in all orders exactly if every forward step calls
at most one layer. -/
theorem detectModels_congr_iff {input : ModelInput} :
    (∀ order order' : SetOrder String,
      detectModels py order input = detectModels py order' input) ↔
      ∀ info ∈ input.modelClasses py, OneLayerSteps py input info := by
  constructor
  · intro h info hinfo
    refine (extractForwardSteps_congr_iff py).mp fun order order' => ?_
    apply extractForwardSteps_ext
    have hsteps := congrArg (List.map ModelAnalysis.forwardSteps) (h order order')
    rw [detectModels, detectModels, map_forwardSteps_markMain, map_forwardSteps_markMain,
      List.map_map, List.map_map] at hsteps
    exact List.map_inj_left.mp hsteps info hinfo
  · intro h order order'
    rw [detectModels, detectModels, List.map_inj_left.mpr fun info hinfo =>
      analyseModel_congr py (h info hinfo) order order']

def namesFound (contribution : PaperContribution) (target : CodeTargetCandidate) :
    Finset String :=
  target.exactNames.filter fun name => isExactMatch py contribution name

def termsFound (queryTerms : List String) (target : CodeTargetCandidate) : List String :=
  matchedTerms queryTerms target ++ roleMatches queryTerms target

theorem mem_exactMatches {order : SetOrder String} {name : String} :
    name ∈ exactMatches py order contribution target ↔ name ∈ namesFound py contribution target :=
  SetOrder.mem_filter_list _ _ _

theorem nodup_exactMatches (order : SetOrder String) (contribution : PaperContribution)
    (target : CodeTargetCandidate) : (exactMatches py order contribution target).Nodup :=
  (order.nodup _).filter _

theorem length_exactMatches (order : SetOrder String) (contribution : PaperContribution)
    (target : CodeTargetCandidate) :
    (exactMatches py order contribution target).length = (namesFound py contribution target).card :=
  SetOrder.length_filter _ _ _

theorem exactMatches_eq_nil_iff {order : SetOrder String} :
    exactMatches py order contribution target = [] ↔ namesFound py contribution target = ∅ := by
  rw [← List.length_eq_zero_iff, length_exactMatches, Finset.card_eq_zero]

variable {py} {queryTerms : List String} (order order' : SetOrder String)

def scoreOf (py : Python) (contribution : PaperContribution) (queryTerms : List String)
    (target : CodeTargetCandidate) : ℕ :=
  (if namesFound py contribution target = ∅ then 0 else 5) +
    (matchedTerms queryTerms target).length +
    (if roleMatches queryTerms target = [] then 0 else 3) +
    if "loss" ∈ queryTerms ∧ "loss" ∈ target.terms then 2 else 0

def isListedTarget (py : Python) (contribution : PaperContribution) (queryTerms : List String)
    (target : CodeTargetCandidate) : Bool :=
  decide (3 ≤ scoreOf py contribution queryTerms target) &&
    decide (namesFound py contribution target ≠ ∅ ∨ roleMatches queryTerms target ≠ [] ∨
      "loss" ∈ queryTerms ∧ "loss" ∈ target.terms)

@[simp] theorem score_scoreTarget : (scoreTarget py order contribution queryTerms target).score =
    scoreOf py contribution queryTerms target := by
  simp only [scoreTarget, scoreOf, exactMatches_eq_nil_iff, decide_eq_true_eq]

@[simp] theorem isListed_scoreTarget :
    (scoreTarget py order contribution queryTerms target).isListed =
      isListedTarget py contribution queryTerms target := by
  rw [ScoredTarget.isListed, isListedTarget, score_scoreTarget]
  simp only [scoreTarget, ne_eq, exactMatches_eq_nil_iff, decide_eq_true_eq]

theorem length_evidence_scoreTarget :
    (scoreTarget py order contribution queryTerms target).evidence.length =
      (scoreTarget py order' contribution queryTerms target).evidence.length := by
  simp only [scoreTarget, exactMatches_eq_nil_iff]
  split_ifs <;> simp

theorem nodup_eraseDups {α : Type*} [DecidableEq α] (l : List α) : l.eraseDups.Nodup := by
  induction hn : l.length using Nat.strong_induction_on generalizing l with
  | _ n ih =>
    cases l with
    | nil => simp
    | cons a l =>
      rw [List.eraseDups_cons, List.nodup_cons]
      constructor
      · simp [List.mem_eraseDups]
      · refine ih _ ?_ _ rfl
        have hle := List.length_filter_le (fun b => !b == a) l
        rw [List.length_cons] at hn
        omega

theorem eraseDups_of_nodup {α : Type*} [DecidableEq α] {l : List α} (h : l.Nodup) :
    l.eraseDups = l := by
  induction l with
  | nil => rfl
  | cons a l ih =>
    obtain ⟨ha, hl⟩ := List.nodup_cons.mp h
    have hfilter : l.filter (fun b => !b == a) = l := by
      rw [List.filter_eq_self]
      intro b hb
      simpa using fun heq : b = a => ha (heq ▸ hb)
    rw [List.eraseDups_cons, hfilter, ih hl]

theorem mem_keywords {order : SetOrder String} {keyword : String} :
    keyword ∈ (scoreTarget py order contribution queryTerms target).keywords ↔
      keyword ∈ termsFound queryTerms target ∨ keyword ∈ namesFound py contribution target := by
  simp [scoreTarget, dedupe, List.mem_eraseDups, termsFound, mem_exactMatches, or_assoc]

theorem keywords_scoreTarget :
    (scoreTarget py order contribution queryTerms target).keywords =
      (termsFound queryTerms target).eraseDups ++
        (exactMatches py order contribution target).filter
          fun name => name ∉ termsFound queryTerms target := by
  change (termsFound queryTerms target ++ exactMatches py order contribution target).eraseDups = _
  rw [List.eraseDups_append, List.removeAll]
  congr 1
  rw [eraseDups_of_nodup ((nodup_exactMatches py order contribution target).filter _)]
  apply List.filter_congr
  intro name _
  simp

def newNames (py : Python) (contribution : PaperContribution) (queryTerms : List String)
    (known : Finset String) (target : CodeTargetCandidate) : Finset String :=
  (namesFound py contribution target).filter fun name =>
    name ∉ termsFound queryTerms target ∧ name ∉ known

def knownAfter (py : Python) (contribution : PaperContribution) (queryTerms : List String)
    (known : Finset String) (target : CodeTargetCandidate) : Finset String :=
  known ∪ (termsFound queryTerms target).toFinset ∪ namesFound py contribution target

def OneNewName (py : Python) (contribution : PaperContribution) (queryTerms : List String) :
    Finset String → List CodeTargetCandidate → Prop
  | _, [] => True
  | known, target :: targets =>
    (newNames py contribution queryTerms known target).card ≤ 1 ∧
      OneNewName py contribution queryTerms (knownAfter py contribution queryTerms known target)
        targets

def newKeywords (py : Python) (order : SetOrder String) (contribution : PaperContribution)
    (queryTerms : List String) (known : Finset String) (targets : List CodeTargetCandidate) :
    List String :=
  ((targets.flatMap fun target =>
    (scoreTarget py order contribution queryTerms target).keywords).filter (· ∉ known)).eraseDups

def listedNames (py : Python) (order : SetOrder String) (contribution : PaperContribution)
    (queryTerms : List String) (known : Finset String) (target : CodeTargetCandidate) :
    List String :=
  (order.list target.exactNames).filter fun name =>
    isExactMatch py contribution name && decide (name ∉ termsFound queryTerms target ∧ name ∉ known)

theorem newKeywords_cons {targets : List CodeTargetCandidate} :
    newKeywords py order contribution queryTerms known (target :: targets) =
      (termsFound queryTerms target).eraseDups.filter (· ∉ known) ++
        listedNames py order contribution queryTerms known target ++
        newKeywords py order contribution queryTerms
          (knownAfter py contribution queryTerms known target) targets := by
  rw [newKeywords, List.flatMap_cons, List.filter_append, List.eraseDups_append]
  congr 1
  · rw [keywords_scoreTarget, List.filter_append, eraseDups_of_nodup]
    · congr 1
      rw [listedNames, exactMatches, List.filter_filter, List.filter_filter]
      apply List.filter_congr
      intro name _
      rw [Bool.eq_iff_iff]
      simp
      tauto
    · rw [← List.filter_append, ← keywords_scoreTarget]
      exact (nodup_eraseDups _).filter _
  · rw [newKeywords, List.removeAll, List.filter_filter]
    congr 1
    apply List.filter_congr
    intro keyword _
    rw [Bool.eq_iff_iff]
    simp [knownAfter, mem_keywords]
    tauto

theorem newNames_eq :
    newNames py contribution queryTerms known target = target.exactNames.filter fun name =>
      (isExactMatch py contribution name &&
        decide (name ∉ termsFound queryTerms target ∧ name ∉ known)) := by
  rw [newNames, namesFound, Finset.filter_filter]
  apply Finset.filter_congr
  intro name _
  simp

theorem length_listedNames : (listedNames py order contribution queryTerms known target).length =
      (newNames py contribution queryTerms known target).card := by
  rw [listedNames, SetOrder.length_filter, newNames_eq]

theorem listedNames_congr_iff : (∀ order order' : SetOrder String,
      listedNames py order contribution queryTerms known target =
        listedNames py order' contribution queryTerms known target) ↔
      (newNames py contribution queryTerms known target).card ≤ 1 := by
  rw [newNames_eq]
  constructor
  · intro h
    exact SetOrder.card_le_one_of_filter_eq h
  · intro h order order'
    exact SetOrder.filter_congr order order' h

theorem newKeywords_congr_iff {targets : List CodeTargetCandidate} :
    (∀ order order' : SetOrder String,
      newKeywords py order contribution queryTerms known targets =
        newKeywords py order' contribution queryTerms known targets) ↔
      OneNewName py contribution queryTerms known targets := by
  induction targets generalizing known with
  | nil => simp [newKeywords, OneNewName]
  | cons target targets ih =>
    rw [OneNewName, ← ih, ← listedNames_congr_iff]
    simp only [newKeywords_cons]
    rw [← forall_and]
    refine forall_congr' fun order => ?_
    rw [← forall_and]
    refine forall_congr' fun order' => ?_
    rw [List.append_assoc, List.append_assoc, List.append_cancel_left_eq]
    constructor
    · intro h
      exact List.append_inj h ((length_listedNames order).trans (length_listedNames order').symm)
    · rintro ⟨hnames, hrest⟩
      rw [hnames, hrest]

/-- The text of the first three of the names is the same whichever come first. -/
def OneText (names : Finset String) : Prop :=
  ∀ l l' : List String, l.Nodup → l'.Nodup → (∀ name ∈ l, name ∈ names) →
    (∀ name ∈ l', name ∈ names) → l.length = min 3 names.card → l'.length = min 3 names.card →
      ", ".intercalate l = ", ".intercalate l'

theorem exists_order_taking {names : Finset String} {p : String → Bool} {l : List String}
    (hnodup : l.Nodup) (hsub : ∀ name ∈ l, name ∈ names.filter fun name => p name)
    (hlength : l.length = min 3 (names.filter fun name => p name).card) :
    ∃ order : SetOrder String, ((order.list names).filter p).take 3 = l := by
  have hmem : ∀ name ∈ l, name ∈ names ∧ p name := fun name hname =>
    Finset.mem_filter.mp (hsub name hname)
  obtain ⟨order, rest, hrest⟩ := SetOrder.exists_filter_eq_append hnodup
    (fun name hname => (hmem name hname).1) fun name hname => (hmem name hname).2
  have hcard := SetOrder.length_filter order names p
  rw [hrest, List.length_append] at hcard
  refine ⟨order, ?_⟩
  rw [hrest]
  by_cases hshort : (names.filter fun name => p name).card ≤ 3
  · have hnil : rest = [] := List.length_eq_zero_iff.mp (by omega)
    rw [hnil, List.append_nil, List.take_of_length_le (by omega)]
  · rw [List.take_append_of_le_length (by omega), List.take_of_length_le (by omega)]

/-- The names shown read the same in all orders exactly if they have one text. -/
theorem intercalate_exactMatches_congr_iff :
    (∀ order order' : SetOrder String,
      ", ".intercalate ((exactMatches py order contribution target).take 3) =
        ", ".intercalate ((exactMatches py order' contribution target).take 3)) ↔
      OneText (namesFound py contribution target) := by
  constructor
  · intro h l l' hnodup hnodup' hsub hsub' hlength hlength'
    obtain ⟨order, horder⟩ := exists_order_taking hnodup hsub hlength
    obtain ⟨order', horder'⟩ := exists_order_taking hnodup' hsub' hlength'
    have htext := h order order'
    rw [exactMatches, exactMatches, horder, horder'] at htext
    exact htext
  · intro h order order'
    apply h
    · exact (nodup_exactMatches py order contribution target).sublist (List.take_sublist _ _)
    · exact (nodup_exactMatches py order' contribution target).sublist (List.take_sublist _ _)
    · exact fun name hname => (mem_exactMatches py).mp (List.mem_of_mem_take hname)
    · exact fun name hname => (mem_exactMatches py).mp (List.mem_of_mem_take hname)
    · rw [List.length_take, length_exactMatches]
    · rw [List.length_take, length_exactMatches]

theorem evidence_scoreTarget_congr_iff :
    (∀ order order' : SetOrder String,
      (scoreTarget py order contribution queryTerms target).evidence =
        (scoreTarget py order' contribution queryTerms target).evidence) ↔
      OneText (namesFound py contribution target) := by
  rw [← intercalate_exactMatches_congr_iff]
  refine forall_congr' fun order => forall_congr' fun order' => ?_
  simp only [scoreTarget, exactMatches_eq_nil_iff]
  by_cases hnone : namesFound py contribution target = ∅
  · have hnil : ∀ order : SetOrder String, exactMatches py order contribution target = [] :=
      fun order => (exactMatches_eq_nil_iff py).mpr hnone
    simp [hnone, hnil]
  · rw [if_neg hnone, if_neg hnone]
    simp only [List.append_assoc, List.append_cancel_right_eq, List.cons.injEq, and_true]
    constructor
    · exact fun h => (String.append_right_inj _).mp ((String.append_left_inj _).mp h)
    · exact fun h => by rw [h]

def bestOf (py : Python) (contribution : PaperContribution) (queryTerms : List String)
    (targets : List CodeTargetCandidate) : List CodeTargetCandidate :=
  (sortedBy (fun target => OrderDual.toDual (scoreOf py contribution queryTerms target))
    (targets.filter fun target => decide (0 < scoreOf py contribution queryTerms target))).take 5

def reportedTargets (py : Python) (contribution : PaperContribution) (queryTerms : List String)
    (targets : List CodeTargetCandidate) : List CodeTargetCandidate :=
  let best := bestOf py contribution queryTerms targets
  if 3 ≤ (best.head?.map (scoreOf py contribution queryTerms)).getD 0 then
    best.filter (isListedTarget py contribution queryTerms)
  else []

theorem bestTargets_map (targets : List CodeTargetCandidate) :
    bestTargets (targets.map (scoreTarget py order contribution queryTerms)) =
      (bestOf py contribution queryTerms targets).map
        (scoreTarget py order contribution queryTerms) := by
  rw [bestTargets, List.filter_map, sortedBy_map, ← List.map_take]
  simp only [score_scoreTarget, Function.comp_def]
  rfl

def ReportedAlike (py : Python) (contribution : PaperContribution) (queryTerms : List String)
    (targets : List CodeTargetCandidate) : Prop :=
  OneNewName py contribution queryTerms ∅ (reportedTargets py contribution queryTerms targets) ∧
    ∀ target ∈ reportedTargets py contribution queryTerms targets,
      OneText (namesFound py contribution target)

theorem keywords_congr_iff {targets : List CodeTargetCandidate} :
    (∀ order order' : SetOrder String,
      dedupe ((targets.map (scoreTarget py order contribution queryTerms)).flatMap
          ScoredTarget.keywords) =
        dedupe ((targets.map (scoreTarget py order' contribution queryTerms)).flatMap
          ScoredTarget.keywords)) ↔
      OneNewName py contribution queryTerms ∅ targets := by
  rw [← newKeywords_congr_iff]
  simp [newKeywords, dedupe, List.flatMap_map]

theorem evidence_congr_iff {targets : List CodeTargetCandidate} :
    (∀ order order' : SetOrder String,
      (targets.map (scoreTarget py order contribution queryTerms)).flatMap ScoredTarget.evidence =
        (targets.map (scoreTarget py order' contribution queryTerms)).flatMap
          ScoredTarget.evidence) ↔
      ∀ target ∈ targets, OneText (namesFound py contribution target) := by
  induction targets with
  | nil => simp
  | cons target targets ih =>
    rw [List.forall_mem_cons, ← ih, ← @evidence_scoreTarget_congr_iff _ _ _ queryTerms]
    simp only [List.map_cons, List.flatMap_cons]
    rw [← forall_and]
    refine forall_congr' fun order => ?_
    rw [← forall_and]
    refine forall_congr' fun order' => ?_
    constructor
    · intro h
      exact List.append_inj h (length_evidence_scoreTarget order order')
    · rintro ⟨hhead, htail⟩
      rw [hhead, htail]

theorem map_target (targets : List CodeTargetCandidate) :
    (targets.map (scoreTarget py order contribution queryTerms)).map
      (fun item => item.target.target) = targets.map CodeTargetCandidate.target := by
  rw [List.map_map]
  rfl

theorem confidence_congr (score : ℕ) (targets : List CodeTargetCandidate) :
    confidenceFromScore score (targets.map (scoreTarget py order contribution queryTerms)) =
      confidenceFromScore score (targets.map (scoreTarget py order' contribution queryTerms)) := by
  simp only [confidenceFromScore, List.filter_map, Function.comp_def, isListed_scoreTarget,
    List.map_map, length_evidence_scoreTarget order order']

theorem alignmentItem_congr_iff {targets : List CodeTargetCandidate} :
    (∀ order order' : SetOrder String,
      alignmentItem contribution
          (bestTargets (targets.map (scoreTarget py order contribution queryTerms))) =
        alignmentItem contribution
          (bestTargets (targets.map (scoreTarget py order' contribution queryTerms)))) ↔
      ReportedAlike py contribution queryTerms targets := by
  rw [ReportedAlike, ← keywords_congr_iff, ← @evidence_congr_iff _ _ queryTerms, ← forall_and]
  refine forall_congr' fun order => ?_
  rw [← forall_and]
  refine forall_congr' fun order' => ?_
  simp only [bestTargets_map, alignmentItem, reportedTargets, List.head?_map, Option.map_map,
    List.filter_map, Function.comp_def, score_scoreTarget, isListed_scoreTarget, map_target, ne_eq,
    List.map_eq_nil_iff, confidence_congr order order']
  generalize bestOf py contribution queryTerms targets = best
  by_cases htop : 3 ≤ (best.head?.map (scoreOf py contribution queryTerms)).getD 0
  · by_cases hnone : best.filter (isListedTarget py contribution queryTerms) = []
    · simp [hnone]
    · simp only [htop, hnone, not_false_eq_true, and_self, if_true]
      simp
  · simp [htop]

theorem unmatched_congr (targets : List CodeTargetCandidate) :
    (alignmentItem contribution
        (bestTargets (targets.map (scoreTarget py order contribution queryTerms)))).2 =
      (alignmentItem contribution
        (bestTargets (targets.map (scoreTarget py order' contribution queryTerms)))).2 := by
  simp only [bestTargets_map, alignmentItem, List.head?_map, Option.map_map, List.filter_map,
    Function.comp_def, score_scoreTarget, isListed_scoreTarget, ne_eq, List.map_eq_nil_iff]
  split_ifs <;> rfl

theorem alignPaperToCode_congr_iff {paper : PaperAnalysis} {index : CodeIndex} :
    (∀ order order' : SetOrder String,
      alignPaperToCode py order paper index = alignPaperToCode py order' paper index) ↔
      (paper.paperProvided → ∀ contribution ∈ paper.contributions,
        ReportedAlike py contribution (termsFromContribution contribution paper.moduleNames)
          (buildCodeTargets py index)) := by
  cases hprovided : paper.paperProvided with
  | false => simp [alignPaperToCode, hprovided]
  | true =>
    simp only [alignPaperToCode, hprovided, if_true, true_implies]
    constructor
    · intro h contribution hcontribution
      refine alignmentItem_congr_iff.mp fun order order' => ?_
      have hitems := congrArg PaperCodeAlignment.alignmentItems (h order order')
      simp only [List.map_map] at hitems
      exact Prod.ext (List.map_inj_left.mp hitems contribution hcontribution)
        (unmatched_congr order order' _)
    · intro h order order'
      have hresults : ∀ contribution ∈ paper.contributions,
          alignmentItem contribution
              (bestTargets (scoredTargets py order paper index contribution)) =
            alignmentItem contribution
              (bestTargets (scoredTargets py order' paper index contribution)) :=
        fun contribution hcontribution =>
          alignmentItem_congr_iff.mpr (h contribution hcontribution) order order'
      rw [List.map_inj_left.mpr hresults]

/-- The repository and the paper, as the tools before these read them. -/
structure AnalysisInput where
  code : ModelInput
  pythonFiles : List String
  paper : PaperAnalysis
  diagrams : List Diagram

/-- What `align_paper_to_code` is given for the models found. -/
def AnalysisInput.index (input : AnalysisInput) (models : List ModelAnalysis) : CodeIndex where
  pythonFiles := input.pythonFiles
  fileAnalysis := input.code.fileAnalysis
  classes := input.code.classes
  functions := input.code.functions
  functionAnalysis := input.code.functionAnalysis
  modelAnalysis := models
  libraryCalls := input.code.libraryCalls

/-- What `build_teaching_diagram_skeletons` is given for the models found. -/
def AnalysisInput.skeletonInput (input : AnalysisInput) (models : List ModelAnalysis) :
    SkeletonInput where
  fileAnalysis := input.code.fileAnalysis
  functionAnalysis := input.code.functionAnalysis
  modelAnalysis := models
  diagrams := input.diagrams

structure Artifacts where
  models : List ModelAnalysis
  /-- The scores of all targets, for each contribution. -/
  scores : List (List ℕ)
  alignment : PaperCodeAlignment
  skeletons : SkeletonBuildResult
deriving DecidableEq

/-- The analysis: `model_analyze_node`, `paper_code_align_node` and the skeletons of
`teaching_diagram_plan_node`. -/
def analyse (py : Python) (hash : Hashing) (order : SetOrder String) (input : AnalysisInput) :
    Artifacts :=
  let models := detectModels py order input.code
  let index := input.index models
  { models := models
    scores := input.paper.contributions.map fun contribution =>
      (scoredTargets py order input.paper index contribution).map ScoredTarget.score
    alignment := alignPaperToCode py order input.paper index
    skeletons := buildTeachingDiagramSkeletons py hash 4 (input.skeletonInput models) }

/-- The targets contributions are scored against, the layer names taken from small to large. -/
def AnalysisInput.targets (py : Python) (input : AnalysisInput) : List CodeTargetCandidate :=
  buildCodeTargets py (input.index (detectModels py SetOrder.sorted input.code))

/-- What the analysis produces is the same in all orders exactly if no forward step calls two
layers, and what is reported of each contribution reads the same in all orders. -/
theorem analyse_congr_iff (py : Python) (hash : Hashing) (input : AnalysisInput) :
    (∀ order order' : SetOrder String,
      analyse py hash order input = analyse py hash order' input) ↔
      (∀ info ∈ input.code.modelClasses py, OneLayerSteps py input.code info) ∧
        (input.paper.paperProvided → ∀ contribution ∈ input.paper.contributions,
          ReportedAlike py contribution
            (termsFromContribution contribution input.paper.moduleNames) (input.targets py)) := by
  rw [← detectModels_congr_iff, AnalysisInput.targets, ← alignPaperToCode_congr_iff]
  constructor
  · intro h
    have hmodels : ∀ order order' : SetOrder String,
        detectModels py order input.code = detectModels py order' input.code :=
      fun order order' => congrArg Artifacts.models (h order order')
    refine ⟨hmodels, fun order order' => ?_⟩
    have halignment := congrArg Artifacts.alignment (h order order')
    simp only [analyse] at halignment
    rwa [hmodels order SetOrder.sorted, hmodels order' SetOrder.sorted] at halignment
  · rintro ⟨hmodels, halignment⟩ order order'
    simp only [analyse]
    rw [hmodels order SetOrder.sorted, hmodels order' SetOrder.sorted, halignment order order']
    simp only [scoredTargets, List.map_map, Function.comp_def, score_scoreTarget]

namespace Nested

def name (id : String) : Node := .mk (.name id) (some 1) id none []

def member (value attr : String) : Node :=
  .mk (.attribute attr) (some 1) (value ++ "." ++ attr) none [(.value, name value)]

def call (func : Node) (args : List Node) (text : String) : Node :=
  .mk .call (some 1) text (some text) ((.func, func) :: args.map fun arg => (.args, arg))

def arguments (args : List String) : Node :=
  .mk .arguments none "" none (args.map fun arg => (.args, .mk (.arg arg) (some 1) arg none []))

def function (functionName : String) (args : List String) (body : List Node) : Node :=
  .mk (.other "Module") none "" none [(.body, .mk (.functionDef functionName) (some 1) "" none
    ((.args, arguments args) :: body.map fun stmt => (.body, stmt)))]

def linear : Node := call (member "nn" "Linear") [] "nn.Linear(1, 1)"

def initSource : String :=
  "def __init__(self):\n    self.a = nn.Linear(1, 1)\n    self.b = nn.Linear(1, 1)"

def forwardSource : String := "def forward(self, x):\n    return self.a(self.b(x))"

def initTree : Node :=
  function "__init__" ["self"] (["a", "b"].map fun layer =>
    .mk .assign (some 2) "" none [(.targets, member "self" layer), (.value, linear)])

def forwardTree : Node :=
  function "forward" ["self", "x"] [.mk .returnStmt (some 2) "" none [(.value,
    call (member "self" "a") [call (member "self" "b") [name "x"] "self.b(x)"]
      "self.a(self.b(x))")]]

def python : Python where
  lower text := String.ofList (text.toList.map Char.toLower)
  parse source := if source = initSource then some initTree
    else if source = forwardSource then some forwardTree else none

def netClass : ClassInfo := ⟨"net.py", "Net", ["nn.Module"], some 1, some 9⟩

def input : AnalysisInput where
  code := {
    parsedFiles := [⟨"net.py", ["torch.nn"], [("nn", "torch.nn")]⟩]
    classes := [netClass]
    functions := [⟨"net.py", "__init__", some "Net", some 2, some initSource⟩,
      ⟨"net.py", "forward", some "Net", some 6, some forwardSource⟩]
    fileAnalysis := []
    libraryCalls := []
    functionAnalysis := [] }
  pythonFiles := ["net.py"]
  paper := ⟨false, [], []⟩
  diagrams := []

end Nested

/-- Two orders list the layers of `self.a(self.b(x))` in two ways. -/
theorem nested_layers_differ : ¬ ∀ order order' : SetOrder String,
    analyse Nested.python ⟨fun _ => "", fun _ _ => ""⟩ order Nested.input =
      analyse Nested.python ⟨fun _ => "", fun _ _ => ""⟩ order' Nested.input := by
  intro h
  have hstep := (@detectModels_congr_iff Nested.python Nested.input.code).mp
    (fun order order' => congrArg Artifacts.models (h order order')) Nested.netClass
    (by decide +kernel)
  revert hstep
  unfold OneLayerSteps
  decide +kernel

end CodeResearch.Analysis
