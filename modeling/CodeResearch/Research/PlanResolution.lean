import CodeResearch.Research.Ready

/-!
# Validated plans and their resolution

The validator compares the selection of a binding with the type of its field. It looks neither at
the length of an output, at which an index may fail, nor at the limits of a field, nor at whether
a field that takes no list takes a text.
-/
namespace CodeResearch.Research

/-- The annotation of an input with its limits. A list has one item at least. -/
inductive FieldType
  | text (least : ℕ) (greatest : Option ℕ)
  | optionalText | direction | queryType | filters | flag
  | number (least greatest : ℕ)
  | texts (greatest : ℕ)
  deriving DecidableEq

def FieldType.isList : FieldType → Bool
  | texts _ => true
  | _ => false

def Argument.isList : Argument → Bool
  | texts _ => true
  | _ => false

structure InputField where
  name : String
  type : FieldType
  required : Bool := false
  deriving DecidableEq

def ToolName.fields : ToolName → List InputField
  | searchHybrid => [{ name := "query", type := .text 1 (some 8000), required := true },
      { name := "query_type", type := .queryType }, { name := "filters", type := .filters },
      { name := "top_k", type := .number 1 30 }, { name := "include_graph", type := .flag },
      { name := "include_reranker", type := .flag }]
  | getSymbolSource => [{ name := "entity_id", type := .optionalText },
      { name := "qualified_name", type := .optionalText },
      { name := "max_characters", type := .number 100 12000 }]
  | getGraphNeighbors => [{ name := "entity_ids", type := .texts 10, required := true },
      { name := "edge_types", type := .texts 20, required := true },
      { name := "direction", type := .direction }, { name := "max_results", type := .number 1 30 }]
  | getCallPath => [{ name := "source_entity_id", type := .text 0 none, required := true },
      { name := "target_entity_id", type := .text 0 none, required := true },
      { name := "max_hops", type := .number 1 2 }, { name := "max_paths", type := .number 1 5 }]
  | getModelFlow => [{ name := "entity_id", type := .text 0 none, required := true },
      { name := "direction", type := .direction }, { name := "max_nodes", type := .number 1 30 }]
  | searchPaper => [{ name := "query", type := .text 1 (some 8000), required := true },
      { name := "top_k", type := .number 1 20 }]
  | getAlignment => [{ name := "entity_id", type := .text 0 none, required := true },
      { name := "max_results", type := .number 1 20 }]
  | inspectConfig => [{ name := "query", type := .text 1 (some 2000), required := true },
      { name := "path", type := .optionalText }, { name := "max_results", type := .number 1 10 }]

/-- What `pydantic` makes of the other pairs of a type and a value, without and with the limits,
and its texts. -/
structure Pydantic where
  coerces : FieldType → Argument → Bool
  validates : FieldType → Argument → Bool
  dump : ToolName → List (String × Argument) → String
  message : ToolName → List (String × Argument) → String

variable (py : Pydantic)

/-- `TypeAdapter(field.annotation)`, which knows no limits. -/
def FieldType.admits : FieldType → Argument → Bool
  | text .., .text _ | optionalText, .text _ | direction, .text _ => true
  | number .., .number _ | texts _, .texts _ => true
  | type, value => py.coerces type value

def FieldType.accepts : FieldType → Argument → Bool
  | text least greatest, .text s => least ≤ s.length ∧ greatest.all (s.length ≤ ·)
  | optionalText, .text _ => true
  | direction, .text s => s ∈ ["incoming", "outgoing", "both"]
  | number least greatest, .number n => least ≤ n ∧ n ≤ greatest
  | texts greatest, .texts l => 1 ≤ l.length ∧ l.length ≤ greatest
  | type, value => py.validates type value

/-- `bool` of an input that is a text or nothing. -/
def given (values : List (String × Argument)) (name : String) : Bool :=
  values.any fun
    | (key, .text s) => key = name ∧ s ≠ ""
    | _ => false

def ToolName.Validates (tool : ToolName) (values : List (String × Argument)) : Prop :=
  (∀ p ∈ values, ∃ f ∈ tool.fields, f.name = p.1 ∧ f.type.accepts py p.2) ∧
    (∀ f ∈ tool.fields, f.required → ∃ p ∈ values, p.1 = f.name) ∧
    (tool = .getSymbolSource → given values "entity_id" ≠ given values "qualified_name")

instance (tool : ToolName) (values : List (String × Argument)) :
    Decidable (tool.Validates py values) :=
  inferInstanceAs (Decidable (_ ∧ _ ∧ (_ → _)))

def ToolName.spec (tool : ToolName) : ToolSpec where
  properties := tool.fields.map InputField.name
  expectsCollection name := tool.fields.any fun f => f.name = name ∧ f.type.isList
  acceptsLiteral name value := tool.fields.any fun f => f.name = name ∧ f.type.admits py value
  validate values :=
    if tool.Validates py values then .ok (py.dump tool values) else .error (py.message tool values)
  revalidate := .ok
  revalidate_dump _ _ _ := rfl

def defaultRuntime (limits : AgentBudgetLimits) (sha canonical : String → String) : Runtime where
  registry tool := some (tool.spec py)
  limits
  sha
  canonical

section Plans

variable (observations : List ToolObservation) (planVersion : String)

def Supplied (step : PlanStep) : Prop :=
  ∀ b ∈ step.argumentBindings, ∃ o,
    observationOf observations planVersion b.fromStep.stepId = some o ∧
      o.output b.fromStep.field ≠ []

/-- An index is below the length of every output that it is for, and comes with the selection
`first`, which `validate_selection` sees to. -/
def IndexHolds (b : ArgumentBinding) : Prop :=
  ∀ i ∈ b.fromStep.index, b.fromStep.selection = .first ∧
    ∀ o ∈ observationOf observations planVersion b.fromStep.stepId,
      i < (o.output b.fromStep.field).length

def valuesOf (step : PlanStep) : List (String × Argument) :=
  step.literalArguments ++ step.argumentBindings.flatMap fun b =>
    ((bindArgument observations planVersion b).toOption).getD []

/-- The required fields are covered, the values are within the limits of their fields, which take
texts or lists of texts where they are bound, and a symbol is asked for by one of its names. -/
structure Fits (step : PlanStep) : Prop where
  covered : ∀ f ∈ step.toolName.fields, f.required →
    ∃ p ∈ valuesOf observations planVersion step, p.1 = f.name
  literals : ∀ p ∈ step.literalArguments, ∀ f ∈ step.toolName.fields, f.name = p.1 →
    f.type.accepts py p.2
  bound : ∀ b ∈ step.argumentBindings, ∀ f ∈ step.toolName.fields, f.name = b.argumentName →
    (f.type = .optionalText ∨ (∃ m n, f.type = .text m n) ∨ ∃ n, f.type = .texts n) ∧
      ∀ p ∈ valuesOf observations planVersion step, p.1 = b.argumentName → f.type.accepts py p.2
  symbol : step.toolName = .getSymbolSource →
    given (valuesOf observations planVersion step) "entity_id" ≠
      given (valuesOf observations planVersion step) "qualified_name"

def DependsOn (steps : List PlanStep) (a b : String) : Prop :=
  ∃ step ∈ steps, step.stepId = a ∧ b ∈ step.dependencies

structure Resolved (rt : Runtime) (accepted : ResearchPlan) (step : PlanStep) : Prop where
  binds : ∀ b ∈ step.argumentBindings, IndexHolds observations accepted.planVersion b →
    ∃ value, bindArgument observations accepted.planVersion b = .ok [(b.argumentName, value)] ∧
      value.isList = (step.toolName.spec py).expectsCollection b.argumentName
  reads : ∀ other, (∀ source ∈ accepted.steps, source.ordinal < step.ordinal →
      observationOf other accepted.planVersion source.stepId =
        observationOf observations accepted.planVersion source.stepId) →
    resolve rt step accepted.planVersion other = resolve rt step accepted.planVersion observations
  acyclic : ∀ a, ¬ Relation.TransGen (DependsOn accepted.steps) a a
  resolves : (∀ b ∈ step.argumentBindings, IndexHolds observations accepted.planVersion b) →
    Fits py observations accepted.planVersion step →
    ∃ resolved, resolve rt step accepted.planVersion observations = .ok resolved

end Plans

section Proofs

variable {py} {rt : Runtime} {plan accepted : ResearchPlan} {ordered : List PlanStep}
  {step : PlanStep} {observations : List ToolObservation} {planVersion : String}
  {b : ArgumentBinding}

theorem validatePlan_steps (h : validatePlan rt plan = .ok accepted) :
    (accepted.steps.map PlanStep.stepId).Nodup ∧
      ∀ step ∈ accepted.steps, validateStep rt accepted.steps step = .ok ⟨⟩ := by
  simp only [validatePlan, except_bind_eq_ok_iff, ensure_eq_ok_iff, except_pure_eq_ok_iff] at h
  obtain ⟨_, _, _, _, _, hnodup, _, hsteps, rfl⟩ := h
  exact ⟨hnodup, except_forM_eq_ok_iff.mp hsteps⟩

theorem requirePrior_source {ordinal : ℕ} {stepId : String} {source : PlanStep}
    (h : requirePrior ordered ordinal stepId = .ok source) :
    source ∈ ordered ∧ source.stepId = stepId ∧ source.ordinal < ordinal := by
  obtain ⟨hmem, hlt⟩ := requirePrior_ok h
  simp only [requirePrior, orError_eq_ok_iff, Option.filter_eq_some_iff] at h
  exact ⟨hmem, by simpa using List.find?_some h.1, hlt⟩

theorem validateStep_dependency (h : validateStep rt ordered step = .ok ⟨⟩) {id : String}
    (hid : id ∈ step.dependencies) :
    ∃ source ∈ ordered, source.stepId = id ∧ source.ordinal < step.ordinal := by
  simp only [validateStep, except_bind_eq_ok_iff] at h
  obtain ⟨_, _, _, _, _, hprior, _⟩ := h
  obtain ⟨source, hsource, _⟩ := except_bind_eq_ok_iff.mp (except_forM_eq_ok_iff.mp hprior id hid)
  exact ⟨source, requirePrior_source hsource⟩

theorem validateStep_binding (h : validateStep rt ordered step = .ok ⟨⟩)
    (hb : b ∈ step.argumentBindings) : ∃ spec, rt.registry step.toolName = some spec ∧
      (∃ source ∈ ordered, source.stepId = b.fromStep.stepId ∧ source.ordinal < step.ordinal) ∧
      b.argumentName ∈ spec.properties ∧
      decide (b.fromStep.selection ∈ [Selection.all, .unique]) =
        spec.expectsCollection b.argumentName := by
  simp only [validateStep, except_bind_eq_ok_iff, orError_eq_ok_iff] at h
  obtain ⟨spec, hspec, _, _, _, _, _, hbindings, _⟩ := h
  have hbinding := except_forM_eq_ok_iff.mp hbindings b hb
  simp only [validateBinding, except_bind_eq_ok_iff, ensure_eq_ok_iff] at hbinding
  obtain ⟨source, hsource, _, _, _, _, _, _, _, hname, hselection⟩ := hbinding
  exact ⟨spec, hspec, ⟨source, requirePrior_source hsource⟩, hname, hselection⟩

theorem validateStep_literal (h : validateStep rt ordered step = .ok ⟨⟩)
    {p : String × Argument} (hp : p ∈ step.literalArguments) :
    ∃ spec, rt.registry step.toolName = some spec ∧ p.1 ∈ spec.properties := by
  simp only [validateStep, except_bind_eq_ok_iff, orError_eq_ok_iff, ensure_eq_ok_iff] at h
  obtain ⟨spec, hspec, _, hknown, _⟩ := h
  refine ⟨spec, hspec, by_contra fun hnot => ?_⟩
  have hmem : p.1 ∈ (step.literalArguments.map Prod.fst).filter (· ∉ spec.properties) :=
    List.mem_filter.mpr ⟨List.mem_map_of_mem hp, by simpa using hnot⟩
  rw [hknown] at hmem
  cases hmem

/-- A binding that its step supplies gives a value, a list if it takes more than one item. -/
theorem bindArgument_supplied (hsupplied : Supplied observations planVersion step)
    (hb : b ∈ step.argumentBindings) (hindex : IndexHolds observations planVersion b) :
    ∃ value, bindArgument observations planVersion b = .ok [(b.argumentName, value)] ∧
      value.isList = decide (b.fromStep.selection ∈ [Selection.all, .unique]) := by
  obtain ⟨o, hread, hne⟩ := hsupplied b hb
  have hselect : ∃ value, select (o.output b.fromStep.field) b.fromStep = some value ∧
      value.isList = decide (b.fromStep.selection ∈ [Selection.all, .unique]) := by
    obtain ⟨first, rest, hcons⟩ := List.exists_cons_of_ne_nil hne
    cases hi : b.fromStep.index with
    | some i =>
      obtain ⟨hfirst, hlt⟩ := hindex i hi
      have hget := List.getElem?_eq_getElem (hlt o hread)
      exact ⟨.text _, by rw [select, hi]; dsimp only; rw [hget]; rfl, by rw [hfirst]; rfl⟩
    | none =>
      cases hs : b.fromStep.selection <;> rw [select, hi, hcons] <;> simp [hs, Argument.isList]
  obtain ⟨value, hvalue, hlist⟩ := hselect
  refine ⟨value, ?_, hlist⟩
  rw [bindArgument, hread]
  dsimp only [Option.map_some, Option.getD_some]
  rw [hvalue]

theorem flatten_of_mapM {α β ε : Type} {f : α → Except ε (List β)} {l : List α}
    {bs : List (List β)} (h : l.mapM f = .ok bs) :
    bs.flatten = l.flatMap fun a => (f a).toOption.getD [] := by
  induction l generalizing bs with
  | nil =>
    cases h
    rfl
  | cons a l ih =>
    simp only [List.mapM_cons, except_bind_eq_ok_iff, except_pure_eq_ok_iff] at h
    obtain ⟨x, hx, xs, hxs, rfl⟩ := h
    rw [List.flatten_cons, List.flatMap_cons, ih hxs, hx]
    rfl

theorem except_mapM_congr {α β ε : Type} {f g : α → Except ε β} {l : List α}
    (h : ∀ a ∈ l, f a = g a) : l.mapM f = l.mapM g := by
  induction l with
  | nil => rfl
  | cons a l ih =>
    rw [List.mapM_cons, List.mapM_cons, h a List.mem_cons_self,
      ih fun b hb => h b (List.mem_cons_of_mem a hb)]

theorem DependsOn.ordinal_lt (hnodup : (ordered.map PlanStep.stepId).Nodup)
    (hvalid : ∀ step ∈ ordered, validateStep rt ordered step = .ok ⟨⟩) {a c : String}
    (h : Relation.TransGen (DependsOn ordered) a c) :
    ∀ s ∈ ordered, s.stepId = a → ∃ t ∈ ordered, t.stepId = c ∧ t.ordinal < s.ordinal := by
  intro s hs hid
  have hnext : ∀ {u : PlanStep} {d}, u ∈ ordered → DependsOn ordered u.stepId d →
      ∃ t ∈ ordered, t.stepId = d ∧ t.ordinal < u.ordinal := by
    rintro u d hu ⟨u', hu', hsame, hd⟩
    rw [List.inj_on_of_nodup_map hnodup hu' hu hsame] at hd
    exact validateStep_dependency (hvalid u hu) hd
  induction h with
  | single hstep => exact hnext hs (hid ▸ hstep)
  | tail _ hstep ih =>
    obtain ⟨t, ht, rfl, hlt⟩ := ih
    obtain ⟨r, hr, hrid, hrlt⟩ := hnext ht hstep
    exact ⟨r, hr, hrid, hrlt.trans hlt⟩

/-- The step of a validated plan resolves where its inputs fit. -/
theorem resolved_of_validated (limits : AgentBudgetLimits) (sha canonical : String → String)
    (hvalid : validatePlan (defaultRuntime py limits sha canonical) plan = .ok accepted)
    (hstep : step ∈ accepted.steps)
    (hsupplied : Supplied observations accepted.planVersion step) :
    Resolved py observations (defaultRuntime py limits sha canonical) accepted step := by
  obtain ⟨hnodup, hsteps⟩ := validatePlan_steps hvalid
  have hchecks := hsteps step hstep
  refine ⟨?_, ?_, ?_, ?_⟩
  · intro b hb hindex
    obtain ⟨value, hvalue, hlist⟩ := bindArgument_supplied hsupplied hb hindex
    obtain ⟨_, hspec, _, _, hselection⟩ := validateStep_binding hchecks hb
    obtain rfl := Option.some.inj hspec
    exact ⟨value, hvalue, hlist.trans hselection⟩
  · intro other hother
    have hsame : step.argumentBindings.mapM (bindArgument other accepted.planVersion) =
        step.argumentBindings.mapM (bindArgument observations accepted.planVersion) := by
      refine except_mapM_congr fun b hb => ?_
      obtain ⟨_, _, ⟨source, hsource, hid, hlt⟩, _⟩ := validateStep_binding hchecks hb
      rw [bindArgument, bindArgument, ← hid, hother source hsource hlt]
    rw [resolve, resolve, hsame]
  · intro a hcycle
    obtain ⟨d, ⟨s, hs, rfl, _⟩, _⟩ := Relation.TransGen.head'_iff.mp hcycle
    obtain ⟨t, ht, hid, hlt⟩ := DependsOn.ordinal_lt hnodup hsteps hcycle s hs rfl
    rw [List.inj_on_of_nodup_map hnodup ht hs hid] at hlt
    exact lt_irrefl _ hlt
  · intro hindex hfits
    have hbinds := fun b hb => bindArgument_supplied hsupplied hb (hindex b hb)
    obtain ⟨bs, hbs⟩ := exists_except_mapM (l := step.argumentBindings)
      fun b hb => (hbinds b hb).elim fun value h => ⟨[(b.argumentName, value)], h.1⟩
    have hvalues : step.literalArguments ++ bs.flatten =
        valuesOf observations accepted.planVersion step := by
      rw [flatten_of_mapM hbs, valuesOf]
    have hvalidates : step.toolName.Validates py
        (valuesOf observations accepted.planVersion step) := by
      refine ⟨fun p hp => ?_, hfits.covered, hfits.symbol⟩
      rcases List.mem_append.mp hp with hliteral | hbound
      · obtain ⟨_, hspec, hname⟩ := validateStep_literal hchecks hliteral
        obtain rfl := Option.some.inj hspec
        obtain ⟨f, hf, hfname⟩ := List.mem_map.mp hname
        exact ⟨f, hf, hfname, hfits.literals p hliteral f hf hfname⟩
      · obtain ⟨b, hb, hpb⟩ := List.mem_flatMap.mp hbound
        obtain ⟨value, hvalue, _⟩ := hbinds b hb
        obtain rfl : p = (b.argumentName, value) := by simpa [hvalue, Except.toOption] using hpb
        obtain ⟨_, hspec, _, hname, _⟩ := validateStep_binding hchecks hb
        obtain rfl := Option.some.inj hspec
        obtain ⟨f, hf, hfname⟩ := List.mem_map.mp hname
        exact ⟨f, hf, hfname, (hfits.bound b hb f hf hfname).2 _ hp rfl⟩
    rw [resolve, hbs, except_bind_ok, Runtime.getTool, defaultRuntime, orError_some, except_bind_ok,
      hvalues]
    simp only [ToolName.spec, if_pos hvalidates]
    exact ⟨_, rfl⟩

end Proofs

/-- Nothing but texts, lists and numbers is taken. -/
def samplePydantic : Pydantic := ⟨fun _ _ => false, fun _ _ => false, fun _ _ => "", fun _ _ => ""⟩

def searchStep : PlanStep where
  stepId := "a"
  ordinal := 0
  toolName := .searchHybrid
  literalArguments := [("query", .text "q")]

def boundStep (tool : ToolName) (literalArguments : List (String × Argument)) (argumentName : String)
    (index : Option ℕ) : PlanStep where
  stepId := "b"
  ordinal := 1
  toolName := tool
  literalArguments
  argumentBindings := [⟨argumentName, { stepId := "a", field := .entityIds, index }⟩]
  dependencies := ["a"]

def twoSteps (step : PlanStep) : ResearchPlan := ⟨"plan", "v1", [searchStep, step], by simp⟩

def found : ToolObservation where
  observationId := "observation"
  stepId := "a"
  planVersion := "v1"
  toolName := .searchHybrid
  resolvedArgumentsHash := ""
  toolCallKey := ""
  stepExecutionId := ""
  status := .success
  entityIds := ["entity"]
  chunkIds := []
  edgeIds := []
  evidenceIds := []
  summary := ""
  resultCount := 1
  warnings := []
  error := none

theorem supplied_boundStep (tool : ToolName) (literalArguments : List (String × Argument))
    (argumentName : String) (index : Option ℕ) :
    Supplied [found] "v1" (boundStep tool literalArguments argumentName index) := by
  intro b hb
  obtain rfl := List.mem_singleton.mp hb
  exact ⟨found, rfl, List.cons_ne_nil _ _⟩

def flowStep : PlanStep := boundStep .getModelFlow [] "entity_id" none

theorem resolved_flowStep : Resolved samplePydantic [found]
    (defaultRuntime samplePydantic {} id id) (twoSteps flowStep) flowStep := by
  have hvalid : validatePlan (defaultRuntime samplePydantic {} id id) (twoSteps flowStep) =
      .ok (twoSteps flowStep) := by decide +kernel
  exact resolved_of_validated {} id id hvalid (by decide) (supplied_boundStep _ _ _ _)

/-- The plan with the step is accepted and its inputs are given, but they do not resolve. -/
def Unresolvable (step : PlanStep) : Prop :=
  validatePlan (defaultRuntime samplePydantic {} id id) (twoSteps step) = .ok (twoSteps step) ∧
    Supplied [found] "v1" step ∧
    ∃ e, resolve (defaultRuntime samplePydantic {} id id) step "v1" [found] = .error e

/-- Neither an index beyond the output nor a text for a number is refused with the plan. -/
theorem unresolved_indexed_and_number :
    Unresolvable (boundStep .getModelFlow [] "entity_id" (some 1)) ∧
      Unresolvable (boundStep .getCallPath
        [("source_entity_id", .text "e"), ("target_entity_id", .text "f")] "max_hops" none) :=
  ⟨⟨by decide +kernel, supplied_boundStep _ _ _ _, _, rfl⟩,
    ⟨by decide +kernel, supplied_boundStep _ _ _ _, _, rfl⟩⟩

end CodeResearch.Research
