import CodeResearch.Analysis.ModelDetect
import CodeResearch.Library.Ranking
import CodeResearch.Library.Table
import Mathlib.Data.String.Basic

/-!
# Skeletons of teaching diagrams

`teaching_diagrams/skeleton_builder.py`: skeletons of the best models and functions and of
the files of the project, and the catalog of the evidence they refer to. Ids come from names
through a sanitiser, and the catalog keeps the last item put under an id.
-/
namespace CodeResearch.Analysis

inductive EvidenceType where
  | fileAnalysis | functionAnalysis | modelAnalysis
deriving DecidableEq

/-- `TeachingDiagramEvidenceItem`. -/
structure EvidenceItem where
  evidenceId : String
  evidenceType : EvidenceType
  factSummary : String
  filePath : Option String
  className : Option String
  functionName : Option String
  qualifiedName : Option String
  lineNo : Option ℕ
  confidence : Confidence
deriving DecidableEq

inductive EntityType where
  | model | function | dataFlow
deriving DecidableEq

/-- `TeachingDiagramSourceEntity`. -/
structure SourceEntity where
  entityType : EntityType
  entityId : String
  title : String
  filePath : Option String
  qualifiedName : Option String
  className : Option String
deriving DecidableEq

inductive ModuleKind where
  | input | output | layer | operation | function | module
deriving DecidableEq

/-- `TeachingDiagramModule`. -/
structure Module where
  id : String
  label : String
  kind : ModuleKind
  sectionId : String
  role : Option String
  evidenceRefs : List String
deriving DecidableEq

/-- `TeachingDiagramConnection`. -/
structure Connection where
  id : String
  sourceModuleId : String
  targetModuleId : String
  label : String
  evidenceRefs : List String
deriving DecidableEq

/-- `TeachingDiagramFormula`. -/
structure Formula where
  id : String
  text : String
  evidenceRefs : List String
deriving DecidableEq

/-- `TeachingDiagramSection`. -/
structure Section where
  id : String
  title : String
  moduleIds : List String
  evidenceRefs : List String
deriving DecidableEq

/-- What the hash of a skeleton is taken of. -/
structure Payload where
  sourceEntity : SourceEntity
  relatedMermaidDiagramIds : List String
  sections : List Section
  modules : List Module
  connections : List Connection
  formulas : List Formula
deriving DecidableEq

/-- `TeachingDiagramSkeleton`. -/
structure Skeleton extends Payload where
  skeletonId : String
  inputs : List String
  outputs : List String
  evidenceRefs : List String
  warnings : List String
  skeletonHash : String
deriving DecidableEq

/-- `_hash` of the dictionaries of `_finalize_skeleton`. -/
structure Hashing where
  payload : Payload → String
  identity : SourceEntity → String → String

structure Diagram where
  id : String
  diagramType : String

def isIdChar (c : Char) : Bool := c.isAlphanum ∨ c = '_'

/-- `re.sub(r"[^A-Za-z0-9_]+", "_", text)`, after a replaced run or not. -/
def replaceRuns : Bool → List Char → List Char
  | _, [] => []
  | replaced, c :: rest =>
    if isIdChar c then c :: replaceRuns false rest
    else if replaced then replaceRuns true rest
    else '_' :: replaceRuns true rest

/-- `text.strip("_")`. -/
def stripUnderscores (text : List Char) : List Char :=
  ((text.dropWhile (· = '_')).reverse.dropWhile (· = '_')).reverse

/-- `_safe_id`. -/
def safeId (value : String) : String :=
  let text := stripUnderscores (replaceRuns false (if value = "" then "item" else value).toList)
  if text = [] then "item" else String.ofList (text.take 80)

/-- `text[:n]`. -/
def cut (n : ℕ) (text : String) : String := String.ofList (text.toList.take n)

/-- `text.replace("self.", "")`. -/
def removeSelf : List Char → List Char
  | 's' :: 'e' :: 'l' :: 'f' :: '.' :: rest => removeSelf rest
  | c :: rest => c :: removeSelf rest
  | [] => []

abbrev Catalog := Table EvidenceItem.evidenceId

/-- `_add_evidence`: the item goes under its id cut to 220 characters. -/
def addEvidence (catalog : Catalog) (item : EvidenceItem) : Catalog :=
  catalog.put { item with
    evidenceId := cut 220 item.evidenceId
    factSummary := cut 1000 item.factSummary }

/-- What `_add_evidence` returns. -/
def evidenceRef (item : EvidenceItem) : String := cut 220 item.evidenceId

/-- `_finalize_skeleton`. -/
def finalizeSkeleton (hash : Hashing) (source : SourceEntity) (related : List String)
    (sections : List Section) (modules : List Module) (connections : List Connection)
    (formulas : List Formula) (evidenceRefs extraWarnings : List String) : Skeleton :=
  let sections := sections.map fun item => { item with
    moduleIds := (modules.filter fun m => m.sectionId = item.id).map Module.id }
  let payload : Payload := ⟨source, related, sections, modules, connections, formulas⟩
  let skeletonHash := hash.payload payload
  { payload with
    skeletonId := "td_" ++ cut 20 (hash.identity source skeletonHash)
    inputs := (modules.filter fun m => m.kind = .input).map Module.id
    outputs := (modules.filter fun m => m.kind = .output).map Module.id
    evidenceRefs := sortedSet evidenceRefs
    warnings :=
      (if related = [] then ["未找到可直接映射的 Mermaid 图，Blueprint 仍按规则事实生成。"] else []) ++
      (if ∃ m ∈ modules, m.sectionId ≠ "" ∧ m.sectionId ∉ sections.map Section.id then
        ["存在未映射分区的模块。"] else []) ++
      extraWarnings
    skeletonHash := skeletonHash }

/-- `_diagram_ids_by_type`. -/
def diagramIdsByType (diagrams : List Diagram) (type : String) : List String :=
  ((diagrams.filter fun diagram =>
    (if diagram.diagramType = "" then "unknown" else diagram.diagramType) = type).map
      Diagram.id).filter (· ≠ "")

/-- `str(model.get("class_name") or "Model")`. -/
def classNameOf (model : ModelAnalysis) : String :=
  if model.className = "" then "Model" else model.className

def modelEvidenceId (model : ModelAnalysis) : String :=
  "model:" ++ safeId model.filePath ++ ":" ++ safeId (classNameOf model)

def modelEvidence (model : ModelAnalysis) (suffix fact : String) (lineNo : Option ℕ)
    (confidence : Confidence) : EvidenceItem where
  evidenceId := modelEvidenceId model ++ suffix
  evidenceType := .modelAnalysis
  factSummary := fact
  filePath := some model.filePath
  className := some (classNameOf model)
  functionName := none
  qualifiedName := none
  lineNo := lineNo
  confidence := confidence

def wholeEvidence (model : ModelAnalysis) : EvidenceItem :=
  modelEvidence model "" ("模型类 " ++ classNameOf model ++ " 来自规则 model_analysis。")
    model.startLine (if model.isMainModelCandidate then .high else .medium)

def stepEvidence (model : ModelAnalysis) (step : ForwardStep) : EvidenceItem :=
  modelEvidence model (":forward:" ++ toString step.order)
    (if step.explanation ≠ "" then step.explanation
      else if step.expression ≠ "" then step.expression else "forward step")
    step.lineNo .medium

/-- `layer.get("assigned_name") or layer.get("name")`. -/
def layerName (layer : ModelLayer) : String :=
  if layer.assignedName = "" then layer.name else layer.assignedName

def layerId (layer : ModelLayer) : String :=
  "layer_" ++ safeId (if layerName layer = "" then "layer" else layerName layer)

def layerEvidence (model : ModelAnalysis) (layer : ModelLayer) : EvidenceItem :=
  modelEvidence model (":layer:" ++ safeId (layerId layer))
    ("模型层 " ++ layerName layer ++ " 类型为 " ++
      (if layer.layerType = "" then "unknown" else layer.layerType) ++ "。")
    layer.lineNo .medium

/-- `(values or [default])[:n]`. -/
def orDefault (n : ℕ) (default : String) (values : List String) : List String :=
  (if values = [] then [default] else values).take n

/-- What the loops of `_build_model_skeleton` carry along. -/
structure ModelParts where
  catalog : Catalog
  modules : List Module
  connections : List Connection
  stepModules : List String
  previousIds : List String

def edge (label evidence previous target : String) : Connection where
  id := "edge_" ++ previous ++ "_" ++ target
  sourceModuleId := previous
  targetModuleId := target
  label := label
  evidenceRefs := [evidence]

def inputModule (evidence : String) (index : ℕ) (name : String) : Module where
  id := "input_" ++ toString index
  label := "输入 " ++ name
  kind := .input
  sectionId := "model_flow"
  role := none
  evidenceRefs := [evidence]

def outputModule (sectionId evidence : String) (index : ℕ) (name : String) : Module where
  id := "output_" ++ toString index
  label := "输出 " ++ name
  kind := .output
  sectionId := sectionId
  role := none
  evidenceRefs := [evidence]

/-- The label of the `n`-th step. -/
def stepLabel (step : ForwardStep) (n : ℕ) : String :=
  match step.usesLayers with
  | first :: _ => first
  | [] =>
    let target := step.target.getD ""
    if target ≠ "" then target
    else if step.expression ≠ "" then step.expression else "step " ++ toString n

def stepModuleId (step : ForwardStep) (n : ℕ) : String :=
  "step_" ++ toString n ++ "_" ++ safeId (stepLabel step n)

def layerOfLabel (model : ModelAnalysis) (label : String) : Option ModelLayer :=
  let layerByName := dictBy layerName model.layers
  (layerByName (String.ofList (removeSelf label.toList))).orElse fun _ => layerByName label

def stepModule (model : ModelAnalysis) (step : ForwardStep) (n : ℕ) : Module where
  id := stepModuleId step n
  label := cut 80 (stepLabel step n)
  kind := if (layerOfLabel model (stepLabel step n)).isSome then .layer else .operation
  sectionId := "model_flow"
  role := (layerOfLabel model (stepLabel step n)).map fun layer => layer.role.name
  evidenceRefs := [evidenceRef (stepEvidence model step)]

def addStep (model : ModelAnalysis) (parts : ModelParts) (step : ForwardStep) : ModelParts :=
  let n := parts.stepModules.length + 1
  let moduleId := stepModuleId step n
  let previousIds :=
    if parts.previousIds = [] then [(parts.stepModules.getLast?).getD moduleId]
    else parts.previousIds
  { catalog := addEvidence parts.catalog (stepEvidence model step)
    modules := parts.modules ++ [stepModule model step n]
    connections := parts.connections ++ (previousIds.filter (· ≠ moduleId)).map fun previous =>
      edge "forward" (evidenceRef (stepEvidence model step)) previous moduleId
    stepModules := parts.stepModules ++ [moduleId]
    previousIds := [moduleId] }

def layerModule (model : ModelAnalysis) (layer : ModelLayer) : Module where
  id := layerId layer
  label := if layerName layer = "" then "layer" else layerName layer
  kind := .layer
  sectionId := "model_flow"
  role := some layer.role.name
  evidenceRefs := [evidenceRef (layerEvidence model layer)]

/-- The body of the loop over the layers. -/
def addLayer (model : ModelAnalysis) (parts : ModelParts) (layer : ModelLayer) : ModelParts :=
  { parts with
    catalog := addEvidence parts.catalog (layerEvidence model layer)
    modules := parts.modules ++ [layerModule model layer]
    connections := parts.connections ++ parts.previousIds.map fun previous =>
      edge "layer" (evidenceRef (layerEvidence model layer)) previous (layerId layer)
    previousIds := [layerId layer] }

/-- The body of the loop over the outputs. -/
def addOutput (evidence : String) (parts : ModelParts) (output : String × ℕ) : ModelParts :=
  let module := outputModule "model_flow" evidence output.2 output.1
  { parts with
    modules := parts.modules ++ [module]
    connections := parts.connections ++ parts.previousIds.map fun previous =>
      edge "return" evidence previous module.id }

def isFormula (expression : String) : Bool :=
  decide (expression ≠ "") && mentions ["+", "-", "*", "/", "matmul", "softmax"] expression

/-- The body of the loop over the formulas: the reference is that of the module in the place
of the formula. -/
def addFormula (inputs : ℕ) (modules : List Module) (formulas : List Formula)
    (step : ForwardStep) : List Formula :=
  if isFormula step.expression then
    formulas ++ [{
      id := "formula_" ++ toString (formulas.length + 1)
      text := cut 120 step.expression
      evidenceRefs := ((modules[min (formulas.length + inputs) (modules.length - 1)]?).bind
        fun m => m.evidenceRefs.head?).toList }]
  else formulas

def modelInputs (model : ModelAnalysis) : List String := orDefault 3 "input" model.modelInputs

def modelOutputs (model : ModelAnalysis) : List String := orDefault 3 "output" model.modelOutputs

def shownSteps (model : ModelAnalysis) : List ForwardStep :=
  (sortedBy ForwardStep.order model.forwardSteps).take 8

def startParts (model : ModelAnalysis) (catalog : Catalog) : ModelParts :=
  let modules := (modelInputs model).zipIdx 1 |>.map fun input =>
    inputModule (evidenceRef (wholeEvidence model)) input.2 input.1
  { catalog := addEvidence catalog (wholeEvidence model)
    modules := modules
    connections := []
    stepModules := []
    previousIds := modules.map Module.id }

def bodyParts (model : ModelAnalysis) (catalog : Catalog) : ModelParts :=
  let parts := (shownSteps model).foldl (addStep model) (startParts model catalog)
  if parts.stepModules = [] then (model.layers.take 8).foldl (addLayer model) parts else parts

def modelParts (model : ModelAnalysis) (catalog : Catalog) : ModelParts :=
  ((modelOutputs model).zipIdx 1).foldl (addOutput (evidenceRef (wholeEvidence model)))
    (bodyParts model catalog)

def modelSource (model : ModelAnalysis) : SourceEntity where
  entityType := .model
  entityId := "model:" ++ model.filePath ++ ":" ++ classNameOf model
  title := classNameOf model ++ " 模型数据流"
  filePath := some model.filePath
  qualifiedName := none
  className := some (classNameOf model)

def modelFormulas (model : ModelAnalysis) (modules : List Module) : List Formula :=
  (model.forwardSteps.take 3).foldl (addFormula (modelInputs model).length modules) []

def shapeWarnings (modules : List Module) : List String :=
  if ∃ m ∈ modules, m.kind = .input ∨ m.kind = .output then
    ["未发现具体 Tensor Shape evidence，已省略未确认 Shape。"] else []

/-- `_build_model_skeleton`. -/
def buildModelSkeleton (hash : Hashing) (diagrams : List Diagram) (model : ModelAnalysis)
    (catalog : Catalog) : Option Skeleton × Catalog :=
  let evidence := evidenceRef (wholeEvidence model)
  let parts := modelParts model catalog
  (if parts.modules.length < 2 then none
    else some (finalizeSkeleton hash (modelSource model)
      (diagramIdsByType diagrams "model_flow" ++ diagramIdsByType diagrams "core_modules")
      [⟨"model_flow", "模型计算路径", [], [evidence]⟩] parts.modules parts.connections
      (modelFormulas model parts.modules) [evidence] (shapeWarnings parts.modules)),
    parts.catalog)

/-- `str(function.get("qualified_name") or function.get("function_name") or "function")`. -/
def qualifiedNameOf (function : FunctionAnalysis) : String :=
  if function.qualifiedName ≠ "" then function.qualifiedName
  else if function.functionName ≠ "" then function.functionName else "function"

def functionEvidence (function : FunctionAnalysis) : EvidenceItem where
  evidenceId := "function:" ++ safeId function.filePath ++ ":" ++ safeId (qualifiedNameOf function)
  evidenceType := .functionAnalysis
  factSummary := "函数 " ++ qualifiedNameOf function ++ " 来自规则 function_analysis。"
  filePath := some function.filePath
  className := none
  functionName := some function.functionName
  qualifiedName := some (qualifiedNameOf function)
  lineNo := function.startLine
  confidence := if function.isCoreFunction then .high else .medium

def functionSource (function : FunctionAnalysis) : SourceEntity where
  entityType := .function
  entityId := "function:" ++ function.filePath ++ ":" ++ qualifiedNameOf function
  title := qualifiedNameOf function ++ " 函数逻辑"
  filePath := some function.filePath
  qualifiedName := some (qualifiedNameOf function)
  className := function.className

def functionStart (function : FunctionAnalysis) : Module where
  id := "function_start"
  label := qualifiedNameOf function
  kind := .function
  sectionId := "function_steps"
  role := none
  evidenceRefs := [evidenceRef (functionEvidence function)]

/-- The modules and connections of a function, and the id of the last module in line. -/
structure FunctionParts where
  modules : List Module
  connections : List Connection
  previous : String

def logicModule (evidence : String) (index : ℕ) (step : String) : Module where
  id := "step_" ++ toString index
  label := cut 90 step
  kind := .operation
  sectionId := "function_steps"
  role := none
  evidenceRefs := [evidence]

/-- The body of the loop over the steps of the implementation. -/
def addLogic (evidence : String) (parts : FunctionParts) (step : String × ℕ) : FunctionParts :=
  let module := logicModule evidence step.2 step.1
  { modules := parts.modules ++ [module]
    connections := parts.connections ++
      [edge ("步骤 " ++ toString step.2) evidence parts.previous module.id]
    previous := module.id }

def addFunctionOutput (evidence : String) (parts : FunctionParts) (output : String × ℕ) :
    FunctionParts :=
  let module := outputModule "function_steps" evidence output.2 output.1
  { parts with
    modules := parts.modules ++ [module]
    connections := parts.connections ++ [edge "return" evidence parts.previous module.id] }

def functionParts (function : FunctionAnalysis) : FunctionParts :=
  let evidence := evidenceRef (functionEvidence function)
  let start : FunctionParts := ⟨[functionStart function], [], "function_start"⟩
  ((orDefault 2 "输出" function.outputs).zipIdx 1).foldl (addFunctionOutput evidence)
    (((function.implementationLogic.take 6).zipIdx 1).foldl (addLogic evidence) start)

/-- `_build_function_skeleton`. -/
def buildFunctionSkeleton (hash : Hashing) (diagrams : List Diagram) (function : FunctionAnalysis)
    (catalog : Catalog) : Option Skeleton × Catalog :=
  let evidence := evidenceRef (functionEvidence function)
  let parts := functionParts function
  (if parts.modules.length < 3 then none
    else some (finalizeSkeleton hash (functionSource function)
      (diagramIdsByType diagrams "function_logic")
      [⟨"function_steps", "函数执行步骤", [], [evidence]⟩] parts.modules parts.connections []
      [evidence] []),
    addEvidence catalog (functionEvidence function))

def readingPlace (fileType : String) : Option ℕ :=
  if fileType = "entry" then some 0
  else if fileType = "dataset" then some 1
  else if fileType = "model" then some 2
  else if fileType = "training" then some 3
  else none

def fileEvidence (item : FileAnalysis) : EvidenceItem where
  evidenceId := "file:" ++ safeId item.filePath
  evidenceType := .fileAnalysis
  factSummary := item.filePath ++ " 被规则识别为 " ++ item.fileType ++ "。"
  filePath := some item.filePath
  className := none
  functionName := none
  qualifiedName := none
  lineNo := none
  confidence := item.confidence

def fileModule (item : FileAnalysis) (index : ℕ) : Module where
  id := "file_" ++ toString index
  label := item.filePath
  kind := .module
  sectionId := "project_reading_order"
  role := some item.fileType
  evidenceRefs := [evidenceRef (fileEvidence item)]

def shownFiles (fileAnalysis : List FileAnalysis) : List FileAnalysis :=
  (sortedBy (fun item => (readingPlace item.fileType).getD 9)
    (fileAnalysis.filter fun item => (readingPlace item.fileType).isSome)).take 4

def readingEdge (pair : Module × Module) : Connection where
  id := "edge_" ++ pair.1.id ++ "_" ++ pair.2.id
  sourceModuleId := pair.1.id
  targetModuleId := pair.2.id
  label := "建议阅读顺序"
  evidenceRefs := pair.1.evidenceRefs ++ pair.2.evidenceRefs

/-- `_build_data_flow_skeleton`. -/
def buildDataFlowSkeleton (hash : Hashing) (diagrams : List Diagram)
    (fileAnalysis : List FileAnalysis) (catalog : Catalog) : Option Skeleton × Catalog :=
  if (fileAnalysis.filter fun item => (readingPlace item.fileType).isSome).length < 2 then
    (none, catalog)
  else
    let files := shownFiles fileAnalysis
    let modules := (files.zipIdx 1).map fun item => fileModule item.1 item.2
    let refs := files.map fun item => evidenceRef (fileEvidence item)
    (some (finalizeSkeleton hash ⟨.dataFlow, "data_flow:project", "项目建议阅读顺序", none, none, none⟩
      (diagramIdsByType diagrams "project_structure")
      [⟨"project_reading_order", "项目建议阅读顺序", modules.map Module.id, refs⟩] modules
      ((modules.zip modules.tail).map readingEdge) [] refs []),
      files.foldl (fun catalog item => addEvidence catalog (fileEvidence item)) catalog)

/-- `_rank_models`. -/
def rankModels (models : List ModelAnalysis) : List ModelAnalysis :=
  sortedBy (fun model : ModelAnalysis =>
    toLex (!model.isMainModelCandidate,
      toLex (OrderDual.toDual model.forwardSteps.length,
        toLex (OrderDual.toDual model.layers.length, model.className))))
    (models.filter fun model => model.layers ≠ [] ∨ model.forwardSteps ≠ [])

/-- `_rank_functions`. -/
def rankFunctions (py : Python) (functions : List FunctionAnalysis) : List FunctionAnalysis :=
  (sortedBy (fun function : FunctionAnalysis =>
    toLex (!function.isCoreFunction,
      toLex (!occursIn "forward" (py.lower function.qualifiedName),
        toLex (!occursIn "train" (py.lower function.qualifiedName), function.qualifiedName))))
    (functions.filter fun function => function.implementationLogic ≠ [] ∨
      function.calledInternalFunctions ≠ [] ∨ function.libraryCalls.length ≠ 0)).take 4

/-- The skeletons selected so far and the catalog. -/
structure Selection where
  selected : List Skeleton
  catalog : Catalog

/-- The body of the loop over the models. -/
def selectModel (hash : Hashing) (diagrams : List Diagram) (maxDiagrams : ℕ) (s : Selection)
    (model : ModelAnalysis) : Selection :=
  if maxDiagrams ≤ s.selected.length then s
  else
    let built := buildModelSkeleton hash diagrams model s.catalog
    ⟨s.selected ++ built.1.toList, built.2⟩

/-- The body of the loop over the functions. -/
def selectFunction (hash : Hashing) (diagrams : List Diagram) (maxDiagrams : ℕ) (s : Selection)
    (function : FunctionAnalysis) : Selection :=
  if maxDiagrams ≤ s.selected.length then s
  else
    let built := buildFunctionSkeleton hash diagrams function s.catalog
    ⟨s.selected ++ built.1.toList.filter fun skeleton =>
      skeleton.skeletonId ∉ s.selected.map fun other => other.skeletonId, built.2⟩

/-- What `build_teaching_diagram_skeletons` reads. -/
structure SkeletonInput where
  fileAnalysis : List FileAnalysis
  functionAnalysis : List FunctionAnalysis
  modelAnalysis : List ModelAnalysis
  diagrams : List Diagram

def selectEntities (py : Python) (hash : Hashing) (maxDiagrams : ℕ) (input : SkeletonInput) :
    Selection :=
  (rankFunctions py input.functionAnalysis).foldl (selectFunction hash input.diagrams maxDiagrams)
    ((rankModels input.modelAnalysis).foldl (selectModel hash input.diagrams maxDiagrams)
      ⟨[], Table.empty⟩)

def selectAll (py : Python) (hash : Hashing) (maxDiagrams : ℕ) (input : SkeletonInput) :
    Selection :=
  let s := selectEntities py hash maxDiagrams input
  if s.selected.length < maxDiagrams then
    let built := buildDataFlowSkeleton hash input.diagrams input.fileAnalysis s.catalog
    ⟨s.selected ++ built.1.toList, built.2⟩
  else s

/-- `SkeletonBuildResult`. -/
structure SkeletonBuildResult where
  skeletons : List Skeleton
  evidenceCatalog : List EvidenceItem
  /-- Is the warning that no entity was eligible given? -/
  noEligibleEntity : Bool
deriving DecidableEq

/-- `build_teaching_diagram_skeletons`. -/
def buildTeachingDiagramSkeletons (py : Python) (hash : Hashing) (maxDiagrams : ℕ)
    (input : SkeletonInput) : SkeletonBuildResult :=
  let s := selectAll py hash maxDiagrams input
  let skeletons := s.selected.take maxDiagrams
  { skeletons := skeletons
    evidenceCatalog := sortedBy EvidenceItem.evidenceId s.catalog.rows
    noEligibleEntity := decide (skeletons = []) }

end CodeResearch.Analysis
