import CodeResearch.Analysis.Syntax
import CodeResearch.Library.Dict
import CodeResearch.Library.SetOrder
import Mathlib

/-!
# Detecting models

`tools/model_detect_tool.py`: the classes taken for neural network modules, the layers their
`__init__` assigns, the steps of their `forward`, and the components these suggest. The set
of layer names is listed in the order of the interpreter.
-/
namespace CodeResearch.Analysis

inductive Confidence where
  | high | medium | low
deriving DecidableEq

/-- `ComponentRole`. -/
inductive ComponentRole where
  | encoder | decoder | backbone | head | loss | classifier | embedding | normalization
  | activation | unknown
deriving DecidableEq

def ComponentRole.name : ComponentRole → String
  | encoder => "encoder"
  | decoder => "decoder"
  | backbone => "backbone"
  | head => "head"
  | loss => "loss"
  | classifier => "classifier"
  | embedding => "embedding"
  | normalization => "normalization"
  | activation => "activation"
  | unknown => "unknown"

structure ParsedFile where
  filePath : String
  /-- The modules of its imports. -/
  imports : List String
  aliases : List (String × String)

structure ClassInfo where
  filePath : String
  className : String
  baseClasses : List String
  startLine : Option ℕ
  endLine : Option ℕ
deriving DecidableEq

structure FunctionInfo where
  filePath : String
  functionName : String
  className : Option String
  startLine : Option ℕ
  sourceCode : Option String

structure FileAnalysis where
  filePath : String
  fileType : String
  purpose : String
  mainClasses : List String
  mainFunctions : List String
  confidence : Confidence

structure LibraryCall where
  filePath : String
  className : Option String
  qualifiedFunctionName : String
  canonicalName : String
  lineNo : Option ℕ

structure FunctionAnalysis where
  filePath : String
  className : Option String
  functionName : String
  qualifiedName : String
  startLine : Option ℕ
  purpose : String
  outputs : List String
  implementationLogic : List String
  modelPosition : Option String
  calledInternalFunctions : List String
  libraryCalls : List LibraryCall
  isCoreFunction : Bool

structure ModelLayer where
  name : String
  assignedName : String
  layerType : String
  callText : String
  lineNo : Option ℕ
  role : ComponentRole
  evidence : List String
deriving DecidableEq

structure ForwardStep where
  order : ℕ
  target : Option String
  expression : String
  calls : List String
  usesLayers : List String
  lineNo : Option ℕ
  explanation : String
  evidence : List String
deriving DecidableEq

structure ModelComponentCandidate where
  name : String
  role : ComponentRole
  filePath : String
  className : String
  lineNo : Option ℕ
  evidence : List String
  confidence : Confidence
deriving DecidableEq

structure ModelAnalysis where
  filePath : String
  className : String
  baseClasses : List String
  startLine : Option ℕ
  endLine : Option ℕ
  isMainModelCandidate : Bool
  mainModelReason : Option String
  initFunction : Bool
  forwardFunction : Bool
  modelInputs : List String
  modelOutputs : List String
  layers : List ModelLayer
  forwardSteps : List ForwardStep
  componentCandidates : List ModelComponentCandidate
  summary : String
  evidence : List String
  warnings : List String
  confidence : Confidence
deriving DecidableEq

variable (py : Python)

/-- `any(keyword in text for keyword in keywords)`. -/
def mentions (keywords : List String) (text : String) : Bool :=
  keywords.any fun keyword => occursIn keyword text

/-- `MODEL_NAME_KEYWORDS`. -/
def modelNameKeywords : List String :=
  ["model", "net", "network", "module", "classifier", "encoderdecoder"]

/-- The keywords of a role and whether they are sought in the name alone, as
`_role_for_name_and_type` goes through them. -/
def roleKeywords : List (List String × Bool × ComponentRole) :=
  [(["encoder", "enc"], false, .encoder),
    (["decoder", "dec"], false, .decoder),
    (["backbone", "resnet", "vgg", "vit", "transformer", "feature_extractor"], false, .backbone),
    (["loss", "criterion", "crossentropyloss", "mseloss", "bcewithlogitsloss"], false, .loss),
    (["embedding", "embed"], false, .embedding),
    (["batchnorm", "layernorm", "norm"], false, .normalization),
    (["relu", "gelu", "sigmoid", "softmax"], false, .activation),
    (["classifier", "cls", "output"], true, .classifier),
    (["head", "cls_head", "bbox_head", "seg_head"], true, .head),
    (["proj", "projection"], true, .head),
    (["fc", "linear"], true, .head)]

/-- `_role_for_name_and_type`. -/
def roleForNameAndType (name layerType : String) : ComponentRole :=
  let nameText := py.lower name
  let combinedText := nameText ++ " " ++ py.lower layerType
  ((roleKeywords.find? fun entry =>
    mentions entry.1 (if entry.2.1 then nameText else combinedText)).map fun entry =>
      entry.2.2).getD .unknown

/-- `_role_confidence`. -/
def roleConfidence (name layerType : String) : Confidence :=
  let fromName := roleForNameAndType py name ""
  let fromType := roleForNameAndType py "" layerType
  if fromName ≠ .unknown ∧ fromType ≠ .unknown then .high
  else if fromName ≠ .unknown ∨ fromType ≠ .unknown then .medium
  else .low

/-- `_is_linear_mapping_hint`. -/
def isLinearMappingHint (name layerType : String) : Bool :=
  mentions ["linear", "fc", "proj", "projection"] (py.lower (name ++ " " ++ layerType))

structure ModuleDetection where
  isModule : Bool
  confidence : Confidence
  evidence : List String
  warnings : List String

/-- The functions of a class by name, a later one of the same name in place of an earlier:
`_find_class_functions`. -/
def findClassFunctions (info : ClassInfo) (functions : List FunctionInfo) (name : String) :
    Option FunctionInfo :=
  dictBy FunctionInfo.functionName (functions.filter fun function =>
    function.filePath = info.filePath ∧ function.className = some info.className) name

/-- `_is_nn_module_class`. -/
def isNnModuleClass (info : ClassInfo) (aliases : List (String × String)) (imports : List String)
    (classFunctions : String → Option FunctionInfo) : ModuleDetection :=
  let isModuleBase (base : String) : Bool :=
    base = "nn.Module" ∨ base = "torch.nn.Module" ∨ canonicalName base aliases = "torch.nn.Module"
  match info.baseClasses.find? isModuleBase with
  | some base =>
    { isModule := true, confidence := .high,
      evidence := ["基类 " ++ base ++ " 可还原为 torch.nn.Module。"], warnings := [] }
  | none =>
    let hasTorchImport := imports.any (startsWith "torch") ||
      aliases.any fun entry => startsWith "torch" entry.2
    if info.baseClasses.any (endsWith ".Module") && hasTorchImport then
      { isModule := true, confidence := .medium,
        evidence := ["基类名称以 .Module 结尾，且文件导入了 torch 相关模块。"], warnings := [] }
    else
      let hasModelName :=
        mentions modelNameKeywords (py.lower (info.className ++ " " ++ info.filePath))
      if hasModelName && (classFunctions "__init__").isSome && (classFunctions "forward").isSome then
        { isModule := true, confidence := .medium,
          evidence := ["类名或路径命中模型关键词，且同时包含 __init__ 和 forward。"],
          warnings := ["未确认继承 torch.nn.Module，按中置信模型候选处理。"] }
      else
        { isModule := false, confidence := .low, evidence := [],
          warnings :=
            if hasModelName then ["类名或路径像模型类，但缺少继承或 forward 证据，v0.5 不纳入模型分析。"]
            else [] }

/-- `_parse_function_source`. -/
def parseFunctionSource (function : FunctionInfo) : Option Node :=
  match function.sourceCode with
  | none => none
  | some source => if source = "" then none else py.parse source

/-- `_absolute_line_no`. -/
def absoluteLineNo (function : FunctionInfo) (lineno : Option ℕ) : Option ℕ := do
  let start ← function.startLine
  let line ← lineno
  return start + line - 1

/-- `_self_attribute_name`. -/
def selfAttributeName (n : Node) : Option String :=
  match n.kind, (n.field .value).head? with
  | .attribute attr, some value => if value.kind = .name "self" then some attr else none
  | _, _ => none

/-- The target and the value of an assignment: those of `ast.Assign` with its first target,
those of `ast.AnnAssign`. -/
def assignment (n : Node) : Option Node × Option Node :=
  match n.kind with
  | .assign =>
    match (n.field .targets).head? with
    | some target => (some target, (n.field .value).head?)
    | none => (none, none)
  | .annAssign => ((n.field .target).head?, (n.field .value).head?)
  | _ => (none, none)

/-- The layer an assignment in `__init__` makes. -/
def initLayer (initFunction : FunctionInfo) (aliases : List (String × String)) (n : Node) :
    Option ModelLayer :=
  match assignment n with
  | (some target, some value) =>
    if value.kind = .call then
      match selfAttributeName target with
      | some layerName =>
        if layerName = "" then none
        else
          let layerType :=
            canonicalName ((((value.field .func).head?).map Node.text).getD "") aliases
          let callText := value.sourceText
          let role := roleForNameAndType py layerName layerType
          some {
            name := layerName
            assignedName := "self." ++ layerName
            layerType := layerType
            callText := callText
            lineNo := absoluteLineNo initFunction n.lineno
            role := role
            evidence := ["在 __init__ 中发现 self." ++ layerName ++ " = " ++ callText ++ "。"] ++
              if role ≠ .unknown then ["名称或类型命中 " ++ role.name ++ " 角色关键词。"]
              else if isLinearMappingHint py layerName layerType then
                ["可能是线性映射层，具体角色需结合上下文确认。"]
              else [] }
      | none => none
    else none
  | _ => none

/-- `_extract_init_layers`. -/
def extractInitLayers (initFunction : FunctionInfo) (aliases : List (String × String)) :
    List ModelLayer :=
  match parseFunctionSource py initFunction with
  | none => []
  | some tree => tree.walk.filterMap (initLayer py initFunction aliases)

/-- `_forward_step_explanation`. -/
def forwardStepExplanation (isReturn : Bool) (usesLayers calls : List String) : String :=
  if isReturn then "返回模型 forward 的输出表达式。"
  else if usesLayers ≠ [] then
    "调用模型层 " ++ ", ".intercalate usesLayers ++ " 处理输入或中间特征。"
  else if calls ≠ [] then "调用 " ++ ", ".intercalate calls ++ " 等函数进行张量计算。"
  else "执行 forward 中的基础表达式。"

def stepParts (stmt : Node) : Option (Option String × Node × Bool) :=
  match stmt.kind with
  | .assign =>
    match (stmt.field .targets).head? with
    | some target => (stmt.field .value).head?.map fun value => (some target.text, value, false)
    | none => none
  | .annAssign =>
    (stmt.field .value).head?.map fun value =>
      ((stmt.field .target).head?.map Node.text, value, false)
  | .exprStmt => (stmt.field .value).head?.map fun value => (none, value, false)
  | .returnStmt => (stmt.field .value).head?.map fun value => (none, value, true)
  | _ => none

def callNames (expression : Node) (aliases : List (String × String)) : List String :=
  (expression.walk.filter fun n => n.kind = .call).map fun call =>
    canonicalName ((((call.field .func).head?).map Node.text).getD "") aliases

/-- `_interesting_nested_statements`. -/
def interestingNestedStatements (stmt : Node) : List Node :=
  stmt.walk.tail.filter fun n =>
    n.kind = .assign ∨ n.kind = .annAssign ∨ n.kind = .exprStmt ∨ n.kind = .returnStmt

/-- Is it one of `CONTROL_FLOW_NODES`? -/
def isControlFlow (stmt : Node) : Bool :=
  stmt.kind = .ifStmt ∨ stmt.kind = .forStmt ∨ stmt.kind = .whileStmt

def visitedStatements (body : List Node) : List Node :=
  body.flatMap fun stmt => if isControlFlow stmt then interestingNestedStatements stmt else [stmt]

/-- The step that `_append_forward_step` appends after `count` others. -/
def forwardStep (order : SetOrder String) (forwardFunction : FunctionInfo)
    (layerNames : Finset String) (aliases : List (String × String)) (stmt : Node)
    (parts : Option String × Node × Bool) (count : ℕ) : ForwardStep :=
  let expression := parts.2.1.sourceText
  let calls := callNames parts.2.1 aliases
  let usesLayers :=
    ((order.list layerNames).filter fun name => decide ("self." ++ name ∈ calls)).map fun name =>
      "self." ++ name
  { order := count + 1
    target := parts.1
    expression := expression
    calls := calls
    usesLayers := usesLayers
    lineNo := absoluteLineNo forwardFunction stmt.lineno
    explanation := forwardStepExplanation parts.2.2 usesLayers calls
    evidence := ["forward 第 " ++ toString (count + 1) ++ " 个可识别语句：" ++ expression] }

/-- The steps, and the expressions returned, after the statements: `_append_forward_step` for
each of them. -/
def appendForwardSteps (order : SetOrder String) (forwardFunction : FunctionInfo)
    (layerNames : Finset String) (aliases : List (String × String)) :
    List Node → List ForwardStep × List String → List ForwardStep × List String
  | [], acc => acc
  | stmt :: stmts, (steps, outputs) =>
    appendForwardSteps order forwardFunction layerNames aliases stmts <|
      match stepParts stmt with
      | none => (steps, outputs)
      | some parts =>
        (steps ++ [forwardStep order forwardFunction layerNames aliases stmt parts steps.length],
          if parts.2.2 then outputs ++ [parts.2.1.sourceText] else outputs)

/-- What is read off a `forward` function. -/
structure ForwardFacts where
  steps : List ForwardStep
  inputs : List String
  outputs : List String
  warnings : List String
deriving DecidableEq

/-- The names in `function_def.args.args` other than `self`. -/
def forwardInputs (functionDef : Node) : List String :=
  (((functionDef.field .args).flatMap fun n => n.field .args).filterMap fun n =>
    match n.kind with
    | .arg name => some name
    | _ => none).filter (· ≠ "self")

/-- `_extract_forward_steps`. -/
def extractForwardSteps (order : SetOrder String) (forwardFunction : Option FunctionInfo)
    (layers : List ModelLayer) (aliases : List (String × String)) : ForwardFacts :=
  match forwardFunction with
  | none => ⟨[], [], [], ["未找到 forward 函数。"]⟩
  | some function =>
    match parseFunctionSource py function with
    | none => ⟨[], [], [], ["forward 函数源码无法解析。"]⟩
    | some tree =>
      match tree.walk.find? fun n => decide (Node.IsFunction n.kind) with
      | none => ⟨[], [], [], ["forward 函数 AST 中未找到函数定义。"]⟩
      | some functionDef =>
        let body := functionDef.field .body
        let layerNames := (layers.map ModelLayer.name).toFinset
        let found := appendForwardSteps order function layerNames aliases
          (visitedStatements body) ([], [])
        let branches := (body.filter isControlFlow).map fun _ =>
          "forward 中存在分支或循环，v0.5 仅做基础顺序识别。"
        if found.2 = [] then
          ⟨found.1, forwardInputs functionDef, ["无显式 return"],
            branches ++ ["forward 中未发现显式 return。"]⟩
        else ⟨found.1, forwardInputs functionDef, found.2, branches⟩

/-- `candidates.setdefault((candidate.name, candidate.role), candidate)`. -/
def setDefault (candidates : List ModelComponentCandidate) (candidate : ModelComponentCandidate) :
    List ModelComponentCandidate :=
  if candidates.any fun other => other.name = candidate.name ∧ other.role = candidate.role then
    candidates
  else candidates ++ [candidate]

/-- `candidates[(candidate.name, candidate.role)] = candidate`. -/
def setCandidate (candidates : List ModelComponentCandidate) (candidate : ModelComponentCandidate) :
    List ModelComponentCandidate :=
  if candidates.any fun other => other.name = candidate.name ∧ other.role = candidate.role then
    candidates.map fun other =>
      if other.name = candidate.name ∧ other.role = candidate.role then candidate else other
  else candidates ++ [candidate]

def namedCandidate (info : ClassInfo) (name : String) (lineNo : Option ℕ)
    (evidence : ComponentRole → String) : ModelComponentCandidate :=
  let role := roleForNameAndType py name name
  { name := name, role := role, filePath := info.filePath, className := info.className,
    lineNo := lineNo, evidence := [evidence role], confidence := roleConfidence py name name }

/-- `_detect_component_candidates`. -/
def detectComponentCandidates (info : ClassInfo) (layers : List ModelLayer)
    (forwardSteps : List ForwardStep) (libraryCalls : List LibraryCall) :
    List ModelComponentCandidate :=
  let ofLayers := (layers.filterMap fun layer =>
    let confidence := roleConfidence py layer.name layer.layerType
    if layer.role = .unknown ∨ confidence = .low then none
    else some
      { name := layer.assignedName, role := layer.role, filePath := info.filePath,
        className := info.className, lineNo := layer.lineNo, evidence := layer.evidence,
        confidence := confidence : ModelComponentCandidate }).foldl setCandidate []
  let ofSteps := ((forwardSteps.flatMap fun step => step.calls.map fun call =>
    namedCandidate py info call step.lineNo fun role =>
      "forward 调用 " ++ call ++ " 命中 " ++ role.name ++ " 角色关键词。").filter fun candidate =>
        ¬ (candidate.role = .unknown ∨ candidate.confidence = .low)).foldl setDefault ofLayers
  (((libraryCalls.filter fun call =>
    call.filePath = info.filePath ∧ call.className = some info.className).map fun call =>
      namedCandidate py info call.canonicalName call.lineNo fun role =>
        "library_calls 中 " ++ call.canonicalName ++ " 命中 " ++ role.name ++ " 角色关键词。").filter
    fun candidate => (candidate.role = .loss ∨ candidate.role = .head ∨
      candidate.role = .classifier) ∧ candidate.confidence ≠ .low).foldl setDefault ofSteps

/-- The parts of `_score_main_model_candidate`: whether each applies, its points and its reason. -/
def mainModelScore (model : ModelAnalysis) (fileType : Option String) : ℤ × List String :=
  let lowerClass := py.lower model.className
  let parts : List (Bool × ℤ × String) :=
    [(true, 3, "继承或匹配 nn.Module"),
      (model.forwardFunction, 3, "包含 forward"),
      (model.initFunction, 2, "包含 __init__"),
      (model.layers.any fun layer => startsWith "torch.nn." layer.layerType, 3,
        "在 __init__ 中定义 torch.nn 网络层"),
      (model.forwardSteps.any fun step => decide (step.usesLayers ≠ []), 2, "forward 调用 self 层"),
      (decide (fileType = some "model"), 2, "所在文件被识别为模型文件"),
      (mentions modelNameKeywords lowerClass, 1, "类名命中模型关键词"),
      (occursIn "loss" lowerClass, -2, "类名包含 Loss，降低主模型优先级"),
      (occursIn "loss" (py.lower model.filePath), -2, "路径包含 loss，降低主模型优先级")]
  let held := parts.filter fun part => part.1
  ((held.map fun part => part.2.1).sum, held.map fun part => part.2.2)

/-- What `_mark_main_model_candidates` compares models by: score, forward and layers. -/
def mainModelRank (model : ModelAnalysis) (fileType : Option String) : ℤ ×ₗ ℕ ×ₗ ℕ :=
  toLex ((mainModelScore py model fileType).1,
    toLex (if model.forwardFunction then 1 else 0, model.layers.length))

/-- The place of the first of the largest ranks, as `max` finds it. -/
def bestIndex {α : Type*} [LinearOrder α] : List α → Option ℕ
  | [] => none
  | r :: rest =>
    match bestIndex rest with
    | none => some 0
    | some i => if ∃ best ∈ rest[i]?, r < best then some (i + 1) else some 0

def markMain (model : ModelAnalysis) (score : ℤ × List String) : ModelAnalysis :=
  let reason := "主模型候选得分 " ++ toString score.1 ++ "：" ++ "；".intercalate score.2
  { model with
    isMainModelCandidate := true
    mainModelReason := some reason
    evidence := model.evidence ++ [reason] }

/-- `_mark_main_model_candidates`. -/
def markMainModelCandidates (models : List ModelAnalysis) (fileType : String → Option String) :
    List ModelAnalysis :=
  match bestIndex (models.map fun model => mainModelRank py model (fileType model.filePath)) with
  | none => models
  | some i => models.modify i fun model =>
    let score := mainModelScore py model (fileType model.filePath)
    if score.1 < 6 then model else markMain model score

/-- What `detect_models` reads. -/
structure ModelInput where
  parsedFiles : List ParsedFile
  classes : List ClassInfo
  functions : List FunctionInfo
  fileAnalysis : List FileAnalysis
  libraryCalls : List LibraryCall
  functionAnalysis : List FunctionAnalysis

def ModelInput.aliases (input : ModelInput) (path : String) : List (String × String) :=
  ((dictBy ParsedFile.filePath input.parsedFiles path).map ParsedFile.aliases).getD []

/-- The function analyses `function_analysis_by_key` keeps. -/
def functionAnalysisByKey (functionAnalysis : List FunctionAnalysis) :
    String × String → Option FunctionAnalysis :=
  dictBy (fun item => (item.filePath, item.qualifiedName)) functionAnalysis

def functionContext (functionAnalysis : List FunctionAnalysis) (info : ClassInfo) : ℕ :=
  ((functionAnalysis.map fun item => (item.filePath, item.qualifiedName)).dedup.filter fun key =>
    decide (key.1 = info.filePath) && startsWith (info.className ++ ".") key.2).length

/-- `_model_summary`. -/
def modelSummary (info : ClassInfo) (layers : List ModelLayer) (steps : List ForwardStep) : String :=
  "`" ++ info.className ++ "` 是位于 `" ++ info.filePath ++ "` 的模型类，识别到 " ++
    toString layers.length ++ " 个初始化层和 " ++ toString steps.length ++ " 个 forward 基础步骤。"

def ModelInput.detection (input : ModelInput) (info : ClassInfo) : ModuleDetection :=
  isNnModuleClass py info (input.aliases info.filePath)
    (((dictBy ParsedFile.filePath input.parsedFiles info.filePath).map ParsedFile.imports).getD [])
    (findClassFunctions info input.functions)

def ModelInput.layers (input : ModelInput) (info : ClassInfo) : List ModelLayer :=
  ((findClassFunctions info input.functions "__init__").map fun function =>
    extractInitLayers py function (input.aliases info.filePath)).getD []

def analyseModel (order : SetOrder String) (input : ModelInput) (info : ClassInfo) :
    ModelAnalysis :=
  let initFunction := findClassFunctions info input.functions "__init__"
  let forwardFunction := findClassFunctions info input.functions "forward"
  let detection := input.detection py info
  let layers := input.layers py info
  let facts := extractForwardSteps py order forwardFunction layers (input.aliases info.filePath)
  let context := functionContext input.functionAnalysis info
  { filePath := info.filePath
    className := info.className
    baseClasses := info.baseClasses
    startLine := info.startLine
    endLine := info.endLine
    isMainModelCandidate := false
    mainModelReason := none
    initFunction := initFunction.isSome
    forwardFunction := forwardFunction.isSome
    modelInputs := facts.inputs
    modelOutputs := facts.outputs
    layers := layers
    forwardSteps := facts.steps
    componentCandidates := detectComponentCandidates py info layers facts.steps input.libraryCalls
    summary := modelSummary info layers facts.steps
    evidence := detection.evidence ++
      (if initFunction.isSome then
        ["识别到 __init__ 函数并提取 " ++ toString layers.length ++ " 个网络层。"] else []) ++
      (if forwardFunction.isSome then
        ["识别到 forward 函数并提取 " ++ toString facts.steps.length ++ " 个基础数据流步骤。"]
      else []) ++
      if context = 0 then [] else ["关联到 " ++ toString context ++ " 个函数级分析结果。"]
    warnings := detection.warnings ++ facts.warnings
    confidence := detection.confidence }

def ModelInput.modelClasses (input : ModelInput) : List ClassInfo :=
  input.classes.filter fun info => (input.detection py info).isModule

/-- `detect_models`. -/
def detectModels (order : SetOrder String) (input : ModelInput) : List ModelAnalysis :=
  markMainModelCandidates py ((input.modelClasses py).map (analyseModel py order input)) fun path =>
    (dictBy FileAnalysis.filePath input.fileAnalysis path).map FileAnalysis.fileType

end CodeResearch.Analysis
