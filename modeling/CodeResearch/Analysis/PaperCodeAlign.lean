import CodeResearch.Analysis.ModelDetect
import CodeResearch.Library.Ranking

/-!
# Aligning paper contributions with code

`tools/paper_code_align_tool.py`: every entity of the code is a target with its terms and
exact names, every contribution of the paper is scored against every target, and the best
five give its status, keywords and evidence. The exact names are a set, listed in the order
of the interpreter.
-/
namespace CodeResearch.Analysis

/-- `GENERIC_TERMS`. -/
def genericTerms : List String :=
  ["architecture", "approach", "deep", "framework", "learning", "method", "model", "module",
    "net", "network", "paper", "proposed", "simple"]

/-- `STRONG_ROLE_TERMS`. -/
def strongRoleTerms : List String :=
  ["attention", "backbone", "classifier", "conv", "conv2d", "decoder", "encoder", "head",
    "linear", "loss", "relu"]

/-- `cls` is the source's `class`. -/
inductive TargetType where
  | file | cls | function | modelModule
deriving DecidableEq

structure PaperCodeTarget where
  targetType : TargetType
  name : String
  filePath : Option String
  qualifiedName : Option String
  lineNo : Option ℕ
  evidence : List String
deriving DecidableEq

structure CodeTargetCandidate where
  target : PaperCodeTarget
  terms : List String
  exactNames : Finset String
  roleTerms : List String
deriving DecidableEq

structure PaperContribution where
  id : String
  title : String
  description : String
  keywords : List String

structure PaperAnalysis where
  paperProvided : Bool
  contributions : List PaperContribution
  moduleNames : List String

inductive AlignmentStatus where
  | matched | unmatched
deriving DecidableEq

structure PaperCodeAlignmentItem where
  contributionId : String
  contributionTitle : String
  status : AlignmentStatus
  matchedTargets : List PaperCodeTarget
  matchedKeywords : List String
  reason : String
  confidence : Confidence
  evidence : List String
deriving DecidableEq

structure UnmatchedContribution where
  contributionId : String
  contributionTitle : String
  reason : String
deriving DecidableEq

structure PaperCodeAlignment where
  paperProvided : Bool
  alignmentItems : List PaperCodeAlignmentItem
  unmatchedContributions : List UnmatchedContribution
  warnings : List String
deriving DecidableEq

/-- The text with spaces for underscores and between a small and a capital letter. -/
def spaceWords : List Char → List Char
  | [] => []
  | [c] => [if c = '_' then ' ' else c]
  | c :: d :: rest =>
    if c = '_' then ' ' :: spaceWords (d :: rest)
    else if c.isLower ∧ d.isUpper then c :: ' ' :: spaceWords (d :: rest)
    else c :: spaceWords (d :: rest)

/-- `re.findall(r"[A-Za-z][A-Za-z0-9+-]*", text)`, with the token begun so far. -/
def tokens : List Char → List Char → List (List Char)
  | [], [] => []
  | token, [] => [token]
  | [], c :: rest => if c.isAlpha then tokens [c] rest else tokens [] rest
  | token, c :: rest =>
    if c.isAlphanum ∨ c = '+' ∨ c = '-' then tokens (token ++ [c]) rest
    else token :: tokens [] rest

/-- `_dedupe`. -/
def dedupe (items : List String) : List String := items.eraseDups

/-- A token in small letters and without a plural `s`, if it is long enough. -/
def normalizeToken (token : List Char) : Option String :=
  let normalized := token.map Char.toLower
  if normalized.length < 3 then none
  else if normalized.getLast? = some 's' ∧ 4 < normalized.length then
    some (String.ofList normalized.dropLast)
  else some (String.ofList normalized)

/-- `_normalize_terms`. -/
def normalizeTerms (text : String) : List String :=
  dedupe ((tokens [] (spaceWords text.toList)).filterMap normalizeToken)

variable (py : Python)

/-- `re.split(r"[./:]", name)` without empty parts. -/
def nameParts (name : String) : List String :=
  ((name.toList.splitOnP fun c => c = '.' ∨ c = '/' ∨ c = ':').map String.ofList).filter (· ≠ "")

/-- `_candidate`. -/
def candidate (targetType : TargetType) (name : String) (filePath qualifiedName : Option String)
    (lineNo : Option ℕ) (text : String) (evidence : List String) : CodeTargetCandidate :=
  let terms := normalizeTerms text
  { target := {
      targetType := targetType
      name := name
      filePath := filePath
      qualifiedName := qualifiedName
      lineNo := lineNo
      evidence := if evidence = [] then ["代码目标：" ++ name] else evidence }
    terms := terms
    exactNames := (py.lower name :: (nameParts name).map py.lower).toFinset
    roleTerms := terms.filter fun term => term ∈ strongRoleTerms ++
      ["activation", "embedding", "normalization", "transformer", "fusion"] }

/-- What `align_paper_to_code` reads of the code. -/
structure CodeIndex where
  pythonFiles : List String
  fileAnalysis : List FileAnalysis
  classes : List ClassInfo
  functions : List FunctionInfo
  functionAnalysis : List FunctionAnalysis
  modelAnalysis : List ModelAnalysis
  libraryCalls : List LibraryCall

def fileTarget (index : CodeIndex) (path : String) : CodeTargetCandidate :=
  let info := dictBy FileAnalysis.filePath index.fileAnalysis path
  let text := " ".intercalate [path, (info.map FileAnalysis.fileType).getD "",
    (info.map FileAnalysis.purpose).getD "",
    " ".intercalate ((info.map FileAnalysis.mainClasses).getD []),
    " ".intercalate ((info.map FileAnalysis.mainFunctions).getD [])]
  candidate py .file path (some path) none none text ["文件路径和文件分析：" ++ path]

def classTarget (info : ClassInfo) : CodeTargetCandidate :=
  let text := " ".intercalate [info.className, info.filePath, " ".intercalate info.baseClasses]
  candidate py .cls info.className (some info.filePath) (some info.className) info.startLine text
    ["类 " ++ info.className ++ " 位于 " ++ info.filePath]

/-- `f"{class_name}.{function_name}" if class_name else function_name`. -/
def qualifiedFunctionName (function : FunctionInfo) : String :=
  match function.className with
  | some name => if name = "" then function.functionName else name ++ "." ++ function.functionName
  | none => function.functionName

def functionTarget (index : CodeIndex) (function : FunctionInfo) : CodeTargetCandidate :=
  let name := qualifiedFunctionName function
  let analysis := functionAnalysisByKey index.functionAnalysis (function.filePath, name)
  let callNames := " ".intercalate
    (((analysis.map FunctionAnalysis.libraryCalls).getD []).map LibraryCall.canonicalName)
  let text := " ".intercalate [name, function.filePath,
    (analysis.map FunctionAnalysis.purpose).getD "",
    ((analysis.bind FunctionAnalysis.modelPosition)).getD "", callNames]
  candidate py .function name (some function.filePath) (some name) function.startLine text
    ["函数 " ++ name ++ " 位于 " ++ function.filePath]

def modelTargets (model : ModelAnalysis) : List CodeTargetCandidate :=
  (model.layers.map fun layer =>
    candidate py .modelModule layer.assignedName (some model.filePath) (some model.className)
      layer.lineNo
      (" ".intercalate [layer.assignedName, layer.layerType, layer.role.name, model.className])
      layer.evidence) ++
  model.componentCandidates.map fun component =>
    candidate py .modelModule component.name (some component.filePath) (some model.className)
      component.lineNo
      (" ".intercalate [component.name, component.role.name, model.className])
      component.evidence

def libraryTarget (call : LibraryCall) : Option CodeTargetCandidate :=
  if call.canonicalName = "" then none
  else some (candidate py .function call.canonicalName (some call.filePath)
    (some call.qualifiedFunctionName) call.lineNo call.canonicalName
    ["库函数调用 " ++ call.canonicalName])

/-- `_build_code_targets`. -/
def buildCodeTargets (index : CodeIndex) : List CodeTargetCandidate :=
  index.pythonFiles.map (fileTarget py index) ++ index.classes.map (classTarget py) ++
    index.functions.map (functionTarget py index) ++
    index.modelAnalysis.flatMap (modelTargets py) ++
    index.libraryCalls.filterMap (libraryTarget py)

/-- `_terms_from_contribution`. -/
def termsFromContribution (contribution : PaperContribution) (moduleNames : List String) :
    List String :=
  normalizeTerms (" ".intercalate [contribution.title, contribution.description,
    " ".intercalate contribution.keywords, " ".intercalate moduleNames])

/-- The text exact names are sought in. -/
def contributionText (contribution : PaperContribution) : String :=
  py.lower (contribution.title ++ " " ++ contribution.description)

def isExactMatch (contribution : PaperContribution) (name : String) : Bool :=
  decide (name ≠ "") && decide (name ∉ genericTerms) &&
    occursIn name (contributionText py contribution)

structure ScoredTarget where
  score : ℕ
  target : CodeTargetCandidate
  keywords : List String
  evidence : List String
  strong : Bool

def matchedTerms (queryTerms : List String) (target : CodeTargetCandidate) : List String :=
  sortedSet (queryTerms.filter fun term => term ∈ target.terms ∧ term ∉ genericTerms)

def roleMatches (queryTerms : List String) (target : CodeTargetCandidate) : List String :=
  sortedSet (queryTerms.filter fun term => term ∈ target.roleTerms ∧ term ∈ strongRoleTerms)

def exactMatches (order : SetOrder String) (contribution : PaperContribution)
    (target : CodeTargetCandidate) : List String :=
  (order.list target.exactNames).filter (isExactMatch py contribution)

/-- `_score_target`. -/
def scoreTarget (order : SetOrder String) (contribution : PaperContribution)
    (queryTerms : List String) (target : CodeTargetCandidate) : ScoredTarget :=
  let terms := matchedTerms queryTerms target
  let exact := exactMatches py order contribution target
  let roles := roleMatches queryTerms target
  let isLoss := decide ("loss" ∈ queryTerms ∧ "loss" ∈ target.terms)
  { score := (if exact = [] then 0 else 5) + terms.length + (if roles = [] then 0 else 3) +
      if isLoss then 2 else 0
    target := target
    keywords := dedupe (terms ++ roles ++ exact)
    evidence :=
      (if exact = [] then []
        else ["论文贡献文本精确包含代码目标名称：" ++ ", ".intercalate (exact.take 3) ++ "。"]) ++
      (if terms = [] then [] else ["关键词重叠：" ++ ", ".intercalate (terms.take 8) ++ "。"]) ++
      (if roles = [] then [] else ["模块角色匹配：" ++ ", ".intercalate roles ++ "。"]) ++
      if isLoss then ["论文贡献和代码目标均命中 loss。"] else []
    strong := exact ≠ [] ∨ roles ≠ [] ∨ isLoss }

/-- `score >= 3 and strong`. -/
def ScoredTarget.isListed (item : ScoredTarget) : Bool := decide (3 ≤ item.score) && item.strong

/-- `_confidence_from_score`. -/
def confidenceFromScore (score : ℕ) (scoredTargets : List ScoredTarget) : Confidence :=
  let evidenceCount := ((scoredTargets.filter ScoredTarget.isListed).map fun item =>
    item.evidence.length).sum
  if 7 ≤ score ∧ 2 ≤ evidenceCount then .high else if 4 ≤ score then .medium else .low

/-- `_dedupe_targets`. -/
def dedupeTargets (targets : List PaperCodeTarget) : List PaperCodeTarget :=
  targets.eraseDupsBy fun a b => decide ((a.targetType, a.name, a.filePath, a.lineNo) =
    (b.targetType, b.name, b.filePath, b.lineNo))

def bestTargets (scored : List ScoredTarget) : List ScoredTarget :=
  (sortedBy (fun item => OrderDual.toDual item.score)
    (scored.filter fun item => decide (0 < item.score))).take 5

def alignmentItem (contribution : PaperContribution) (best : List ScoredTarget) :
    PaperCodeAlignmentItem × Option UnmatchedContribution :=
  let topScore := (best.head?.map ScoredTarget.score).getD 0
  let listed := best.filter ScoredTarget.isListed
  if 3 ≤ topScore ∧ listed ≠ [] then
    let matchedTargets := dedupeTargets (listed.map fun item => item.target.target)
    ({ contributionId := contribution.id
       contributionTitle := contribution.title
       status := .matched
       matchedTargets := matchedTargets
       matchedKeywords := dedupe (listed.flatMap ScoredTarget.keywords)
       reason := "最高启发式匹配分数为 " ++ toString topScore ++ "，匹配到 " ++
         toString matchedTargets.length ++ " 个代码目标。"
       confidence := confidenceFromScore topScore best
       evidence := listed.flatMap ScoredTarget.evidence }, none)
  else
    let reason :=
      if 0 < topScore then "仅存在泛化词或弱关键词重叠，缺少可确认的代码名称、模块角色或库函数证据。"
      else "未找到达到最低阈值的代码目标。"
    ({ contributionId := contribution.id
       contributionTitle := contribution.title
       status := .unmatched
       matchedTargets := []
       matchedKeywords := []
       reason := reason
       confidence := .low
       evidence := ["仅基于论文关键词和代码结构做启发式匹配，当前无可靠对应关系。"] },
      some ⟨contribution.id, contribution.title, reason⟩)

def scoredTargets (order : SetOrder String) (paper : PaperAnalysis) (index : CodeIndex)
    (contribution : PaperContribution) : List ScoredTarget :=
  (buildCodeTargets py index).map
    (scoreTarget py order contribution (termsFromContribution contribution paper.moduleNames))

/-- `align_paper_to_code`. -/
def alignPaperToCode (order : SetOrder String) (paper : PaperAnalysis) (index : CodeIndex) :
    PaperCodeAlignment :=
  if paper.paperProvided then
    let results := paper.contributions.map fun contribution =>
      alignmentItem contribution (bestTargets (scoredTargets py order paper index contribution))
    { paperProvided := true
      alignmentItems := results.map Prod.fst
      unmatchedContributions := results.filterMap Prod.snd
      warnings := [] }
  else
    { paperProvided := false
      alignmentItems := []
      unmatchedContributions := []
      warnings := ["未提供论文 PDF，跳过论文代码对齐。"] }

end CodeResearch.Analysis
