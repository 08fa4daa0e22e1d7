import CodeResearch.Library.Result
import CodeResearch.Llm.Budget

/-!
# The provider routers

`ModelRouter.generate_structured`, `VisionModelRouter.analyze` and
`VisionModelRouter.analyze_structured_image` try their configured providers in turn and retry
each of them. The three share one loop, written out three times in the source. They differ in
their checks, their metadata, their cache and their `except` clauses, which are the fields of
`Router`.
-/

namespace CodeResearch.Llm

variable {P V : Type}

/-- An exception, as the `except` clauses tell exceptions apart. A `ValidationError` is a
`ValueError` too. -/
inductive Exc where
  | validation (message : String)
  | value (message : String)
  | provider (code message : String) (recoverable : Bool)
  | other (message : String)
  deriving DecidableEq

/-- What `_warning` builds. -/
structure Warning where
  code : String
  taskType : String
  contextId : String
  provider : Option String
  attempt : Option ℕ
  message : String
  deriving DecidableEq

/-- `_warning` and `_warning_for_task`. -/
def warning (code taskType contextId : String) (provider : Option String := none)
    (attempt : Option ℕ := none) (message : String := "") : Warning where
  code := code
  taskType := taskType
  contextId := contextId
  provider := provider
  attempt := attempt
  message := if message = "" then code.map fun c => if c = '_' then ' ' else c else message

/-- `ProviderResponse`. -/
structure ProviderResponse (P : Type) where
  data : P
  latencyMs : ℤ
  inputTokens : Option ℤ := none
  outputTokens : Option ℤ := none
  totalTokens : Option ℤ := none

/-- The metadata of a call. `digest` is its `input_hash` or its `image_hash`. -/
structure CallMetadata where
  taskType : String
  status : String
  provider : String
  model : String
  attempts : ℕ
  fallbackUsed : Bool
  latencyMs : Option ℤ := none
  inputTokens : Option ℤ := none
  outputTokens : Option ℤ := none
  totalTokens : Option ℤ := none
  inputTruncated : Bool := false
  digest : String
  cacheHit : Bool
  promptVersion : String
  warningCodes : List String
  deriving DecidableEq

/-- `Field(default=None, ge=0)`. -/
def nonnegative (n : Option ℤ) : Bool := n.all fun n => 0 ≤ n

/-- The constraints of `VisionCallMetadata`. -/
def CallMetadata.visionOk (m : CallMetadata) : Bool :=
  nonnegative m.latencyMs && nonnegative m.inputTokens && nonnegative m.outputTokens &&
    nonnegative m.totalTokens && m.digest.length == 64

/-- The constraints of `LLMCallMetadata`. -/
def CallMetadata.llmOk (m : CallMetadata) : Bool :=
  m.visionOk && 1 ≤ m.promptVersion.length && m.promptVersion.length ≤ 40 &&
    m.warningCodes.length ≤ 20

/-- `RouterResult` and `VisionRouterResult`. -/
structure RouterResult (V : Type) where
  value : Option (V × CallMetadata)
  warnings : List Warning

/-- What an `except` clause does: the warning it adds, and whether it leaves the retries. -/
structure Handling where
  code : String
  message : String := ""
  stop : Bool := false

/-- What the three routers differ in. -/
structure Router (P V : Type) where
  taskType : String
  family : String
  /-- `model_validate` and the checks that follow it in an attempt. -/
  accept : P → Except Exc V
  /-- Those of a cached value. A router without a cache has none. -/
  acceptCached : Option (P → Except Exc V)
  catchesCached : Exc → Bool := fun _ => true
  cachedCodes : List String → List String := id
  metadataOk : CallMetadata → Bool
  handles : Exc → Option Handling
  unconfiguredMessage : String := ""
  cacheReadMessage : String := ""
  cacheWriteMessage : String := ""

/-- What `model_dump` gives. A scalar that is no text stands as its `str`. -/
inductive Dumped where
  | text (s : String)
  | scalar (s : String)
  | list (items : List Dumped)
  | dict (items : List (String × Dumped))

/-- `value.get(key)` of a dumped dict. -/
def Dumped.get (key : String) : Dumped → Option Dumped
  | .dict items => items.lookup key
  | _ => none

section Evidence

variable (str : Dumped → String)

mutual

/-- `_all_evidence_refs`. -/
def allEvidenceRefs : Dumped → List String
  | .dict items => allEvidenceRefsOfItems items
  | .list items => allEvidenceRefsOfList items
  | .text _ | .scalar _ => []

def allEvidenceRefsOfItems : List (String × Dumped) → List String
  | [] => []
  | (key, value) :: items =>
    (match value with
      | .list refs =>
        if key = "evidence_refs" ∨ key = "code_evidence_refs" then refs.map str
        else allEvidenceRefsOfList refs
      | .dict inner => allEvidenceRefsOfItems inner
      | .text _ | .scalar _ => []) ++ allEvidenceRefsOfItems items

def allEvidenceRefsOfList : List Dumped → List String
  | [] => []
  | value :: values => allEvidenceRefs value ++ allEvidenceRefsOfList values

end

/-- `validate_evidence_refs`. -/
def validateEvidenceRefs (refs catalog : List String) : Bool := refs.all fun ref => ref ∈ catalog

end Evidence

/-- The arguments of `generate_structured` that its checks read. `str` is Python's. -/
structure TextCall (P V : Type) where
  taskType : String
  modelValidate : P → Option V
  dump : V → Dumped
  str : Dumped → String
  evidenceCatalog : List String
  identityValidator : Option (V → Except Exc Bool) := none
  resultValidator : Option (V → Except Exc Unit) := none

/-- A `ValidationError` or another `ValueError` is turned into `raises`. -/
def wrapValueError {A : Type} (raises : String → Exc) : Except Exc A → Except Exc A
  | .error (.validation message) | .error (.value message) => .error (raises message)
  | outcome => outcome

/-- `response_model.model_validate`, whose exception is a `ValidationError`. -/
def validated (modelValidate : P → Option V) (data : P) : Except Exc V :=
  orError (.validation "") (modelValidate data)

def runValidator (validator : Option (V → Except Exc Unit)) (value : V) : Except Exc Unit :=
  match validator with
  | none => .ok ()
  | some validator => validator value

namespace TextCall

def checkIdentity (c : TextCall P V) (raises : Exc) (value : V) : Except Exc Unit :=
  match c.identityValidator with
  | none => .ok ()
  | some validator => validator value >>= fun same => ensure (same = true) raises

/-- The checks of `_generate_structured_impl`, with the exceptions they raise. -/
def check (c : TextCall P V) (evidence identity : Exc) (result : Except Exc Unit → Except Exc Unit)
    (data : P) : Except Exc V := do
  let value ← validated c.modelValidate data
  ensure (validateEvidenceRefs (allEvidenceRefs c.str (c.dump value)) c.evidenceCatalog = true)
    evidence
  c.checkIdentity identity value
  result (runValidator c.resultValidator value)
  return value

def accept (c : TextCall P V) : P → Except Exc V :=
  c.check
    (.provider "llm_invalid_evidence_reference" "Model returned an unknown evidence reference." true)
    (.provider "llm_identity_validation_failed" "Model returned an unexpected entity identity." true)
    (wrapValueError fun message => .provider "llm_invalid_code_link" message true)

def acceptCached (c : TextCall P V) : P → Except Exc V :=
  c.check (.value "invalid cached evidence refs") (.value "invalid cached entity identity") id

end TextCall

/-- `ModelRouter._generate_structured_impl`. -/
def ModelRouter.generateStructured (c : TextCall P V) : Router P V where
  taskType := c.taskType
  family := "llm"
  accept := c.accept
  acceptCached := some c.acceptCached
  metadataOk := CallMetadata.llmOk
  handles
    | .validation _ => some { code := "llm_schema_validation_failed" }
    | .provider code message recoverable => some { code, message, stop := !recoverable }
    | .value _ | .other _ => none
  cacheReadMessage := "LLM cache read failed; continuing without cache."
  cacheWriteMessage := "LLM cache write failed; keeping the validated explanation."

/-- What `_validate_value` reads of a `FigureAnalysis`. -/
structure FigureAnalysis where
  figureId : String
  evidenceRefs : List String
  contributionIds : List String

/-- The arguments of `analyze` that its checks read. -/
structure FigureCall (P V : Type) where
  modelValidate : P → Option V
  figure : V → FigureAnalysis
  validEvidence : List String
  validContributions : List String

/-- `_validate_value`. -/
def FigureCall.validateValue (c : FigureCall P V) (contextId : String) (value : V) :
    Except Exc Unit :=
  if (c.figure value).figureId ≠ contextId then
    .error (.value "VLM returned an unexpected figure_id.")
  else if (c.figure value).evidenceRefs.any fun ref => ref ∉ c.validEvidence then
    .error (.value "VLM returned an unknown evidence reference.")
  else if (c.figure value).contributionIds.any fun id => id ∉ c.validContributions then
    .error (.value "VLM returned an unknown contribution candidate.")
  else .ok ()

/-- The checks of `_analyze_impl`, of an attempt and of a cached value. -/
def FigureCall.accept (c : FigureCall P V) (contextId : String) (data : P) : Except Exc V := do
  let value ← validated c.modelValidate data
  c.validateValue contextId value
  return value

/-- The `except` clauses of `_analyze_impl` and `_analyze_structured_image_impl`. -/
def visionHandles : Exc → Option Handling
  | .validation _ => some { code := "vlm_schema_validation_failed" }
  | .value message => some { code := "vlm_evidence_validation_failed", message }
  | .provider code message recoverable => some { code, message, stop := !recoverable }
  | .other _ => some {
      code := "vlm_unexpected_provider_error"
      message := "Unexpected Vision Provider failure; retry or fallback may continue." }

/-- `VisionModelRouter._analyze_impl`. -/
def VisionModelRouter.analyze (c : FigureCall P V) (contextId : String) : Router P V where
  taskType := "paper_figure_analyze"
  family := "vlm"
  accept := c.accept contextId
  acceptCached := some (c.accept contextId)
  catchesCached
    | .validation _ | .value _ => true
    | .provider .. | .other _ => false
  cachedCodes _ := []
  metadataOk := CallMetadata.visionOk
  handles := visionHandles
  cacheReadMessage := "Vision cache read failed; continuing without cache."
  cacheWriteMessage := "Vision cache write failed; keeping the validated analysis result."

/-- The arguments of `analyze_structured_image` that its checks read. -/
structure ImageCall (P V : Type) where
  taskType : String
  modelValidate : P → Option V
  validator : Option (V → Except Exc Unit) := none

/-- The checks of `_analyze_structured_image_impl`. -/
def ImageCall.accept (c : ImageCall P V) (data : P) : Except Exc V := do
  let value ← validated c.modelValidate data
  runValidator c.validator value
  return value

/-- `VisionModelRouter._analyze_structured_image_impl`. Its metadata is a plain dict. -/
def VisionModelRouter.analyzeStructuredImage (c : ImageCall P V) : Router P V where
  taskType := c.taskType
  family := "vlm"
  accept := c.accept
  acceptCached := none
  metadataOk _ := true
  handles := visionHandles
  unconfiguredMessage := "Vision provider is not configured."

/-- The schema, evidence, identity and result checks of `generate_structured`. -/
structure TextCall.Passed (c : TextCall P V) (value : V) : Prop where
  schema : ∃ data, c.modelValidate data = some value
  evidence : ∀ ref ∈ allEvidenceRefs c.str (c.dump value), ref ∈ c.evidenceCatalog
  identity : ∀ validator, c.identityValidator = some validator → validator value = .ok true
  result : ∀ validator, c.resultValidator = some validator → validator value = .ok ()

/-- Those of `analyze`. -/
structure FigureCall.Passed (c : FigureCall P V) (contextId : String) (value : V) : Prop where
  schema : ∃ data, c.modelValidate data = some value
  identity : (c.figure value).figureId = contextId
  evidence : ∀ ref ∈ (c.figure value).evidenceRefs, ref ∈ c.validEvidence
  contributions : ∀ id ∈ (c.figure value).contributionIds, id ∈ c.validContributions

/-- Those of `analyze_structured_image`. -/
structure ImageCall.Passed (c : ImageCall P V) (value : V) : Prop where
  schema : ∃ data, c.modelValidate data = some value
  result : ∀ validator, c.validator = some validator → validator value = .ok ()

/-- A call of one of the routers. -/
inductive Job (P V : Type) where
  | text (c : TextCall P V)
  | figure (c : FigureCall P V)
  | structuredImage (c : ImageCall P V)

def Job.router (contextId : String) : Job P V → Router P V
  | .text c => ModelRouter.generateStructured c
  | .figure c => VisionModelRouter.analyze c contextId
  | .structuredImage c => VisionModelRouter.analyzeStructuredImage c

def Job.Passed (contextId : String) : Job P V → V → Prop
  | .text c => c.Passed
  | .figure c => c.Passed contextId
  | .structuredImage c => c.Passed

variable {data : P} {value : V} {contextId : String}

variable {validator : Option (V → Except Exc Unit)} {job : Job P V} {e : Exc} {c : TextCall P V}

theorem runValidator_ok_iff :
    runValidator validator value = .ok () ↔ ∀ v, validator = some v → v value = .ok () := by
  cases validator <;> simp [runValidator]

theorem TextCall.checkIdentity_ok_iff {raises : Exc} : c.checkIdentity raises value = .ok () ↔
      ∀ v, c.identityValidator = some v → v value = .ok true := by
  unfold checkIdentity
  cases c.identityValidator with
  | none => simp
  | some v => simp [except_bind_eq_ok_iff]

theorem TextCall.passed_of_check {evidence identity : Exc}
    {result : Except Exc Unit → Except Exc Unit} (hresult : ∀ x, result x = .ok () → x = .ok ())
    (h : c.check evidence identity result data = .ok value) : c.Passed value := by
  obtain ⟨v, hvalidated, h⟩ := except_bind_eq_ok_iff.mp h
  obtain ⟨_, hevidence, h⟩ := except_bind_eq_ok_iff.mp h
  obtain ⟨_, hidentity, h⟩ := except_bind_eq_ok_iff.mp h
  obtain ⟨_, hchecked, h⟩ := except_bind_eq_ok_iff.mp h
  cases h
  have hrefs := List.all_eq_true.mp (ensure_eq_ok_iff.mp hevidence)
  exact {
    schema := ⟨data, orError_eq_ok_iff.mp hvalidated⟩
    evidence := fun ref href => of_decide_eq_true (hrefs ref href)
    identity := checkIdentity_ok_iff.mp hidentity
    result := runValidator_ok_iff.mp (hresult _ hchecked) }

theorem FigureCall.passed_of_accept {c : FigureCall P V}
    (h : c.accept contextId data = .ok value) : c.Passed contextId value := by
  obtain ⟨v, hvalidated, h⟩ := except_bind_eq_ok_iff.mp h
  obtain ⟨_, hchecked, h⟩ := except_bind_eq_ok_iff.mp h
  cases h
  unfold validateValue at hchecked
  split_ifs at hchecked with hid hevidence hcontributions
  simp only [List.any_eq_true, decide_eq_true_eq, not_exists, not_and, not_not] at *
  exact ⟨⟨data, orError_eq_ok_iff.mp hvalidated⟩, hid, hevidence, hcontributions⟩

theorem ImageCall.passed_of_accept {c : ImageCall P V} (h : c.accept data = .ok value) :
    c.Passed value := by
  obtain ⟨v, hvalidated, h⟩ := except_bind_eq_ok_iff.mp h
  obtain ⟨_, hchecked, h⟩ := except_bind_eq_ok_iff.mp h
  cases h
  exact ⟨⟨data, orError_eq_ok_iff.mp hvalidated⟩, runValidator_ok_iff.mp hchecked⟩

theorem wrapValueError_ok {A : Type} {raises : String → Exc} {x : Except Exc A} {a : A}
    (h : wrapValueError raises x = .ok a) : x = .ok a := by
  unfold wrapValueError at h
  split at h
  · cases h
  · cases h
  · exact h

theorem Job.passed_of_accept (h : (job.router contextId).accept data = .ok value) :
    job.Passed contextId value := by
  cases job with
  | text c => exact TextCall.passed_of_check (fun _ => wrapValueError_ok) h
  | figure c => exact FigureCall.passed_of_accept h
  | structuredImage c => exact ImageCall.passed_of_accept h

variable {accept : P → Except Exc V}

theorem Job.passed_of_acceptCached (haccept : (job.router contextId).acceptCached = some accept)
    (h : accept data = .ok value) :
    job.Passed contextId value := by
  cases job with
  | text c =>
    cases haccept
    exact TextCall.passed_of_check (fun _ => id) h
  | figure c =>
    cases haccept
    exact FigureCall.passed_of_accept h
  | structuredImage c => cases haccept

/-- A cached value of a wrong shape is never more than a warning. -/
theorem Job.catchesCached_of_raised (haccept : (job.router contextId).acceptCached = some accept)
    (h : accept data = .error e) :
    (job.router contextId).catchesCached e = true := by
  cases job with
  | text c => rfl
  | figure c =>
    cases haccept
    obtain h | ⟨v, _, h⟩ := except_bind_eq_error_iff.mp h
    · exact (orError_eq_error_iff.mp h).2 ▸ rfl
    obtain h | ⟨_, _, h⟩ := except_bind_eq_error_iff.mp h
    · unfold FigureCall.validateValue at h
      split_ifs at h <;> cases h <;> rfl
    · cases h
  | structuredImage c => cases haccept

/-- A `ValidationError` or a `ProviderError`. -/
def Exc.Caught : Exc → Prop
  | .validation _ | .provider .. => True
  | .value _ | .other _ => False

/-- Neither the provider nor the identity validator raises another exception than these two,
and the result validator raises at most a `ValueError` besides. -/
def TextCall.Contained (c : TextCall P V) : Except Exc (ProviderResponse P) → Prop
  | .error e => e.Caught
  | .ok response => ∀ value, c.modelValidate response.data = some value →
    (∀ ref ∈ allEvidenceRefs c.str (c.dump value), ref ∈ c.evidenceCatalog) →
    (∀ validator, c.identityValidator = some validator → ∀ e, validator value = .error e →
      e.Caught) ∧
    ((∀ validator, c.identityValidator = some validator → validator value = .ok true) →
      ∀ validator, c.resultValidator = some validator → ∀ message,
        validator value ≠ .error (.other message))

theorem ModelRouter.handles_isSome :
    ((ModelRouter.generateStructured c).handles e).isSome ↔ e.Caught := by
  cases e <;> simp [generateStructured, Exc.Caught]

theorem visionHandles_isSome (e : Exc) : (visionHandles e).isSome := by
  cases e <;> rfl

theorem forall_error_bind_iff {A B : Type} {C : Exc → Prop} {x : Except Exc A}
    {f : A → Except Exc B} :
    (∀ e, (x >>= f) = .error e → C e) ↔
      (∀ e, x = .error e → C e) ∧ ∀ a, x = .ok a → ∀ e, f a = .error e → C e := by
  cases x <;> simp

theorem TextCall.checkIdentity_caught_iff {raises : Exc} (h : raises.Caught) :
    (∀ e, c.checkIdentity raises value = .error e → e.Caught) ↔
      ∀ v, c.identityValidator = some v → ∀ e, v value = .error e → e.Caught := by
  unfold checkIdentity
  cases c.identityValidator with
  | none => simp
  | some v =>
    rw [forall_error_bind_iff]
    constructor
    · rintro ⟨hv, _⟩ w hw
      cases hw
      exact hv
    · refine fun hv => ⟨hv v rfl, fun same _ e he => ?_⟩
      exact (ensure_eq_error_iff.mp he).2 ▸ h

theorem wrapValueError_caught_iff {code : String} :
    (∀ e, wrapValueError (fun message => .provider code message true)
        (runValidator validator value) = .error e → e.Caught) ↔
      ∀ v, validator = some v → ∀ message, v value ≠ .error (.other message) := by
  cases validator with
  | none => simp [runValidator, wrapValueError]
  | some v =>
    simp only [runValidator, Option.some.injEq, forall_eq']
    cases v value with
    | ok u => simp [wrapValueError]
    | error e => cases e <;> simp [wrapValueError, Exc.Caught]

/-- An attempt of the text router raises nothing but what its `except` clauses handle exactly
when it is contained. -/
theorem TextCall.contained_iff {turn : Except Exc (ProviderResponse P)} : c.Contained turn ↔
      ∀ e, (turn >>= fun response => c.accept response.data) = .error e → e.Caught := by
  cases turn with
  | error e => simp [Contained]
  | ok response =>
    simp only [except_bind_ok, accept, check, forall_error_bind_iff]
    rw [Contained]
    constructor
    · refine fun h => ⟨fun e he => (orError_eq_error_iff.mp he).2 ▸ trivial, fun value hv =>
        ⟨fun e he => (ensure_eq_error_iff.mp he).2 ▸ trivial, fun _ hevidence => ?_⟩⟩
      have hrefs := List.all_eq_true.mp (ensure_eq_ok_iff.mp hevidence)
      obtain ⟨hidentity, hresult⟩ := h value (orError_eq_ok_iff.mp hv)
        fun ref href => of_decide_eq_true (hrefs ref href)
      refine ⟨(checkIdentity_caught_iff (by trivial)).mpr hidentity, fun _ hsame =>
        ⟨wrapValueError_caught_iff.mpr (hresult (checkIdentity_ok_iff.mp hsame)), ?_⟩⟩
      exact fun _ _ e he => nomatch he
    · intro ⟨_, h⟩ value hv hrefs
      have hevidence : validateEvidenceRefs (allEvidenceRefs c.str (c.dump value))
          c.evidenceCatalog = true :=
        List.all_eq_true.mpr fun ref href => decide_eq_true (hrefs ref href)
      obtain ⟨_, h⟩ := h value (orError_eq_ok_iff.mpr hv)
      obtain ⟨hidentity, h⟩ := h () (ensure_eq_ok_iff.mpr hevidence)
      exact ⟨(checkIdentity_caught_iff (by trivial)).mp hidentity, fun hsame =>
        wrapValueError_caught_iff.mp (h () (checkIdentity_ok_iff.mpr hsame)).1⟩

end CodeResearch.Llm
