import CodeResearch.Library.Machine
import CodeResearch.Llm.Router
import Mathlib

/-!
# Calls that share a budget

A call of a router is a process. Between two of its steps other calls may use the same
`BudgetManager`. What a provider, the cache or the telemetry around a call does is part of the
label of the step.
-/

namespace CodeResearch.Llm

variable {P V : Type}

/-- What a router reads of a provider. -/
structure Provider where
  name : String
  model : String
  configured : Bool
  maxRetries : Option ℕ := none
  deriving DecidableEq

/-- The router's providers and settings and the arguments of the call. `digest`,
`redactionCount` and `inputTruncated` come from its input. -/
structure Request (P V : Type) where
  job : Job P V
  contextId : String
  providers : List Provider
  maxRetries : ℕ
  promptVersion : String
  digest : String
  redactionCount : ℕ := 0
  inputTruncated : Bool := false

namespace Request

variable (r : Request P V)

def router : Router P V := r.job.router r.contextId

/-- `max_retries` of a provider, or of the settings. -/
def retriesOf (p : Provider) : ℕ := p.maxRetries.getD r.maxRetries

def available : List (Provider × ℕ) := r.providers.zipIdx.filter fun p => p.1.configured

def warn (code : String) (provider : Option String := none) (attempt : Option ℕ := none)
    (message : String := "") : Warning :=
  warning code r.router.taskType r.contextId provider attempt message

/-- The warnings before the first provider. -/
def initialWarnings : List Warning :=
  match r.job with
  | .text _ =>
    (if r.redactionCount = 0 then []
      else [r.warn "llm_input_redacted" none none
        ("Redacted " ++ toString r.redactionCount ++ " sensitive value(s).")]) ++
    if r.inputTruncated then [r.warn "llm_input_truncated"] else []
  | .figure _ | .structuredImage _ => []

def requestLimit : ℕ := (r.available.map fun p => r.retriesOf p.1 + 1).sum

end Request

/-- Where a call is. `rest` holds the configured providers after the one that is tried. -/
inductive Point (V : Type) where
  | opening
  | looking (p : Provider) (index : ℕ) (rest : List (Provider × ℕ))
  | reserving (p : Provider) (index attempt : ℕ) (rest : List (Provider × ℕ))
  | invoking (p : Provider) (index attempt : ℕ) (rest : List (Provider × ℕ)) (reservationId : ℕ)
  | closing (result : RouterResult V)
  | returned (result : RouterResult V)
  | raised (e : Exc)

/-- A call. `reservations` are the ids it was given and `steps` are the steps it took. -/
structure Call (P V : Type) where
  request : Request P V
  point : Point V
  warnings : List Warning
  attempts : ℕ := 0
  reservations : List ℕ := []
  steps : ℕ := 0

/-- What a step of a call meets. -/
inductive Action (P : Type) where
  | opened (raises : Option Exc)
  | looked (answer : Except Exc (Option P))
  | reserve
  | answered (turn : Except Exc (ProviderResponse P)) (stored : Bool)
  | closed (raises : Option Exc)

/-- What a step of a call does to the budget, the ids it settles and the call after it. -/
structure Moved (P V : Type) where
  budget : BudgetManager
  settled : List ℕ := []
  call : Call P V

namespace Call

variable (c : Call P V)

def new (request : Request P V) : Call P V where
  request := request
  point := .opening
  warnings := request.initialWarnings

def warn (w : Warning) : Call P V := { c with warnings := c.warnings ++ [w] }

/-- `return RouterResult(value, warnings)`. -/
def finish (value : Option (V × CallMetadata)) : Call P V :=
  { c with point := .closing ⟨value, c.warnings⟩ }

def proceed : List (Provider × ℕ) → Call P V
  | [] => (c.warn (c.request.warn (c.request.router.family ++ "_all_providers_failed"))).finish none
  | (p, index) :: rest =>
    match c.request.router.acceptCached with
    | none => { c with point := .reserving p index 0 rest }
    | some _ => { c with point := .looking p index rest }

def retry (p : Provider) (index attempt : ℕ) (rest : List (Provider × ℕ)) : Call P V :=
  if attempt < c.request.retriesOf p then
    { c with point := .reserving p index (attempt + 1) rest }
  else c.proceed rest

/-- `start_span_or_root` and the choice of the configured providers. -/
def enter : Call P V :=
  match c.request.available with
  | [] =>
    (c.warn (c.request.warn (c.request.router.family ++ "_provider_unconfigured") none none
      c.request.router.unconfiguredMessage)).finish none
  | todo => c.proceed todo

/-- `_metadata`. -/
def metadata (p : Provider) (index : ℕ) (response : Option (ProviderResponse P))
    (codes : List String) : CallMetadata where
  taskType := c.request.router.taskType
  status := if index = 0 then "success" else "fallback"
  provider := p.name
  model := p.model
  attempts := c.attempts
  fallbackUsed := 0 < index
  latencyMs := response.map ProviderResponse.latencyMs
  inputTokens := response.bind ProviderResponse.inputTokens
  outputTokens := response.bind ProviderResponse.outputTokens
  totalTokens := response.bind ProviderResponse.totalTokens
  inputTruncated := c.request.inputTruncated
  digest := c.request.digest
  cacheHit := response.isNone
  promptVersion := c.request.promptVersion
  warningCodes := codes

def look (b : BudgetManager) (p : Provider) (index : ℕ) (rest : List (Provider × ℕ))
    (answer : Except Exc (Option P)) : Moved P V :=
  let router := c.request.router
  let failed := c.request.warn (router.family ++ "_cache_error") p.name
  let go (c : Call P V) : Call P V := { c with point := .reserving p index 0 rest }
  match answer, router.acceptCached with
  | .error _, _ =>
    ⟨b, [], go (c.warn (c.request.warn (router.family ++ "_cache_error") p.name none
      router.cacheReadMessage))⟩
  | .ok none, _ | .ok (some _), none => ⟨b, [], go c⟩
  | .ok (some cached), some accept =>
    match accept cached with
    | .error e =>
      if router.catchesCached e then ⟨b, [], go (c.warn failed)⟩
      else ⟨b, [], { c with point := .raised e }⟩
    | .ok value =>
      let metadata := c.metadata p index none (router.cachedCodes (c.warnings.map Warning.code))
      -- The hit is recorded before the metadata is validated.
      ⟨b.recordCacheHit, [], if router.metadataOk metadata then c.finish (some (value, metadata))
        else go (c.warn failed)⟩

def reserve (b : BudgetManager) (p : Provider) (index attempt : ℕ)
    (rest : List (Provider × ℕ)) : Moved P V :=
  let c := { c with attempts := c.attempts + 1 }
  let router := c.request.router
  let (b', reservation) := b.tryReserveProviderRequest p.name router.taskType c.request.contextId
    (0 < attempt) (0 < index && attempt = 0)
  match reservation.allowed, reservation.reservationId with
  | true, some id =>
    ⟨b', [], { c with
      point := .invoking p index attempt rest id
      reservations := c.reservations ++ [id] }⟩
  | _, _ =>
    ⟨b', [], (c.warn (c.request.warn (router.family ++ "_provider_request_budget_exceeded")
      p.name)).finish none⟩

def deliver (p : Provider) (value : V) (metadata : CallMetadata) (stored : Bool) : Call P V :=
  let code := c.request.router.family ++ "_cache_error"
  if c.request.router.acceptCached.isNone || stored then c.finish (some (value, metadata))
  else
    (c.warn (c.request.warn code p.name none c.request.router.cacheWriteMessage)).finish
      (some (value, { metadata with warningCodes := metadata.warningCodes ++ [code] }))

/-- An `except` clause of an attempt. -/
def fail (p : Provider) (index attempt : ℕ) (rest : List (Provider × ℕ)) (h : Handling) :
    Call P V :=
  let c := c.warn (c.request.warn h.code p.name (some (attempt + 1)) h.message)
  if h.stop then c.proceed rest else c.retry p index attempt rest

def answer (b : BudgetManager) (p : Provider) (index attempt : ℕ) (rest : List (Provider × ℕ))
    (id : ℕ) (turn : Except Exc (ProviderResponse P)) (stored : Bool) : Moved P V :=
  let router := c.request.router
  match turn >>= fun response => (router.accept response.data).map fun value => (value, response) with
  | .ok (value, response) =>
    let b := b.recordRequestResult (some id) "success"
    let metadata := c.metadata p index (some response) (c.warnings.map Warning.code)
    if router.metadataOk metadata then ⟨b, [id], c.deliver p value metadata stored⟩
    else
      -- The `ValidationError` of the metadata: the reservation has its result already.
      match router.handles (.validation "") with
      | some h => ⟨b.recordRequestResult (some id) "failed", [id], c.fail p index attempt rest h⟩
      | none => ⟨b, [id], { c with point := .raised (.validation "") }⟩
  | .error e =>
    match router.handles e with
    | some h => ⟨b.recordRequestResult (some id) "failed", [id], c.fail p index attempt rest h⟩
    | none => ⟨b, [], { c with point := .raised e }⟩

def stepped (c' : Call P V) : Call P V := { c' with steps := c.steps + 1 }

/-- One step of a call. -/
def act (b : BudgetManager) : Action P → Option (Moved P V)
  | .opened raises =>
    match c.point, raises with
    | .opening, none => some ⟨b, [], c.enter⟩
    | .opening, some e => some ⟨b, [], { c with point := .raised e }⟩
    | _, _ => none
  | .looked answer =>
    match c.point with
    | .looking p index rest => some (c.look b p index rest answer)
    | _ => none
  | .reserve =>
    match c.point with
    | .reserving p index attempt rest => some (c.reserve b p index attempt rest)
    | _ => none
  | .answered turn stored =>
    match c.point with
    | .invoking p index attempt rest id => some (c.answer b p index attempt rest id turn stored)
    | _ => none
  | .closed raises =>
    match c.point, raises with
    | .closing result, none => some ⟨b, [], { c with point := .returned result }⟩
    | .closing _, some e => some ⟨b, [], { c with point := .raised e }⟩
    | _, _ => none

end Call

/-- The shared budget and the calls. `settled` are the ids that got a result. -/
structure Routing (P V : Type) where
  budget : BudgetManager
  calls : List (Call P V) := []
  settled : List ℕ := []

inductive RoutingLabel (P V : Type) where
  | start (request : Request P V)
  | act (i : ℕ) (action : Action P)

namespace Routing

def step (s : Routing P V) : RoutingLabel P V → Option (Routing P V)
  | .start request => some { s with calls := s.calls ++ [.new request] }
  | .act i action =>
    s.calls[i]?.bind fun c => (c.act s.budget action).map fun m =>
      { budget := m.budget
        calls := s.calls.set i (c.stepped m.call)
        settled := s.settled ++ m.settled }

end Routing

def routing : Machine (Routing P V) (RoutingLabel P V) := ⟨Routing.step⟩

/-- A new `BudgetManager`, before the first call. -/
def newRouting (maxProviderRequests : ℕ) : Routing P V where
  budget := { maxProviderRequests }

section Entities

variable (str : Dumped → String)

/-- `str(value.get(key))`. -/
def strGet (key : String) (value : Dumped) : String :=
  match value.get key with
  | none => "None"
  | some (.text s) => s
  | some other => str other

/-- `_identity_matches`. -/
def identityMatches (taskType contextId : String) (value : Dumped) : Bool :=
  let isText (key : String) : Bool :=
    match value.get key with
    | some (.text s) => s == contextId
    | _ => false
  if taskType = "file_explain" then isText "file_path"
  else if taskType = "function_explain" then
    strGet str "file_path" value ++ ":" ++ strGet str "qualified_name" value == contextId
  else if taskType = "model_explain" then
    strGet str "file_path" value ++ ":" ++ strGet str "class_name" value == contextId
  else if taskType = "paper_code_align" then isText "contribution_id"
  else false

/-- What a finished call hands to its thread. -/
def Point.outcome : Point V → Option (Except Exc (RouterResult V))
  | .returned result => some (.ok result)
  | .raised e => some (.error e)
  | _ => none

/-- `list(executor.map(execute, jobs))` after the executor has waited for the calls: their
results in the order of the jobs, or the exception of the first of them that raised. -/
def executorMap : List (Call P V) → Except Exc (List (String × RouterResult V))
  | [] => .ok []
  | c :: calls =>
    match c.point.outcome with
    | some (.ok result) => (executorMap calls).map ((c.request.contextId, result) :: ·)
    | some (.error e) => .error e
    | none => .error (.other "not finished")

/-- The loop over the results in `run_selected_entities`: the explanations and the warnings. -/
def collectResults (taskType : String) (dump : V → Dumped) :
    List (String × RouterResult V) → List (V × CallMetadata) × List Warning
  | [] => ([], [])
  | (contextId, result) :: results =>
    let (explanations, warnings) := collectResults taskType dump results
    match result.value with
    | none => (explanations, result.warnings ++ warnings)
    | some (value, metadata) =>
      if identityMatches str taskType contextId (dump value) then
        ((value, metadata) :: explanations, result.warnings ++ warnings)
      else
        (explanations, result.warnings ++ warning "llm_schema_validation_failed" taskType contextId
          metadata.provider none "LLM result identity does not match the requested entity." ::
          warnings)

end Entities

end CodeResearch.Llm
