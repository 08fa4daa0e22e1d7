import CodeResearch.Observability.Schemas

/-!
# Attributes and validated commands

What the caller's thread does to a command before it reaches the queue. Attributes are
redacted and sanitized by the registry, the payload is written as JSON to measure it, and the
pydantic model validates the command. The registry and the model raise.
-/
namespace CodeResearch.Observability

/-- An exception. `text` is what `str` gives of it, or `none` when `str` raises. -/
structure Raised where
  typeName : String
  text : Option String
  deriving DecidableEq

def validationError : Raised := ⟨"ValidationError", some "validation error"⟩

def hexDigitChar (n : ℕ) : Char := (Nat.toDigits 16 n).getLastD '0'

/-- `json.dumps` of a character with `ensure_ascii=False`. -/
def escapeChar (c : Char) : List Char :=
  if c = '"' then ['\\', '"']
  else if c = '\\' then ['\\', '\\']
  else if c = '\n' then ['\\', 'n']
  else if c = '\r' then ['\\', 'r']
  else if c = '\t' then ['\\', 't']
  else if c.toNat = 8 then ['\\', 'b']
  else if c.toNat = 12 then ['\\', 'f']
  else if c.toNat < 32 then
    ['\\', 'u', '0', '0', hexDigitChar (c.toNat / 16), hexDigitChar (c.toNat % 16)]
  else [c]

def dumpText (s : String) : List Char := '"' :: s.toList.flatMap escapeChar ++ ['"']

def JsonValue.dumps : JsonValue → List Char
  | .null => "null".toList
  | .bool true => "true".toList
  | .bool false => "false".toList
  | .int value => (toString value).toList
  | .real literal => literal.toList
  | .text value => dumpText value
  | .nested json => json.toList

def dumpItems (comma colon : List Char) : Payload → List Char
  | [] => []
  | [item] => dumpText item.1 ++ colon ++ item.2.dumps
  | item :: items => dumpText item.1 ++ colon ++ item.2.dumps ++ comma ++ dumpItems comma colon items

def dumpObject (comma colon : List Char) (items : Payload) : List Char :=
  '{' :: dumpItems comma colon items ++ ['}']

def utf8Length (chars : List Char) : ℕ := (chars.map Char.utf8Size).sum

/-- `separators=(",", ":")`. -/
def dumpCompact (items : Payload) : List Char := dumpObject [','] [':'] items

def dumpDefault (items : Payload) : List Char := dumpObject [',', ' '] [':', ' '] items

def foldCase (c : Char) : Char :=
  if c = 'ſ' then 's' else if c = 'K' then 'k' else c.toLower

/-- The alternatives of `_SECRET_PATTERN`. -/
def secretWords : List String :=
  ["apikey", "api_key", "api-key", "authorization", "bearer", "password", "passwd", "secret",
    "cookie", "token", "connectionstring", "connection_string", "connection-string"]

/-- `_SECRET_PATTERN.search`. -/
def secretPattern (s : String) : Bool :=
  secretWords.any fun word => decide (word.toList <:+: s.toList.map foldCase)

/-- A value that a caller passes. A Python object that is no JSON value goes by its type. -/
inductive AttributeValue
  | json (value : JsonValue)
  | object (typeName : String)
  deriving DecidableEq

abbrev Attributes := List (String × AttributeValue)

/-- `isinstance(value, str) and _SECRET_PATTERN.search(value)`. -/
def AttributeValue.secret : AttributeValue → Bool
  | .json (.text value) => secretPattern value
  | _ => false

/-- `Redactor.redact_attributes`. -/
def redactAttributes (attributes : Attributes) : Attributes :=
  attributes.filter fun a => !secretPattern a.1 && !a.2.secret

/-- The value types of the definitions. None is a list of strings. -/
inductive ValueType
  | string
  | integer
  | number
  | boolean
  deriving DecidableEq

structure AttributeDefinition where
  key : String
  valueType : ValueType
  diagnostic : Bool := false
  removed : Bool := false
  deriving DecidableEq

/-- `ATTRIBUTE_DEFINITIONS`. -/
def attributeDefinitions : List AttributeDefinition :=
  [⟨"cra.trace.type", .string, false, false⟩, ⟨"cra.component", .string, false, false⟩,
    ⟨"cra.operation", .string, false, false⟩, ⟨"cra.request.id", .string, false, false⟩,
    ⟨"cra.run.id", .string, false, false⟩, ⟨"cra.task.id", .string, false, false⟩,
    ⟨"cra.repo.id", .string, false, false⟩, ⟨"cra.index.version_id", .string, false, false⟩,
    ⟨"cra.generation.id", .string, false, false⟩, ⟨"cra.profile.hash", .string, false, false⟩,
    ⟨"cra.graph.version", .string, false, false⟩, ⟨"cra.model.profile", .string, false, false⟩,
    ⟨"cra.scorer.profile", .string, false, false⟩, ⟨"cra.status", .string, false, false⟩,
    ⟨"cra.error.code", .string, false, false⟩, ⟨"cra.retry.count", .integer, false, false⟩,
    ⟨"cra.fallback.reason", .string, false, false⟩,
    ⟨"cra.cancel.requested", .boolean, false, false⟩, ⟨"cra.count", .integer, false, false⟩,
    ⟨"cra.candidate.count", .integer, false, false⟩, ⟨"cra.context.count", .integer, false, false⟩,
    ⟨"cra.evidence.count", .integer, false, false⟩, ⟨"cra.latency.phase", .string, false, false⟩,
    ⟨"cra.duration.ms", .number, false, false⟩, ⟨"cra.retrieval.channel", .string, false, false⟩,
    ⟨"cra.retrieval.empty", .boolean, false, false⟩, ⟨"cra.provider.name", .string, false, false⟩,
    ⟨"cra.provider.model", .string, false, false⟩,
    ⟨"cra.provider.revision", .string, false, false⟩,
    ⟨"cra.provider.task_type", .string, false, false⟩,
    ⟨"cra.prompt.version", .string, false, false⟩, ⟨"cra.token.input", .integer, false, false⟩,
    ⟨"cra.token.output", .integer, false, false⟩, ⟨"cra.token.total", .integer, false, false⟩,
    ⟨"cra.cache.hit", .boolean, false, false⟩, ⟨"cra.route", .string, false, false⟩,
    ⟨"cra.tool.name", .string, false, false⟩, ⟨"cra.tool.reused", .boolean, false, false⟩,
    ⟨"cra.checkpoint.operation", .string, false, false⟩,
    ⟨"cra.database.operation", .string, false, false⟩, ⟨"cra.replan.count", .integer, false, false⟩,
    ⟨"cra.alignment.status", .string, false, false⟩,
    ⟨"cra.evaluation.component", .string, false, false⟩,
    ⟨"cra.evaluation.mode", .string, false, false⟩,
    ⟨"cra.evaluation.case_count", .integer, false, false⟩,
    ⟨"cra.dataset.version", .string, false, false⟩, ⟨"cra.subject.id", .string, false, false⟩,
    ⟨"cra.authority.level", .string, false, false⟩, ⟨"cra.http.method", .string, false, false⟩,
    ⟨"cra.http.route", .string, false, false⟩, ⟨"cra.http.status_code", .integer, false, false⟩,
    ⟨"cra.remote_parent.mode", .string, false, false⟩,
    ⟨"cra.telemetry.complete", .boolean, false, false⟩, ⟨"cra.warning.code", .string, true, false⟩]

def attributeDefinition (key : String) : Option AttributeDefinition :=
  attributeDefinitions.find? fun d => d.key = key

/-- `_matches_type`, with the value as JSON. -/
def matchesType : AttributeValue → ValueType → Option JsonValue
  | .json (.text value), .string => some (.text value)
  | .json (.int value), .integer | .json (.int value), .number => some (.int value)
  | .json (.real literal), .number => some (.real literal)
  | .json (.bool value), .boolean => some (.bool value)
  | _, _ => none

/-- What the registry makes of an attribute: left out, kept, or of a wrong type. -/
inductive Sanitized
  | skipped
  | kept (value : JsonValue)
  | mistyped
  deriving DecidableEq

/-- The loop body of `AttributeRegistry.sanitize`. -/
def sanitizeOne (diagnostics : Bool) (key : String) (value : AttributeValue) : Sanitized :=
  match attributeDefinition key with
  | none => .skipped
  | some d =>
    if d.removed then .skipped
    else if d.diagnostic && !diagnostics then .skipped
    else
      match matchesType value d.valueType with
      | none => .mistyped
      | some value => .kept value

/-- `AttributeRegistry.sanitize`. -/
def sanitize (diagnostics : Bool) : Attributes → Except Raised Payload
  | [] => .ok []
  | (key, value) :: attributes =>
    match sanitizeOne diagnostics key value with
    | .skipped => sanitize diagnostics attributes
    | .kept value => (sanitize diagnostics attributes).map ((key, value) :: ·)
    | .mistyped => .error ⟨"AttributeRegistryError", some ("invalid value type for " ++ key)⟩

/-- `TraceRecorder.clean_attributes`. -/
def cleanAttributes (attributes : Attributes) (diagnostics : Bool := false) :
    Except Raised Payload :=
  sanitize diagnostics (redactAttributes attributes)

def Typed (diagnostics : Bool) (attributes : Attributes) : Prop :=
  ∀ a ∈ redactAttributes attributes, sanitizeOne diagnostics a.1 a.2 ≠ .mistyped

def kept (diagnostics : Bool) (attributes : Attributes) : Payload :=
  (redactAttributes attributes).filterMap fun a =>
    match sanitizeOne diagnostics a.1 a.2 with
    | .kept value => some (a.1, value)
    | .skipped | .mistyped => none

variable {attributes : Attributes} {diagnostics : Bool} {item : String × JsonValue}

theorem sanitize_eq (h : ∀ a ∈ attributes, sanitizeOne diagnostics a.1 a.2 ≠ .mistyped) :
    sanitize diagnostics attributes = .ok (attributes.filterMap fun a =>
      match sanitizeOne diagnostics a.1 a.2 with
      | .kept value => some (a.1, value)
      | .skipped | .mistyped => none) := by
  induction attributes with
  | nil => rfl
  | cons a attributes ih =>
    obtain ⟨key, value⟩ := a
    have hrest := ih fun a ha => h a (List.mem_cons_of_mem _ ha)
    cases hone : sanitizeOne diagnostics key value with
    | skipped => simp only [sanitize, hone, hrest, List.filterMap_cons]
    | kept value' => simp only [sanitize, hone, hrest, List.filterMap_cons, Except.map]
    | mistyped => exact absurd hone (h _ List.mem_cons_self)

theorem sanitize_raises {a : String × AttributeValue}
    (ha : a ∈ attributes) (h : sanitizeOne diagnostics a.1 a.2 = .mistyped) :
    ∃ e, sanitize diagnostics attributes = .error e := by
  induction attributes with
  | nil => cases ha
  | cons b attributes ih =>
    obtain ⟨key, value⟩ := b
    rcases List.mem_cons.mp ha with rfl | ha
    · exact ⟨_, by simp only [sanitize, h]; rfl⟩
    · obtain ⟨e, he⟩ := ih ha
      cases hone : sanitizeOne diagnostics key value with
      | skipped => exact ⟨e, by simp only [sanitize, hone, he]⟩
      | kept value' => exact ⟨e, by simp only [sanitize, hone, he, Except.map]⟩
      | mistyped => exact ⟨_, by simp only [sanitize, hone]; rfl⟩

theorem cleanAttributes_of_typed (h : Typed diagnostics attributes) :
    cleanAttributes attributes diagnostics = .ok (kept diagnostics attributes) := sanitize_eq h

theorem typed_of_cleanAttributes {values : Payload}
    (h : cleanAttributes attributes diagnostics = .ok values) : Typed diagnostics attributes := by
  intro a ha hmistyped
  obtain ⟨e, he⟩ := sanitize_raises ha hmistyped
  rw [cleanAttributes, he] at h
  cases h

/-- What is kept has a key of the registry. -/
theorem definition_of_mem_kept (h : item ∈ kept diagnostics attributes) :
    ∃ d ∈ attributeDefinitions, d.key = item.1 := by
  obtain ⟨a, _, hitem⟩ := List.mem_filterMap.mp h
  unfold sanitizeOne at hitem
  cases hd : attributeDefinition a.1 with
  | none =>
    rw [hd] at hitem
    cases hitem
  | some d =>
    have hkey : item.1 = a.1 := by
      split at hitem
      · cases hitem
        rfl
      · cases hitem
      · cases hitem
    refine ⟨d, List.mem_of_find?_eq_some hd, ?_⟩
    rw [hkey]
    unfold attributeDefinition at hd
    simpa using List.find?_some hd

/-- `MAX_COMMAND_PAYLOAD_BYTES`. -/
def maxCommandPayloadBytes : ℕ := 32 * 1024

/-- `MAX_EVENT_BYTES`. -/
def maxEventBytes : ℕ := 8 * 1024

/-- `_FORBIDDEN_CONTENT_KEYS`. -/
def forbiddenContentKeys : List String :=
  ["authorization", "cookie", "secret", "password", "connection_string", "prompt", "query",
    "response", "source_code", "paper_text", "checkpoint_blob", "research_state", "request_body",
    "response_body", "error_message"]

/-- `str.lower` of a character, as far as it can give an ASCII letter. -/
def lowerChar (c : Char) : Char := if c = 'K' then 'k' else c.toLower

/-- `key.lower() in _FORBIDDEN_CONTENT_KEYS`. -/
def contentKey (key : String) : Bool :=
  forbiddenContentKeys.any fun word => word.toList == key.toList.map lowerChar

/-- `^[0-9a-f]{n}$`. -/
def isHex (n : ℕ) (s : String) : Bool :=
  s.toList.length == n && s.toList.all fun c => ('0' ≤ c ∧ c ≤ '9') ∨ ('a' ≤ c ∧ c ≤ 'f')

/-- The arguments of `TelemetryCommand`. `attributes` are the members of the object under the
key `attributes` of the payload. -/
structure Draft where
  commandType : CommandType
  traceId : String
  spanId : Option String
  lifecycleSequence : ℕ
  payload : Payload
  attributes : Payload := []

def Fits (payload : Payload) : Prop := utf8Length (dumpCompact payload) ≤ maxCommandPayloadBytes

instance (payload : Payload) : Decidable (Fits payload) := inferInstanceAs (Decidable (_ ≤ _))

/-- The validators of `TelemetryCommand`. -/
structure Draft.Valid (draft : Draft) : Prop where
  traceId : isHex 32 draft.traceId = true
  spanId : ∀ id ∈ draft.spanId, isHex 16 id = true
  sequence : 1 ≤ draft.lifecycleSequence
  fits : Fits draft.payload
  content : ∀ item ∈ draft.payload ++ draft.attributes, contentKey item.1 = false
  identified : draft.commandType ≠ .traceStart → draft.spanId.isSome

instance (draft : Draft) : Decidable draft.Valid :=
  decidable_of_iff
    (isHex 32 draft.traceId = true ∧ (∀ id ∈ draft.spanId, isHex 16 id = true) ∧
      1 ≤ draft.lifecycleSequence ∧ Fits draft.payload ∧
      (∀ item ∈ draft.payload ++ draft.attributes, contentKey item.1 = false) ∧
      (draft.commandType ≠ .traceStart → draft.spanId.isSome))
    ⟨fun ⟨h₁, h₂, h₃, h₄, h₅, h₆⟩ => ⟨h₁, h₂, h₃, h₄, h₅, h₆⟩,
      fun h => ⟨h.traceId, h.spanId, h.sequence, h.fits, h.content, h.identified⟩⟩

/-- `TelemetryCommand(...)`. -/
def Draft.command (draft : Draft) (commandId occurredAt : String) :
    Except Raised TelemetryCommand :=
  if h : draft.Valid then
    .ok {
      commandId, occurredAt
      commandType := draft.commandType
      traceId := draft.traceId
      spanId := draft.spanId
      lifecycleSequence := draft.lifecycleSequence
      payload := draft.payload
      identified := h.identified }
  else .error validationError

theorem contentKey_of_mem_kept (h : item ∈ kept diagnostics attributes) :
    contentKey item.1 = false := by
  have hall : ∀ d ∈ attributeDefinitions, contentKey d.key = false := by decide +kernel
  obtain ⟨d, hd, hkey⟩ := definition_of_mem_kept h
  exact hkey ▸ hall d hd

end CodeResearch.Observability
