import CodeResearch.Observability.Attributes

/-!
# Spans on the caller's thread

What `TraceRecorder.start_span` and the methods of a `SpanHandle` do on the thread of the code
that they observe. The queue, the exporter, the clock and the random ids are answers of the
surroundings.
-/
namespace CodeResearch.Observability

/-- `uuid4().hex`. -/
structure Uuid where
  hex : String
  isHex : isHex 32 hex = true

/-- `_span_id`. -/
def Uuid.spanId (u : Uuid) : String := String.ofList (u.hex.toList.take 16)

theorem Uuid.isHex_spanId (u : Uuid) : Observability.isHex 16 u.spanId = true := by
  have h := u.isHex
  simp only [Observability.isHex, Bool.and_eq_true, beq_iff_eq, List.all_eq_true] at h ⊢
  simp only [spanId, String.toList_ofList]
  exact ⟨by rw [List.length_take, h.1]; rfl, fun c hc => h.2 c (List.mem_of_mem_take hc)⟩

/-- `RecordingDecision`. -/
structure RecordingDecision where
  recordMetadata : Bool
  recordDiagnostics : Bool
  exportOtlp : Bool

/-- What the recorder reads of a `TraceContext`. -/
structure TraceContext where
  traceId : String
  spanId : String
  traceType : String
  recordDiagnostics : Bool
  traceId_ok : isHex 32 traceId = true
  spanId_ok : isHex 16 spanId = true

/-- The arguments of `start_span_or_root`. -/
structure SpanArgs where
  operation : String
  traceType : String
  component : String
  parentContext : Option TraceContext := none
  attributes : Attributes := []
  kind : String := "internal"
  requestId : Option String := none
  runId : Option String := none
  taskId : Option String := none
  repoId : Option String := none
  indexVersionId : Option String := none
  callerScopeHash : Option String := none
  traceIdOverride : Option String := none
  remoteParentSpanId : Option String := none
  traceFlags : ℤ := 0
  tracestate : Option String := none
  forceRoot : Bool := false

/-- A `SpanHandle`. One without a context does nothing. -/
structure SpanHandle where
  context : Option TraceContext
  root : Bool := false
  ended : Bool := false
  producerSequence : ℕ := 0

/-- What the queue answers to `put_nowait`, `get_nowait` and the second `put_nowait`. -/
structure QueueTurn where
  full : Bool
  displaced : Option String
  fullAgain : Bool

/-- A duration as JSON, `max(0.0, duration)`, and whether it reaches the slow threshold. -/
structure Duration where
  literal : String
  clamped : String
  slow : Bool

/-- What the caller's thread meets. -/
structure Surroundings where
  recording : Bool
  suppressed : Bool
  decide : String → String → RecordingDecision
  uuid : ℕ → Uuid
  now : ℕ → String
  elapsed : ℕ → Duration
  keyId : Option String
  algorithm : String
  digest : String → Option String
  exporterRaises : ℕ → Bool
  queue : ℕ → QueueTurn

/-- The context variable, the handles, and what was submitted. `leaks` are the exceptions that
the telemetry layer raised to the code that uses it. -/
structure Telemetry where
  ambient : Option TraceContext := none
  handles : List SpanHandle := []
  uuids : ℕ := 0
  clock : ℕ := 0
  submissions : ℕ := 0
  queued : List TelemetryCommand := []
  dropped : List String := []
  storeFailureCount : ℕ := 0
  leaks : List Raised := []

def Tele (α : Type) : Type := Telemetry → Except Raised α × Telemetry

namespace Tele

instance : Monad Tele where
  pure a := fun s => (.ok a, s)
  bind x f := fun s =>
    match x s with
    | (.ok a, t) => f a t
    | (.error e, t) => (.error e, t)

def lift {α : Type} (x : Except Raised α) : Tele α := fun s => (x, s)

end Tele

section Recorder

variable (env : Surroundings)

/-- `uuid4`. -/
def drawUuid : Tele Uuid := fun s => (.ok (env.uuid s.uuids), { s with uuids := s.uuids + 1 })

/-- `TraceRecorder.submit`. What the exporter raises is caught, and so is a full queue. -/
def submit (command : TelemetryCommand) : Tele Unit := fun s =>
  let turn := env.queue s.submissions
  let s := { s with
    submissions := s.submissions + 1
    storeFailureCount :=
      if env.exporterRaises s.submissions then s.storeFailureCount + 1 else s.storeFailureCount }
  let queued := { s with queued := s.queued ++ [command] }
  let dropped := { s with dropped := s.dropped ++ [command.traceId] }
  if !turn.full then (.ok (), queued)
  else if command.commandType = .spanEnd ∨ command.commandType = .traceEnd then
    match turn.displaced with
    | none => (.ok (), dropped)
    | some traceId =>
      if turn.fullAgain then
        (.ok (), { s with dropped := s.dropped ++ [traceId, command.traceId] })
      else (.ok (), { queued with dropped := s.dropped ++ [traceId] })
  else (.ok (), dropped)

def emit (commandId : Uuid) (draft : Draft) : Tele Unit := fun s =>
  match draft.command ("cmd_" ++ commandId.hex) (env.now s.clock) with
  | .ok command => submit env command s
  | .error e => (.error e, s)

def JsonValue.ofOption : Option String → JsonValue
  | none => .null
  | some s => .text s

def takeChars (n : ℕ) (s : String) : String := String.ofList (s.toList.take n)

/-- The object under the key `attributes`. -/
def attributesValue (values : Payload) : JsonValue := .nested (String.ofList (dumpCompact values))

def newHandle (h : SpanHandle) : Tele ℕ := fun s =>
  (.ok s.handles.length, { s with handles := s.handles ++ [h] })

def handleAt (i : ℕ) (s : Telemetry) : SpanHandle := s.handles.getD i { context := none }

def setHandle (i : ℕ) (h : SpanHandle) : Tele Unit := fun s =>
  (.ok (), { s with handles := s.handles.set i h })

/-- The loop that drops attributes from the end of an event, on the reversed attributes. -/
def trimReversed : Payload → Payload
  | [] => []
  | item :: items =>
    if maxEventBytes < utf8Length (dumpDefault (item :: items).reverse) then trimReversed items
    else item :: items

def trim (values : Payload) : Payload := (trimReversed values.reverse).reverse

def eventPayload (eventId : Uuid) (producerSequence : ℕ) (name severity : String)
    (values : Payload) : Payload :=
  [("event_id", .text ("evt_" ++ eventId.hex)), ("producer_sequence", .int producerSequence),
    ("name", .text (takeChars 160 name)), ("severity", .text severity),
    ("attributes", attributesValue values), ("size_bytes", .int (utf8Length (dumpDefault values)))]

def TraceContext.draft (ctx : TraceContext) (commandType : CommandType) (lifecycleSequence : ℕ)
    (payload : Payload) (attributes : Payload := []) : Draft where
  commandType := commandType
  traceId := ctx.traceId
  spanId := some ctx.spanId
  lifecycleSequence := lifecycleSequence
  payload := payload
  attributes := attributes

/-- The event of a handle `h` with a context. -/
def recordEvent (i : ℕ) (h : SpanHandle) (ctx : TraceContext) (name severity : String)
    (attributes : Attributes) : Tele Unit := do
  let sequence := h.producerSequence + 1
  setHandle i { h with producerSequence := sequence }
  let values ← Tele.lift (cleanAttributes attributes)
  let commandId ← drawUuid env
  let eventId ← drawUuid env
  emit env commandId (ctx.draft .spanEvent (max 2 (sequence + 1))
    (eventPayload eventId sequence name severity (trim values)) (trim values))

def withContext (i : ℕ) (record : SpanHandle → TraceContext → Tele Unit) : Tele Unit := fun s =>
  match (handleAt i s).context with
  | none => (.ok (), s)
  | some ctx => record (handleAt i s) ctx s

/-- `SpanHandle.event`. -/
def event (i : ℕ) (name severity : String) (attributes : Attributes) : Tele Unit :=
  withContext i fun h ctx => recordEvent env i h ctx name severity attributes

def linkPayload (linkId : Uuid) (linkedTraceId relation : String) (linkedSpanId : Option String)
    (values : Payload) : Payload :=
  [("link_id", .text ("link_" ++ linkId.hex)), ("linked_trace_id", .text linkedTraceId),
    ("linked_span_id", .ofOption linkedSpanId), ("relation", .text relation),
    ("attributes", attributesValue values)]

/-- `SpanHandle.link`. -/
def link (i : ℕ) (linkedTraceId relation : String) (linkedSpanId : Option String)
    (attributes : Attributes) : Tele Unit :=
  withContext i fun _ ctx => do
    let commandId ← drawUuid env
    let linkId ← drawUuid env
    let values ← Tele.lift (cleanAttributes attributes)
    emit env commandId (ctx.draft .spanLink 1
      (linkPayload linkId linkedTraceId relation linkedSpanId values) values)

/-- The arguments of `SpanHandle.artifact`. -/
structure ArtifactArgs where
  artifactType : String
  artifactId : String
  role : String
  contentHash : Option String := none
  repoId : Option String := none
  indexVersionId : Option String := none

def artifactPayload (refId : Uuid) (a : ArtifactArgs) : Payload :=
  [("ref_id", .text ("ref_" ++ refId.hex)), ("artifact_type", .text a.artifactType),
    ("artifact_id", .text (takeChars 512 a.artifactId)), ("content_hash", .ofOption a.contentHash),
    ("repo_id", .ofOption a.repoId), ("index_version_id", .ofOption a.indexVersionId),
    ("role", .text (takeChars 128 a.role))]

/-- `SpanHandle.artifact`. -/
def artifact (i : ℕ) (a : ArtifactArgs) : Tele Unit :=
  withContext i fun _ ctx => do
    let commandId ← drawUuid env
    let refId ← drawUuid env
    emit env commandId (ctx.draft .artifactRef 1 (artifactPayload refId a))

/-- The validators of the `TraceContext` of a root. -/
structure RootOk (args : SpanArgs) (traceId : String) : Prop where
  traceId : isHex 32 traceId = true
  traceFlags : 0 ≤ args.traceFlags ∧ args.traceFlags ≤ 255
  tracestate : ∀ s ∈ args.tracestate, s.length ≤ 512
  requestId : ∀ s ∈ args.requestId, s.length ≤ 128
  traceType : args.traceType ∈ ["api_request", "analysis", "indexing", "retrieval",
    "research_agent", "alignment", "evaluation"]
  ids : ∀ id ∈ [args.runId, args.taskId, args.repoId, args.indexVersionId, args.callerScopeHash],
    ∀ s ∈ id, s.length ≤ 256

instance (args : SpanArgs) (traceId : String) : Decidable (RootOk args traceId) :=
  decidable_of_iff
    (isHex 32 traceId = true ∧ (0 ≤ args.traceFlags ∧ args.traceFlags ≤ 255) ∧
      (∀ s ∈ args.tracestate, s.length ≤ 512) ∧ (∀ s ∈ args.requestId, s.length ≤ 128) ∧
      args.traceType ∈ ["api_request", "analysis", "indexing", "retrieval", "research_agent",
        "alignment", "evaluation"] ∧
      ∀ id ∈ [args.runId, args.taskId, args.repoId, args.indexVersionId, args.callerScopeHash],
        ∀ s ∈ id, s.length ≤ 256)
    ⟨fun ⟨h₁, h₂, h₃, h₄, h₅, h₆⟩ => ⟨h₁, h₂, h₃, h₄, h₅, h₆⟩,
      fun h => ⟨h.traceId, h.traceFlags, h.tracestate, h.requestId, h.traceType, h.ids⟩⟩

/-- `TraceContext(...)` of a root. -/
def rootContext (args : SpanArgs) (traceId : String) (span : Uuid) (decision : RecordingDecision) :
    Except Raised TraceContext :=
  if h : RootOk args traceId then
    .ok {
      traceId
      spanId := span.spanId
      traceType := args.traceType
      recordDiagnostics := decision.recordDiagnostics
      traceId_ok := h.traceId
      spanId_ok := span.isHex_spanId }
  else .error validationError

def traceStartPayload (args : SpanArgs) (spanId : String) (decision : RecordingDecision)
    (values : Payload) : Payload :=
  [("trace_type", .text args.traceType), ("root_span_id", .text spanId),
    ("request_id", .ofOption args.requestId), ("run_id", .ofOption args.runId),
    ("task_id", .ofOption args.taskId), ("repo_id", .ofOption args.repoId),
    ("index_version_id", .ofOption args.indexVersionId),
    ("caller_scope_hash", .ofOption args.callerScopeHash),
    ("recording_mode",
      .text (if decision.recordDiagnostics then "diagnostic_metadata" else "metadata")),
    ("diagnostic_sampled", .bool decision.recordDiagnostics),
    ("otlp_sampled", .bool decision.exportOtlp),
    ("attribute_registry_version", .text "cra-attributes-v1"),
    ("operation_taxonomy_version", .text "cra-operations-v1"),
    ("hash_key_id", .ofOption env.keyId),
    ("hash_algorithm", .ofOption (env.keyId.bind fun id => if id = "" then none else env.algorithm)),
    ("attributes", attributesValue values)]

def spanStartPayload (args : SpanArgs) (parentSpanId : Option String) (values : Payload) :
    Payload :=
  [("parent_span_id", .ofOption parentSpanId), ("name", .text (takeChars 160 args.operation)),
    ("component", .text args.component), ("kind", .text args.kind),
    ("attributes", attributesValue values)]

/-- `trace_id_override or _trace_id()`. -/
def rootTraceId (args : SpanArgs) : Tele String :=
  match args.traceIdOverride with
  | some id => if id = "" then (·.hex) <$> drawUuid env else pure id
  | none => (·.hex) <$> drawUuid env

/-- The end of `TraceRecorder.start_span`: the `span_start` command and the handle. -/
def openSpan (args : SpanArgs) (ctx : TraceContext) (parentSpanId : Option String)
    (values : Payload) (root : Bool) : Tele ℕ := do
  let commandId ← drawUuid env
  emit env commandId (ctx.draft .spanStart 1 (spanStartPayload args parentSpanId values) values)
  newHandle { context := some ctx, root }

/-- `TraceRecorder.start_span` without a parent. -/
def startRoot (args : SpanArgs) : Tele ℕ := do
  let traceId ← rootTraceId env args
  let decision := env.decide traceId args.traceType
  if !decision.recordMetadata then
    newHandle { context := none }
  else
    let span ← drawUuid env
    let ctx ← Tele.lift (rootContext args traceId span decision)
    let values ← Tele.lift (cleanAttributes args.attributes decision.recordDiagnostics)
    let commandId ← drawUuid env
    emit env commandId {
      commandType := .traceStart, traceId, spanId := none, lifecycleSequence := 1
      payload := traceStartPayload env args span.spanId decision values, attributes := values }
    openSpan env args ctx args.remoteParentSpanId values true

/-- `parent_context.model_copy(update={"span_id": _span_id()})`. -/
def TraceContext.child (ctx : TraceContext) (span : Uuid) : TraceContext :=
  { ctx with spanId := span.spanId, spanId_ok := span.isHex_spanId }

/-- `TraceRecorder.start_span` with a parent. -/
def startChild (args : SpanArgs) (parent : TraceContext) : Tele ℕ := do
  let span ← drawUuid env
  let values ← Tele.lift (cleanAttributes args.attributes parent.recordDiagnostics)
  openSpan env args (parent.child span) (some parent.spanId) values false

/-- The parent that `start_span_or_root` chooses. -/
def SpanArgs.parent (args : SpanArgs) (ambient : Option TraceContext) : Option TraceContext :=
  if args.forceRoot then none else args.parentContext.or ambient

/-- `start_span_or_root`. -/
def startSpanOrRoot (args : SpanArgs) : Tele ℕ := fun s =>
  if env.suppressed || !env.recording then newHandle { context := none } s
  else
    match args.parent s.ambient with
    | none => startRoot env args s
    | some parent => startChild env args parent s

/-- `word in text`. -/
def containsWord (word text : String) : Bool := decide (word.toList <:+: text.toList)

/-- `_template_for_error`. -/
def templateForError : Option String → String
  | none => "operation_failed"
  | some code =>
    if containsWord "timeout" code then "operation_timed_out"
    else if containsWord "cancel" code then "operation_cancelled"
    else if containsWord "store" code || containsWord "database" code then "store_unavailable"
    else if containsWord "validation" code then "validation_failed"
    else "operation_failed"

/-- What an exception's own `__str__` raises. -/
def strError : Raised := ⟨"Exception", some "__str__"⟩

/-- `Redactor.safe_error`, with the three values `None` where there is no error. -/
def safeError (error : Option Raised) (errorCode : Option String) :
    Except Raised (Option String × Option String × Option String) :=
  match error with
  | none => .ok (none, none, none)
  | some e =>
    match e.text with
    | none => .error strError
    | some text =>
      .ok (some (takeChars 256 e.typeName), some (templateForError errorCode), env.digest text)

/-- The arguments of `SpanHandle.end`. -/
structure EndArgs where
  status : String := "ok"
  error : Option Raised := none
  errorCode : Option String := none
  completionStatus : Option String := none
  durationOverride : Option Duration := none

/-- `completion_status or status`. -/
def EndArgs.terminal (a : EndArgs) : String :=
  match a.completionStatus with
  | none | some "" => a.status
  | some status => status

def EndArgs.terminalAttributes (a : EndArgs) : Attributes :=
  ("cra.status", .json (.text a.terminal)) ::
    match a.errorCode with
    | none | some "" => []
    | some code => [("cra.error.code", .json (.text code))]

def EndArgs.traceStatus (a : EndArgs) : String :=
  if a.completionStatus = some "partial" then "partial"
  else if a.status = "ok" then "completed"
  else if a.status = "error" then "failed"
  else if a.status = "cancelled" then "cancelled"
  else if a.status = "abandoned" then "abandoned"
  else "partial"

def spanEndPayload (a : EndArgs) (duration : Duration)
    (safe : Option String × Option String × Option String) : Payload :=
  [("status", .text a.status), ("completion_status", .ofOption a.completionStatus),
    ("duration_ms", .real duration.clamped), ("duration_estimated", .bool false),
    ("error_code", .ofOption a.errorCode), ("exception_type", .ofOption safe.1),
    ("error_message_template", .ofOption safe.2.1), ("error_message_hash", .ofOption safe.2.2)]

def traceEndPayload (a : EndArgs) (duration : Duration) : Payload :=
  [("status", .text a.traceStatus), ("completion_status", .ofOption a.completionStatus),
    ("duration_ms", .real duration.clamped), ("duration_estimated", .bool false),
    ("error_code", .ofOption a.errorCode)]

def markEnded (i : ℕ) : Tele Unit := fun s =>
  setHandle i { handleAt i s with ended := true } s

def endDuration (override : Option Duration) (s : Telemetry) : Duration :=
  override.getD (env.elapsed s.clock)

def readClock (override : Option Duration) : Tele Duration := fun s =>
  (.ok (endDuration env override s), { s with clock := s.clock + 1 })

def rootEvent (root : Bool) (i : ℕ) (name : String) (attributes : Attributes) : Tele Unit :=
  if root then event env i name "info" attributes else pure ()

def emitEnd (h : SpanHandle) (ctx : TraceContext) (a : EndArgs) (duration : Duration) :
    Tele Unit := do
  let safe ← Tele.lift (safeError env a.error a.errorCode)
  let commandId ← drawUuid env
  emit env commandId (ctx.draft .spanEnd 2 (spanEndPayload a duration safe))
  if h.root then
    let commandId ← drawUuid env
    emit env commandId (ctx.draft .traceEnd 2 (traceEndPayload a duration))
  else pure ()

/-- `SpanHandle.end`. -/
def endSpan (i : ℕ) (a : EndArgs) : Tele Unit :=
  withContext i fun h ctx =>
    if h.ended then pure ()
    else do
      rootEvent env h.root i "trace.terminal" a.terminalAttributes
      markEnded i
      let duration ← readClock env a.durationOverride
      rootEvent env (h.root && duration.slow) i "trace.slow"
        [("cra.duration.ms", .json (.real duration.literal))]
      emitEnd env h ctx a duration

/-- `SpanHandle.completed_child`. -/
def completedChild (i : ℕ) (operation component : String) (duration : Duration)
    (attributes : Attributes) : Tele Unit :=
  withContext i fun _ ctx => do
    let child ← startChild env {
      operation, component, attributes, traceType := ctx.traceType, parentContext := ctx } ctx
    endSpan env child { durationOverride := some duration }

end Recorder

end CodeResearch.Observability
