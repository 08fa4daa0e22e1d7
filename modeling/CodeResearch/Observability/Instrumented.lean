import CodeResearch.Observability.Spans

/-!
# Telemetry around the code it observes

Instrumented code runs inside spans and child calls and records events, links and artifacts
on the handles in scope. Its own steps stand as outcomes. The same code without telemetry is
`plain`. The telemetry is transparent exactly when its validators accept what they are given.
Otherwise they raise, on the caller's thread, into that code.
-/
namespace CodeResearch.Observability

variable {α β : Type}

/-- What the code does with a handle. -/
inductive Recording
  | event (name severity : String) (attributes : Attributes)
  | link (linkedTraceId relation : String) (linkedSpanId : Option String) (attributes : Attributes)
  | artifact (a : ArtifactArgs)
  | completedChild (operation component : String) (duration : Duration) (attributes : Attributes)
  | finish (a : EndArgs)

/-- Code under telemetry. `depth` counts the spans from the innermost one. After a block and
after a recording the code goes on with what it returned or raised. -/
inductive Instrumented (α : Type) : Type
  | done (outcome : Except Raised α)
  | record (depth : ℕ) (r : Recording) (next : Option Raised → Instrumented α)
  | span (args : SpanArgs) (body : Instrumented α) (next : Except Raised α → Instrumented α)
  | child (operation component : String) (attributes : Attributes) (body : Instrumented α)
      (next : Except Raised α → Instrumented α)

/-- The code without its telemetry. -/
def Instrumented.plain : Instrumented α → Except Raised α
  | .done outcome => outcome
  | .record _ _ next => (next none).plain
  | .span _ body next => (next body.plain).plain
  | .child _ _ _ body next => (next body.plain).plain

section Run

variable (env : Surroundings)

/-- A call of a method of the handle `i`. -/
def perform (i : ℕ) : Recording → Tele Unit
  | .event name severity attributes => event env i name severity attributes
  | .link linkedTraceId relation linkedSpanId attributes =>
    link env i linkedTraceId relation linkedSpanId attributes
  | .artifact a => artifact env i a
  | .completedChild operation component duration attributes =>
    completedChild env i operation component duration attributes
  | .finish a => endSpan env i a

def Telemetry.leak (s : Telemetry) (e : Raised) : Telemetry := { s with leaks := s.leaks ++ [e] }

def observe (x : Tele Unit) (s : Telemetry) : Option Raised × Telemetry :=
  match x s with
  | (.ok (), t) => (none, t)
  | (.error e, t) => (some e, t.leak e)

/-- `SpanHandle.__enter__`. -/
def Telemetry.enter (s : Telemetry) (context : Option TraceContext) : Telemetry :=
  { s with ambient := context.or s.ambient }

/-- The `finally` of `SpanHandle.__exit__`. A token was kept only for a context. -/
def Telemetry.leave (s : Telemetry) (context outer : Option TraceContext) : Telemetry :=
  { s with ambient := if context.isSome then outer else s.ambient }

/-- The call of `end` in `SpanHandle.__exit__`. -/
def exitArgs : Except Raised α → EndArgs
  | .ok _ => {}
  | .error e => { status := "error", error := some e }

/-- `with start_span_or_root(...) as handle: body`. -/
def block (args : SpanArgs) (body : ℕ → Telemetry → Except Raised α × Telemetry)
    (s : Telemetry) : Except Raised α × Telemetry :=
  match startSpanOrRoot env args s with
  | (.error e, t) => (.error e, t.leak e)
  | (.ok i, t) =>
    let context := (handleAt i t).context
    let (outcome, u) := body i (t.enter context)
    match endSpan env i (exitArgs outcome) u with
    | (.ok (), v) => (outcome, v.leave context t.ambient)
    | (.error e, v) => (.error e, (v.leak e).leave context t.ambient)

/-- The span of `observe_child_call`. -/
def childArgs (operation component : String) (attributes : Attributes) (ctx : TraceContext) :
    SpanArgs where
  operation := operation
  traceType := ctx.traceType
  component := component
  parentContext := some ctx
  attributes := attributes

/-- `observe_child_call`, around a callback. -/
def observeChildCall (operation component : String) (attributes : Attributes)
    (callback : Telemetry → Except Raised α × Telemetry) (s : Telemetry) :
    Except Raised α × Telemetry :=
  match s.ambient with
  | none => callback s
  | some ctx => block env (childArgs operation component attributes ctx) (fun _ => callback) s

/-- The code with its telemetry. `handles` are the handles in scope. -/
def Instrumented.run : List ℕ → Instrumented α → Telemetry → Except Raised α × Telemetry
  | _, .done outcome, s => (outcome, s)
  | handles, .record depth r next, s =>
    match handles[depth]? with
    | none => (next none).run handles s
    | some i =>
      let (raised, t) := observe (perform env i r) s
      (next raised).run handles t
  | handles, .span args body next, s =>
    let (outcome, t) := block env args (fun i => body.run (i :: handles)) s
    (next outcome).run handles t
  | handles, .child operation component attributes body next, s =>
    let (outcome, t) :=
      observeChildCall env operation component attributes (body.run handles) s
    (next outcome).run handles t

def EventOk (i : ℕ) (name severity : String) (attributes : Attributes) (s : Telemetry) : Prop :=
  (handleAt i s).context.isSome → Typed false attributes ∧
    Fits (eventPayload (env.uuid (s.uuids + 1)) ((handleAt i s).producerSequence + 1) name severity
      (trim (kept false attributes)))

def RootEventOk (root : Bool) (i : ℕ) (name : String) (attributes : Attributes) (s : Telemetry) :
    Prop := root = true → EventOk env i name "info" attributes s

def LinkOk (i : ℕ) (linkedTraceId relation : String) (linkedSpanId : Option String)
    (attributes : Attributes) (s : Telemetry) : Prop :=
  (handleAt i s).context.isSome → Typed false attributes ∧
    Fits (linkPayload (env.uuid (s.uuids + 1)) linkedTraceId relation linkedSpanId
      (kept false attributes))

def ArtifactOk (i : ℕ) (a : ArtifactArgs) (s : Telemetry) : Prop :=
  (handleAt i s).context.isSome → Fits (artifactPayload (env.uuid (s.uuids + 1)) a)

def ChildOk (args : SpanArgs) (parent : TraceContext) : Prop :=
  Typed parent.recordDiagnostics args.attributes ∧
    Fits (spanStartPayload args (some parent.spanId) (kept parent.recordDiagnostics args.attributes))

def rootIds (args : SpanArgs) (s : Telemetry) : String × ℕ :=
  match args.traceIdOverride with
  | none | some "" => ((env.uuid s.uuids).hex, s.uuids + 1)
  | some id => (id, s.uuids)

def RootStartOk (args : SpanArgs) (s : Telemetry) : Prop :=
  let (traceId, next) := rootIds env args s
  let decision := env.decide traceId args.traceType
  let values := kept decision.recordDiagnostics args.attributes
  decision.recordMetadata = true →
    RootOk args traceId ∧ Typed decision.recordDiagnostics args.attributes ∧
    Fits (traceStartPayload env args (env.uuid next).spanId decision values) ∧
    Fits (spanStartPayload args args.remoteParentSpanId values)

def StartOk (args : SpanArgs) (s : Telemetry) : Prop :=
  (env.suppressed || !env.recording) = false →
    match args.parent s.ambient with
    | none => RootStartOk env args s
    | some parent => ChildOk args parent

/-- A span that is over already, or whose last events and commands are valid and whose
exception has a text. -/
def EndOk (i : ℕ) (a : EndArgs) (s : Telemetry) : Prop :=
  let h := handleAt i s
  h.context.isSome → h.ended = false →
    let t := (markEnded i (rootEvent env h.root i "trace.terminal" a.terminalAttributes s).2).2
    let duration := endDuration env a.durationOverride t
    RootEventOk env h.root i "trace.terminal" a.terminalAttributes s ∧
    RootEventOk env (h.root && duration.slow) i "trace.slow"
      [("cra.duration.ms", .json (.real duration.literal))]
      (readClock env a.durationOverride t).2 ∧
    ∃ safe, safeError env a.error a.errorCode = .ok safe ∧
      Fits (spanEndPayload a duration safe) ∧
      (h.root = true → Fits (traceEndPayload a duration))

def CompletedOk (i : ℕ) (operation component : String) (duration : Duration)
    (attributes : Attributes) (s : Telemetry) : Prop :=
  ∀ ctx ∈ (handleAt i s).context,
    ChildOk { operation, component, attributes, traceType := ctx.traceType, parentContext := ctx }
      ctx ∧
    Fits (spanEndPayload { durationOverride := some duration } duration (none, none, none))

def RecordingOk (i : ℕ) (s : Telemetry) : Recording → Prop
  | .event name severity attributes => EventOk env i name severity attributes s
  | .link linkedTraceId relation linkedSpanId attributes =>
    LinkOk env i linkedTraceId relation linkedSpanId attributes s
  | .artifact a => ArtifactOk env i a s
  | .completedChild operation component duration attributes =>
    CompletedOk i operation component duration attributes s
  | .finish a => EndOk env i a s

/-- A block whose start, body and exit are accepted. `outcome` is what its body gives. -/
def BlockOk (args : SpanArgs) (body : ℕ → Telemetry → Except Raised α × Telemetry)
    (bodyOk : ℕ → Telemetry → Prop) (outcome : Except Raised α) (s : Telemetry) : Prop :=
  StartOk env args s ∧ ∀ i t, startSpanOrRoot env args s = (.ok i, t) →
    let entered := t.enter (handleAt i t).context
    bodyOk i entered ∧ EndOk env i (exitArgs outcome) (body i entered).2

/-- Every call that the code makes of the telemetry layer is accepted at the state in which it
is made. -/
def Instrumented.Accepted : List ℕ → Instrumented α → Telemetry → Prop
  | _, .done _, _ => True
  | handles, .record depth r next, s =>
    match handles[depth]? with
    | none => (next none).Accepted handles s
    | some i => RecordingOk env i s r ∧ (next none).Accepted handles (perform env i r s).2
  | handles, .span args body next, s =>
    BlockOk env args (fun i => body.run env (i :: handles)) (fun i => body.Accepted (i :: handles))
      body.plain s ∧
    (next body.plain).Accepted handles
      (block env args (fun i => body.run env (i :: handles)) s).2
  | handles, .child operation component attributes body next, s =>
    (match s.ambient with
      | none => body.Accepted handles s
      | some ctx => BlockOk env (childArgs operation component attributes ctx)
          (fun _ => body.run env handles) (fun _ => body.Accepted handles) body.plain s) ∧
    (next body.plain).Accepted handles
      (observeChildCall env operation component attributes (body.run env handles) s).2

end Run

end CodeResearch.Observability
