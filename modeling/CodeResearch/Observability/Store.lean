import CodeResearch.Library.Table
import CodeResearch.Observability.Schemas

/-!
# The observability store

A batch of commands is applied in one transaction. A command whose id was seen before is
skipped, and a command that raises rolls the whole batch back: most statements ignore a
conflicting row, but none of them ignores a foreign key.
-/
namespace CodeResearch.Observability

/-- A row of `telemetry_commands`. -/
structure CommandRow where
  commandId : String
  traceId : String
  spanId : Option String
  commandType : CommandType
  deriving DecidableEq

structure TraceRow where
  traceId : String
  traceType : String
  rootSpanId : String
  status : String
  lastCommandId : String
  endedAt : Option String := none
  completeness : Completeness := .unknown
  integrityFlags : Finset IntegrityFlag := ∅
  droppedRecordCount : ℕ := 0
  deriving DecidableEq

structure SpanRow where
  traceId : String
  spanId : String
  parentSpanId : Option String
  name : String
  status : String
  lifecycleVersion : ℕ
  lastCommandId : String
  deriving DecidableEq

def SpanRow.key (row : SpanRow) : String × String := (row.traceId, row.spanId)

/-- A row of `pending_span_terminals`: a `span_end` that came before its `span_start`. -/
structure PendingRow where
  commandId : String
  traceId : String
  spanId : String
  lifecycleSequence : ℕ
  payload : Payload
  deriving DecidableEq

structure EventRow where
  traceId : String
  eventId : String
  spanId : String
  streamSequence : ℕ
  deriving DecidableEq

def EventRow.key (row : EventRow) : String × String := (row.traceId, row.eventId)

/-- A row of `trace_stream_sequences`. -/
structure SequenceRow where
  traceId : String
  nextSequence : ℕ
  deriving DecidableEq

/-- A row of `span_links` or of `trace_artifact_refs`. Its id may be `NULL`. -/
structure AttachmentRow where
  id : Option String
  traceId : String
  spanId : String
  deriving DecidableEq

structure ObservabilityStore where
  telemetryCommands : Table CommandRow.commandId := .empty
  traces : Table TraceRow.traceId := .empty
  spans : Table SpanRow.key := .empty
  pendingSpanTerminals : Table PendingRow.commandId := .empty
  spanEvents : Table EventRow.key := .empty
  traceStreamSequences : Table SequenceRow.traceId := .empty
  spanLinks : List AttachmentRow := []
  traceArtifactRefs : List AttachmentRow := []

def TraceRow.mark (row : TraceRow) (flag : IntegrityFlag) (dropped : ℕ) : TraceRow :=
  { row with
    completeness := .partly
    integrityFlags := insert flag row.integrityFlags
    droppedRecordCount := row.droppedRecordCount + dropped }

namespace ObservabilityStore

variable (s : ObservabilityStore)

/-- `mark_integrity`, and `_mark_integrity_connection` with nothing dropped. -/
def markIntegrity (traceId : String) (flag : IntegrityFlag) (dropped : ℕ) : ObservabilityStore :=
  match s.traces.find? traceId with
  | none => s
  | some row => { s with traces := s.traces.replace (row.mark flag dropped) }

/-- The foreign key on `spans`. -/
def requireSpan (command : TelemetryCommand) : Except StoreError Unit :=
  ensure (s.spans.find? (command.traceId, command.span)).isSome .integrityError

/-- `_trace_start`. -/
def traceStart (command : TelemetryCommand) : Except StoreError ObservabilityStore := do
  let payload := command.payload
  let traceType ← payload.item "trace_type"
  let rootSpanId ← payload.item "root_span_id"
  (payload.get "diagnostic_sampled" (.bool false)).toInt
  (payload.get "otlp_sampled" (.bool false)).toInt
  let traceType ← traceType.bind
  let rootSpanId ← rootSpanId.bind
  payload.bindAll ["request_id", "run_id", "task_id", "repo_id", "index_version_id",
    "caller_scope_hash"]
  let recordingMode ← (payload.get "recording_mode" (.text "metadata")).bind
  let registry ← (payload.get "attribute_registry_version" (.text "cra-attributes-v1")).bind
  let taxonomy ← (payload.get "operation_taxonomy_version" (.text "cra-operations-v1")).bind
  payload.bindAll ["semantic_convention_version", "hash_key_id", "hash_algorithm"]
  match traceType, rootSpanId, recordingMode, registry, taxonomy with
  | some traceType, some rootSpanId, some _, some _, some _ =>
    let row : TraceRow :=
      { traceId := command.traceId, traceType, rootSpanId, status := "running"
        lastCommandId := command.commandId }
    return { s with traces := (s.traces.insert row).getD s.traces }
  | _, _, _, _, _ => return s

/-- `_apply_span_terminal` of a command that ends a span, or of one that waited for it. -/
def applySpanTerminal (traceId spanId commandId : String) (lifecycleSequence : ℕ)
    (payload : Payload) : Except StoreError ObservabilityStore := do
  let status ← payload.item "status"
  (payload.get "duration_estimated" (.bool false)).toInt
  let status ← status.bind
  payload.bindAll ["completion_status", "duration_ms", "error_code", "exception_type",
    "error_message_template", "error_message_hash"]
  match s.spans.find? (traceId, spanId) with
  | none => return s
  | some row =>
    if row.status = "running" ∧ row.lifecycleVersion ≤ lifecycleSequence then
      let status ← orError .integrityError status
      return { s with
        spans := s.spans.replace
          { row with status, lifecycleVersion := lifecycleSequence, lastCommandId := commandId } }
    else if row.lastCommandId ≠ commandId then
      return s.markIntegrity traceId .storeFailure 0
    else return s

/-- The `span_end` of a span that waits with the least lifecycle sequence. -/
def pendingTerminal (traceId spanId : String) : Option PendingRow :=
  (s.pendingSpanTerminals.rows.filter fun row => row.traceId = traceId ∧ row.spanId = spanId).argmin
    PendingRow.lifecycleSequence

/-- The row that `_span_start` inserts. A row that conflicts with another, or that has no
name or component, is ignored before its foreign key is looked at. -/
def insertSpan (command : TelemetryCommand) : Except StoreError ObservabilityStore := do
  let payload := command.payload
  let name ← payload.item "name"
  let component ← payload.item "component"
  payload.bindAll ["parent_span_id"]
  let parentSpanId ← (payload.get "parent_span_id" .null).bind
  let name ← name.bind
  let component ← component.bind
  let kind ← (payload.get "kind" (.text "internal")).bind
  match name, component, kind with
  | some name, some _, some _ =>
    let row : SpanRow :=
      { traceId := command.traceId, spanId := command.span, parentSpanId, name
        status := "running", lifecycleVersion := command.lifecycleSequence
        lastCommandId := command.commandId }
    match s.spans.insert row with
    | none => return s
    | some spans =>
      ensure (s.traces.find? command.traceId).isSome .integrityError
      return { s with spans }
  | _, _, _ => return s

/-- `_span_start`. -/
def spanStart (command : TelemetryCommand) : Except StoreError ObservabilityStore := do
  let s ← s.insertSpan command
  match s.pendingTerminal command.traceId command.span with
  | none => return s
  | some row =>
    let s ← s.applySpanTerminal row.traceId row.spanId row.commandId row.lifecycleSequence
      row.payload
    return { s with
      pendingSpanTerminals := s.pendingSpanTerminals.deleteWhere fun r =>
        r.commandId = row.commandId }

/-- `_span_end`. -/
def spanEnd (command : TelemetryCommand) : Except StoreError ObservabilityStore :=
  if (s.spans.find? (command.traceId, command.span)).isSome then
    s.applySpanTerminal command.traceId command.span command.commandId command.lifecycleSequence
      command.payload
  else
    let row : PendingRow :=
      { commandId := command.commandId, traceId := command.traceId, spanId := command.span
        lifecycleSequence := command.lifecycleSequence, payload := command.payload }
    .ok { s with
      pendingSpanTerminals :=
        (s.pendingSpanTerminals.insert row).getD (s.pendingSpanTerminals.replace row) }

/-- What `_trace_end` finds wrong with the spans and the events of a trace. -/
def endFlags (row : TraceRow) : Finset IntegrityFlag :=
  let spans := s.spans.rows.filter fun r => r.traceId = row.traceId
  let sequences := (s.spanEvents.rows.filter fun r => r.traceId = row.traceId).map
    EventRow.streamSequence
  let running := spans.any fun r => r.status = "running"
  let orphan := spans.any fun child => child.spanId ≠ row.rootSpanId ∧
    ∃ parent ∈ child.parentSpanId, spans.all fun r => r.spanId ≠ parent
  let gap := match sequences.min?, sequences.max? with
    | some least, some greatest => greatest - least + 1 != sequences.length
    | _, _ => false
  (if running then {.missingSpanEnd} else ∅) ∪ (if orphan then {.orphanSpan} else ∅) ∪
    if gap then {.sequenceGap} else ∅

/-- `_trace_end`. -/
def traceEnd (command : TelemetryCommand) : Except StoreError ObservabilityStore :=
  match s.traces.find? command.traceId with
  | none => .ok s
  | some row =>
    if row.status ≠ "running" then .ok s else do
    let flags := row.integrityFlags ∪ s.endFlags row
    let payload := command.payload
    let status ← payload.item "status"
    (payload.get "duration_estimated" (.bool false)).toInt
    let status ← status.bind
    payload.bindAll ["completion_status", "duration_ms", "error_code"]
    let status ← orError .integrityError status
    return { s with
      traces := s.traces.replace
        { row with
          status, lastCommandId := command.commandId, endedAt := some command.occurredAt
          completeness := if flags = ∅ then .complete else .partly
          integrityFlags := flags } }

/-- `_allocate_sequence`. -/
def allocateSequence (traceId : String) : Except StoreError (ObservabilityStore × ℕ) :=
  match s.traceStreamSequences.find? traceId with
  | none => do
    ensure (s.traces.find? traceId).isSome .integrityError
    let sequences := (s.traceStreamSequences.insert ⟨traceId, 2⟩).getD s.traceStreamSequences
    return ({ s with traceStreamSequences := sequences }, 1)
  | some row =>
    let sequences := s.traceStreamSequences.replace ⟨traceId, row.nextSequence + 1⟩
    .ok ({ s with traceStreamSequences := sequences }, row.nextSequence)

/-- `_span_event`. -/
def spanEvent (command : TelemetryCommand) : Except StoreError ObservabilityStore := do
  let payload := command.payload
  let eventId ← (← payload.item "event_id").bind
  if ∃ id ∈ eventId, (s.spanEvents.find? (command.traceId, id)).isSome then return s
  let (s, streamSequence) ← s.allocateSequence command.traceId
  let name ← payload.item "name"
  payload.bindAll ["producer_sequence"]
  let name ← name.bind
  let severity ← (payload.get "severity" (.text "info")).bind
  let size ← (payload.get "size_bytes" (.int 0)).bind
  match eventId, name, severity, size with
  | some eventId, some _, some _, some _ =>
    let row : EventRow :=
      { traceId := command.traceId, eventId, spanId := command.span, streamSequence }
    -- the number is fresh, as `(trace_id, stream_sequence)` has to be
    match s.spanEvents.insert row with
    | none => return s
    | some spanEvents =>
      s.requireSpan command
      return { s with spanEvents }
  | _, _, _, _ => return s

/-- The rows once a link or a reference was inserted, unless its id is taken. -/
def attach (rows : List AttachmentRow) (command : TelemetryCommand) (key : String)
    (required optional : List String) : Except StoreError (List AttachmentRow) := do
  let payload := command.payload
  let id ← payload.item key
  required.forM fun key => do
    let _ ← payload.item key
  let id ← id.bind
  payload.bindAll (required ++ optional)
  if (∃ key ∈ required, payload.get key .null = .null) ∨
      (id.isSome ∧ ∃ row ∈ rows, row.id = id) then
    return rows
  s.requireSpan command
  return rows ++ [⟨id, command.traceId, command.span⟩]

/-- `_span_link`. -/
def spanLink (command : TelemetryCommand) : Except StoreError ObservabilityStore := do
  let spanLinks ← s.attach s.spanLinks command "link_id" ["linked_trace_id", "relation"]
    ["linked_span_id"]
  return { s with spanLinks }

/-- `_artifact_ref`. -/
def artifactRef (command : TelemetryCommand) : Except StoreError ObservabilityStore := do
  let traceArtifactRefs ← s.attach s.traceArtifactRefs command "ref_id"
    ["artifact_type", "artifact_id", "role"] ["content_hash", "repo_id", "index_version_id"]
  return { s with traceArtifactRefs }

/-- `_apply_one`. -/
def applyOne (command : TelemetryCommand) : Except StoreError ObservabilityStore :=
  match command.commandType with
  | .traceStart => s.traceStart command
  | .spanStart => s.spanStart command
  | .spanEvent => s.spanEvent command
  | .spanLink => s.spanLink command
  | .artifactRef => s.artifactRef command
  | .spanEnd => s.spanEnd command
  | .traceEnd => s.traceEnd command

/-- One turn of the loop of `apply_commands`. A command whose id is taken is skipped. -/
def applyCommand (command : TelemetryCommand) : Except StoreError ObservabilityStore := do
  ensure (command.lifecycleSequence < 2 ^ 63) .overflowError
  let row : CommandRow :=
    ⟨command.commandId, command.traceId, command.spanId, command.commandType⟩
  match s.telemetryCommands.insert row with
  | none => return s
  | some telemetryCommands => ObservabilityStore.applyOne { s with telemetryCommands } command

/-- `apply_commands`. The batch is one transaction, which a raising command rolls back. -/
def applyCommands (commands : List TelemetryCommand) : Except StoreError ObservabilityStore :=
  commands.foldlM applyCommand s

def Raises (commands : List TelemetryCommand) : Prop := ∀ t, s.applyCommands commands ≠ .ok t

instance (commands : List TelemetryCommand) : Decidable (s.Raises commands) :=
  match h : s.applyCommands commands with
  | .ok t => .isFalse fun hraises => hraises t h
  | .error _ => .isTrue fun t ht => by rw [h] at ht; cases ht

/-- `delete_before`, which deletes traces that ended with what belongs to them. Which of
them it is up to a cutoff, holds, export jobs and a limit. -/
def deleteTraces (traceIds : List String) : ObservabilityStore :=
  let ended := (s.traces.rows.filter fun row => row.traceId ∈ traceIds ∧ row.endedAt.isSome).map
    TraceRow.traceId
  { s with
    traces := s.traces.deleteWhere fun row => row.traceId ∈ ended
    spans := s.spans.deleteWhere fun row => row.traceId ∈ ended
    spanEvents := s.spanEvents.deleteWhere fun row => row.traceId ∈ ended
    traceStreamSequences := s.traceStreamSequences.deleteWhere fun row => row.traceId ∈ ended
    spanLinks := s.spanLinks.filter fun row => row.traceId ∉ ended
    traceArtifactRefs := s.traceArtifactRefs.filter fun row => row.traceId ∉ ended }

end ObservabilityStore

end CodeResearch.Observability
