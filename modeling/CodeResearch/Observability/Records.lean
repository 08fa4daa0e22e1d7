import CodeResearch.Observability.Traces

/-!
# Whole rows

The store decides which rows a command inserts and updates. Here every row gets the columns
that no handler reads again: the times, the durations and the texts. A span whose end came
first is ended at the time that the clock shows when its start is applied.
-/
namespace CodeResearch.Observability

abbrev Columns := List (String × JsonValue)

/-- The values under `keys`, with their defaults. -/
def Payload.columns (payload : Payload) (keys : List (String × JsonValue)) : Columns :=
  keys.map fun (key, default) => (key, payload.get key default)

def emptyObject : JsonValue := .nested "\x7b\x7d"

structure TraceColumns where
  startedAt : String := ""
  lifecycleVersion : ℕ := 1
  opened : Columns := []
  closed : Columns := []
  spanCount : ℕ := 0
  eventCount : ℕ := 0
  deriving DecidableEq

structure SpanColumns where
  startedAt : String := ""
  opened : Columns := []
  endedAt : Option String := none
  closed : Columns := []
  deriving DecidableEq

structure EventColumns where
  occurredAt : String := ""
  opened : Columns := []
  deriving DecidableEq

/-- The tables with all of their columns. Those of a row that is not there do not count. -/
structure Records where
  store : ObservabilityStore := {}
  traceColumns : String → TraceColumns := fun _ => {}
  spanColumns : String × String → SpanColumns := fun _ => {}
  eventColumns : String × String → EventColumns := fun _ => {}
  linkColumns : List Columns := []
  artifactColumns : List Columns := []

def Inserts {ρ κ : Type*} [DecidableEq κ] {key : ρ → κ} (t u : Table key) (k : κ) : Prop :=
  t.find? k = none ∧ (u.find? k).isSome

instance {ρ κ : Type*} [DecidableEq κ] [DecidableEq ρ] {key : ρ → κ} (t u : Table key) (k : κ) :
    Decidable (Inserts t u k) := inferInstanceAs (Decidable (_ ∧ _))

/-- The update of `_apply_span_terminal` finds its row. -/
def ObservabilityStore.Closes (s : ObservabilityStore) (key : String × String)
    (lifecycleSequence : ℕ) : Prop :=
  ∃ row ∈ s.spans.find? key, row.status = "running" ∧ row.lifecycleVersion ≤ lifecycleSequence

instance (s : ObservabilityStore) (key : String × String) (lifecycleSequence : ℕ) :
    Decidable (s.Closes key lifecycleSequence) := by
  unfold ObservabilityStore.Closes
  infer_instance

namespace Records

variable (r : Records)

/-- The columns that `_trace_start` inserts. -/
def startColumns (command : TelemetryCommand) : TraceColumns where
  startedAt := command.occurredAt
  opened := command.payload.columns
    [("request_id", .null), ("run_id", .null), ("task_id", .null), ("repo_id", .null),
      ("index_version_id", .null), ("caller_scope_hash", .null),
      ("recording_mode", .text "metadata"), ("diagnostic_sampled", .bool false),
      ("otlp_sampled", .bool false), ("attribute_registry_version", .text "cra-attributes-v1"),
      ("operation_taxonomy_version", .text "cra-operations-v1"),
      ("semantic_convention_version", .null), ("hash_key_id", .null), ("hash_algorithm", .null),
      ("attributes", emptyObject)]

/-- `_trace_start`. -/
def traceStart (command : TelemetryCommand) : Except StoreError Records := do
  let store ← r.store.traceStart command
  if Inserts r.store.traces store.traces command.traceId then
    let traceColumns := Function.update r.traceColumns command.traceId (startColumns command)
    return { r with store, traceColumns }
  return { r with store }

/-- `_apply_span_terminal` of a command that occurred at a time. -/
def applySpanTerminal (occurredAt traceId spanId commandId : String) (lifecycleSequence : ℕ)
    (payload : Payload) : Except StoreError Records := do
  let store ← r.store.applySpanTerminal traceId spanId commandId lifecycleSequence payload
  if r.store.Closes (traceId, spanId) lifecycleSequence then
    let columns : SpanColumns :=
      { r.spanColumns (traceId, spanId) with
        endedAt := some occurredAt
        closed := payload.columns
          [("completion_status", .null), ("duration_ms", .null),
            ("duration_estimated", .bool false), ("error_code", .null), ("exception_type", .null),
            ("error_message_template", .null), ("error_message_hash", .null)] }
    return { r with
      store, spanColumns := Function.update r.spanColumns (traceId, spanId) columns }
  return { r with store }

/-- The row that `_span_start` inserts. -/
def insertSpan (command : TelemetryCommand) : Except StoreError Records := do
  let store ← r.store.insertSpan command
  if Inserts r.store.spans store.spans (command.traceId, command.span) then
    let columns : SpanColumns :=
      { startedAt := command.occurredAt
        opened := command.payload.columns
          [("component", .null), ("kind", .text "internal"), ("attributes", emptyObject)] }
    return { r with
      store, spanColumns := Function.update r.spanColumns (command.traceId, command.span) columns }
  return { r with store }

/-- `_span_start`, when the clock shows `now`. -/
def spanStart (now : String) (command : TelemetryCommand) : Except StoreError Records := do
  let r ← r.insertSpan command
  match r.store.pendingTerminal command.traceId command.span with
  | none => return r
  | some row =>
    -- the command is rebuilt, and its `occurred_at` is not the one that waited with it
    let r ← r.applySpanTerminal now row.traceId row.spanId row.commandId row.lifecycleSequence
      row.payload
    let pendingSpanTerminals := r.store.pendingSpanTerminals.deleteWhere fun waiting =>
      waiting.commandId = row.commandId
    return { r with store := { r.store with pendingSpanTerminals } }

/-- `_span_end`. -/
def spanEnd (command : TelemetryCommand) : Except StoreError Records :=
  if (r.store.spans.find? (command.traceId, command.span)).isSome then
    r.applySpanTerminal command.occurredAt command.traceId command.span command.commandId
      command.lifecycleSequence command.payload
  else do
    let store ← r.store.spanEnd command
    return { r with store }

/-- The columns that `_trace_end` updates. -/
def endColumns (command : TelemetryCommand) (columns : TraceColumns) : TraceColumns :=
  { columns with
    lifecycleVersion := command.lifecycleSequence
    closed := command.payload.columns
      [("completion_status", .null), ("duration_ms", .null), ("duration_estimated", .bool false),
        ("error_code", .null)] }

/-- `_trace_end`. -/
def traceEnd (command : TelemetryCommand) : Except StoreError Records := do
  let store ← r.store.traceEnd command
  if ∃ row ∈ r.store.traces.find? command.traceId, row.status = "running" then
    let traceColumns := Function.update r.traceColumns command.traceId
      (endColumns command (r.traceColumns command.traceId))
    return { r with store, traceColumns }
  return { r with store }

/-- `_span_event`. -/
def spanEvent (command : TelemetryCommand) : Except StoreError Records := do
  let store ← r.store.spanEvent command
  let eventId := ((command.payload.get "event_id" .null).bind.toOption.getD none).getD ""
  if Inserts r.store.spanEvents store.spanEvents (command.traceId, eventId) then
    let columns : EventColumns :=
      { occurredAt := command.occurredAt
        opened := command.payload.columns
          [("producer_sequence", .null), ("name", .null), ("severity", .text "info"),
            ("attributes", emptyObject), ("size_bytes", .int 0)] }
    return { r with
      store, eventColumns := Function.update r.eventColumns (command.traceId, eventId) columns }
  return { r with store }

/-- `_span_link`. -/
def spanLink (command : TelemetryCommand) : Except StoreError Records := do
  let store ← r.store.spanLink command
  if store.spanLinks.length = r.store.spanLinks.length then return { r with store }
  let columns := command.payload.columns
    [("linked_trace_id", .null), ("linked_span_id", .null), ("relation", .null),
      ("attributes", emptyObject)]
  return { r with store, linkColumns := r.linkColumns ++ [columns] }

/-- `_artifact_ref`. -/
def artifactRef (command : TelemetryCommand) : Except StoreError Records := do
  let store ← r.store.artifactRef command
  if store.traceArtifactRefs.length = r.store.traceArtifactRefs.length then
    return { r with store }
  let columns := command.payload.columns
    [("artifact_type", .null), ("artifact_id", .null), ("content_hash", .null),
      ("repo_id", .null), ("index_version_id", .null), ("role", .null)]
  return { r with store, artifactColumns := r.artifactColumns ++ [columns] }

/-- `_apply_one`. -/
def applyOne (now : String) (command : TelemetryCommand) : Except StoreError Records :=
  match command.commandType with
  | .traceStart => r.traceStart command
  | .spanStart => r.spanStart now command
  | .spanEvent => r.spanEvent command
  | .spanLink => r.spanLink command
  | .artifactRef => r.artifactRef command
  | .spanEnd => r.spanEnd command
  | .traceEnd => r.traceEnd command

/-- One turn of the loop of `apply_commands`. -/
def applyCommand (now : String) (command : TelemetryCommand) : Except StoreError Records := do
  ensure (command.lifecycleSequence < 2 ^ 63) .overflowError
  let row : CommandRow :=
    ⟨command.commandId, command.traceId, command.spanId, command.commandType⟩
  match r.store.telemetryCommands.insert row with
  | none => return r
  | some telemetryCommands =>
    Records.applyOne { r with store := { r.store with telemetryCommands } } now command

def visit (clock : String → String) (state : Records × List String) (command : TelemetryCommand) :
    Except StoreError (Records × List String) := do
  let r ← state.1.applyCommand (clock command.commandId) command
  if (state.1.store.telemetryCommands.find? command.commandId).isSome then return (r, state.2)
  return (r, command.traceId :: state.2)

def spanCount (traceId : String) : ℕ :=
  (r.store.spans.rows.filter fun row => row.traceId = traceId).length

def eventCount (traceId : String) : ℕ :=
  (r.store.spanEvents.rows.filter fun row => row.traceId = traceId).length

/-- `_refresh_counts` of the traces that a batch has touched. -/
def refreshCounts (traceIds : List String) : Records :=
  { r with
    traceColumns := fun id =>
      if id ∈ traceIds then
        { r.traceColumns id with spanCount := r.spanCount id, eventCount := r.eventCount id }
      else r.traceColumns id }

/-- `apply_commands`, where the clock shows `clock id` when the command `id` is applied. -/
def applyBatch (clock : String → String) (commands : List TelemetryCommand) :
    Except StoreError Records := do
  let (r, traceIds) ← commands.foldlM (visit clock) (r, [])
  return r.refreshCounts traceIds

/-- Batches one after the other. The first that raises ends them. -/
def applyBatches (clock : String → String) (batches : List (List TelemetryCommand)) :
    Except StoreError Records :=
  batches.foldlM (fun r commands => r.applyBatch clock commands) r

def traceRecord (traceId : String) : Option (TraceRow × TraceColumns) :=
  (r.store.traces.find? traceId).map fun row => (row, r.traceColumns traceId)

def spanRecord (key : String × String) : Option (SpanRow × SpanColumns) :=
  (r.store.spans.find? key).map fun row => (row, r.spanColumns key)

def eventRecord (key : String × String) : Option (EventRow × EventColumns) :=
  (r.store.spanEvents.find? key).map fun row => (row, r.eventColumns key)

def linkRecords : List (AttachmentRow × Columns) := r.store.spanLinks.zip r.linkColumns

def artifactRecords : List (AttachmentRow × Columns) :=
  r.store.traceArtifactRefs.zip r.artifactColumns

/-- The same traces, spans, events, links and references, in whichever order. -/
structure SameRows (r t : Records) : Prop where
  traces : r.traceRecord = t.traceRecord
  spans : r.spanRecord = t.spanRecord
  events : r.eventRecord = t.eventRecord
  links : r.linkRecords.Perm t.linkRecords
  artifacts : r.artifactRecords.Perm t.artifactRecords

theorem SameRows.refl : SameRows r r := ⟨rfl, rfl, rfl, .refl _, .refl _⟩

variable {r} {command : TelemetryCommand} {now : String}

def Follows (x : Except StoreError Records) (y : Except StoreError ObservabilityStore) : Prop :=
  x.map Records.store = y

theorem Follows.bind {α : Type} {x : Except StoreError α} {f : α → Except StoreError Records}
    {g : α → Except StoreError ObservabilityStore} (h : ∀ a, Follows (f a) (g a)) :
    Follows (x >>= f) (x >>= g) := by
  cases x with
  | error e => rfl
  | ok a => exact h a

variable {y : Except StoreError ObservabilityStore}

theorem Follows.seq {x : Except StoreError Records} {f : Records → Except StoreError Records}
    {g : ObservabilityStore → Except StoreError ObservabilityStore} (hx : Follows x y)
    (h : ∀ r, Follows (f r) (g r.store)) : Follows (x >>= f) (y >>= g) := by
  subst hx
  cases x with
  | error e => rfl
  | ok a => exact h a

theorem Follows.columns
    {f : ObservabilityStore → Except StoreError Records} (h : ∀ s, Follows (f s) (.ok s)) :
    Follows (y >>= f) y := by
  cases y with
  | error e => rfl
  | ok s => exact h s

theorem applySpanTerminal_follows (occurredAt traceId spanId commandId : String) (sequence : ℕ)
    (payload : Payload) :
    Follows (r.applySpanTerminal occurredAt traceId spanId commandId sequence payload)
      (r.store.applySpanTerminal traceId spanId commandId sequence payload) := by
  refine .columns fun s => ?_
  dsimp only
  split <;> rfl

theorem insertSpan_follows : Follows (r.insertSpan command) (r.store.insertSpan command) := by
  refine .columns fun s => ?_
  dsimp only
  split <;> rfl

theorem spanStart_follows : Follows (r.spanStart now command) (r.store.spanStart command) := by
  refine .seq insertSpan_follows fun r => ?_
  cases r.store.pendingTerminal command.traceId command.span with
  | none => rfl
  | some row =>
    refine .seq (applySpanTerminal_follows ..) fun r => ?_
    rfl

theorem spanEnd_follows : Follows (r.spanEnd command) (r.store.spanEnd command) := by
  unfold spanEnd
  split_ifs with h
  · unfold ObservabilityStore.spanEnd
    rw [if_pos h]
    exact applySpanTerminal_follows ..
  · exact .columns fun s => rfl

theorem applyOne_follows : Follows (r.applyOne now command) (r.store.applyOne command) := by
  unfold applyOne ObservabilityStore.applyOne
  cases command.commandType with
  | spanStart => exact spanStart_follows
  | spanEnd => exact spanEnd_follows
  | traceStart | spanEvent | traceEnd =>
    refine .columns fun s => ?_
    dsimp only
    split <;> rfl
  | spanLink | artifactRef =>
    refine .columns fun s => ?_
    split <;> rfl

theorem applyCommand_follows :
    Follows (r.applyCommand now command) (r.store.applyCommand command) := by
  unfold applyCommand ObservabilityStore.applyCommand
  refine .bind fun _ => ?_
  dsimp only
  cases r.store.telemetryCommands.insert
      ⟨command.commandId, command.traceId, command.spanId, command.commandType⟩ with
  | none => rfl
  | some records => exact applyOne_follows

theorem Follows.ok {x : Except StoreError Records}
    (h : Follows x y) {t : Records} (hx : x = .ok t) : y = .ok t.store := by
  unfold Follows at h
  rw [← h, hx]
  rfl

end Records

end CodeResearch.Observability
