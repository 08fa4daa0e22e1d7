import CodeResearch.Library.Result
import Mathlib

/-!
# Telemetry commands

A command carries a payload of JSON values. Its handler looks keys up in it and binds the
values to the columns of a statement, and either may raise.
-/
namespace CodeResearch.Observability

/-- The errors that end a transaction. -/
inductive StoreError
  | keyError (key : String)
  | typeError
  | valueError
  | overflowError
  /-- a value that a statement cannot bind -/
  | programmingError
  /-- a foreign key, or a column that takes no `NULL` -/
  | integrityError
  deriving DecidableEq

inductive JsonValue
  | null
  | bool (value : Bool)
  | int (value : ℤ)
  | real (literal : String)
  | text (value : String)
  /-- a list or an object, as its text -/
  | nested (json : String)
  deriving DecidableEq

namespace JsonValue

/-- What a text column holds of a value, or `none` for `NULL`. -/
def bind : JsonValue → Except StoreError (Option String)
  | null => .ok none
  | bool value => .ok (some (if value then "1" else "0"))
  | int value =>
    if -2 ^ 63 ≤ value ∧ value < 2 ^ 63 then .ok (some (toString value))
    else .error .overflowError
  | real literal => .ok (some literal)
  | text value => .ok (some value)
  | nested _ => .error .programmingError

/-- `int(value)` does not raise. -/
def toInt : JsonValue → Except StoreError Unit
  | null | nested _ => .error .typeError
  | bool _ | int _ | real _ => .ok ()
  | text value => ensure value.isInt .valueError

end JsonValue

abbrev Payload := List (String × JsonValue)

namespace Payload

/-- `payload[key]`. -/
def item (payload : Payload) (key : String) : Except StoreError JsonValue :=
  orError (.keyError key) (payload.lookup key)

/-- `payload.get(key, default)`. -/
def get (payload : Payload) (key : String) (default : JsonValue) : JsonValue :=
  (payload.lookup key).getD default

/-- Columns of the values under `keys`, which may be `NULL`. -/
def bindAll (payload : Payload) (keys : List String) : Except StoreError Unit :=
  keys.forM fun key => do
    let _ ← (payload.get key .null).bind

end Payload

inductive CommandType
  | traceStart
  | spanStart
  | spanEvent
  | spanLink
  | artifactRef
  | spanEnd
  | traceEnd
  deriving DecidableEq

structure TelemetryCommand where
  commandId : String
  commandType : CommandType
  traceId : String
  spanId : Option String
  lifecycleSequence : ℕ
  occurredAt : String
  payload : Payload
  /-- `validate_span_identity` -/
  identified : commandType ≠ .traceStart → spanId.isSome
  deriving DecidableEq

theorem identified_of_some {commandType : CommandType} {span : String} :
    commandType ≠ .traceStart → (some span).isSome := fun _ => rfl

/-- The span of a command, which every command but a `trace_start` has. -/
def TelemetryCommand.span (command : TelemetryCommand) : String := command.spanId.getD ""

inductive Completeness
  | complete
  | partly
  | unknown
  deriving DecidableEq

inductive IntegrityFlag
  | missingRootStart
  | missingRootEnd
  | missingSpanStart
  | missingSpanEnd
  | sequenceGap
  | queueDrop
  | storeFailure
  | processCrash
  | orphanSpan
  | exportIncomplete
  deriving DecidableEq

end CodeResearch.Observability
