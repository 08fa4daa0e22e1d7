import CodeResearch.Library.Machine
import CodeResearch.Observability.Store

/-!
# The recorder

Business threads submit commands to a bounded queue, where the end of a span or of a trace
displaces the oldest command. A writer thread cuts the queue into batches, tries each of
them three times, and then writes the losses that were noted in memory. Both kinds of
threads may stop between any two operations on what they share.
-/
namespace CodeResearch.Observability

/-- What `_dropped` and `_integrity_flags` hold of a trace. -/
structure NoteRow where
  traceId : String
  dropped : ℕ
  flags : Finset IntegrityFlag
  deriving DecidableEq

/-- A call of `mark_integrity` that `_drain_integrity` has yet to make. -/
structure IntegrityMark where
  traceId : String
  flag : IntegrityFlag
  dropped : ℕ
  deriving DecidableEq

abbrev Notes := Table NoteRow.traceId

/-- `_record_drop`. -/
def Notes.recordDrop (notes : Notes) (traceId : String) (flag : IntegrityFlag) : Notes :=
  notes.upsert ⟨traceId, 1, {flag}⟩
    (fun note => { note with dropped := note.dropped + 1, flags := insert flag note.flags })
    fun _ => rfl

/-- `sorted(trace_flags)` of the two flags that are noted. -/
def NoteRow.sortedFlags (note : NoteRow) : List IntegrityFlag :=
  [.queueDrop, .storeFailure].filter fun flag => flag ∈ note.flags

/-- The marks of a trace. Its count goes with the flag `queue_drop`. -/
def NoteRow.marks (note : NoteRow) : List IntegrityMark :=
  note.sortedFlags.map fun flag =>
    ⟨note.traceId, flag, if flag = .queueDrop then note.dropped else 0⟩

def Notes.marks (notes : Notes) : List IntegrityMark := notes.rows.flatMap NoteRow.marks

/-- A call of `submit` that found the queue full. -/
inductive Submission
  /-- before it takes a command from the queue -/
  | displacing (command : TelemetryCommand)
  /-- before it notes the command that it took -/
  | noting (displaced command : TelemetryCommand)
  /-- before it puts its own command again -/
  | putting (command : TelemetryCommand)
  /-- before it notes its own command -/
  | dropping (command : TelemetryCommand)
  deriving DecidableEq

/-- Where the loop of the writer stands. -/
inductive Writer
  | collecting (batch : List TelemetryCommand)
  /-- before an attempt at a batch; each attempt so far failed on `failing` alone as well -/
  | writing (batch failing : List TelemetryCommand) (attempt : ℕ)
  /-- before `_drain_integrity` -/
  | swapping
  | marking (mark : IntegrityMark) (marks : List IntegrityMark)
  deriving DecidableEq

def Writer.next : List IntegrityMark → Writer
  | [] => .collecting []
  | mark :: marks => .marking mark marks

structure RecorderConfig where
  queueSize : ℕ
  batchSize : ℕ

def RecorderConfig.maxsize (config : RecorderConfig) : ℕ := max 32 config.queueSize

def RecorderConfig.batchLimit (config : RecorderConfig) : ℕ := max 1 config.batchSize

structure Recorder where
  store : ObservabilityStore := {}
  queue : List TelemetryCommand := []
  notes : Notes := .empty
  submissions : List Submission := []
  writer : Writer := .collecting []
  /-- the commands whose calls of `submit` queued or dropped them, in this order -/
  submitted : List TelemetryCommand := []
  /-- the commands of the batches that were committed -/
  applied : List TelemetryCommand := []
  /-- the commands that were noted as lost -/
  lost : List (TelemetryCommand × IntegrityFlag) := []
  /-- the commands whose own writes kept failing -/
  failed : List TelemetryCommand := []
  /-- the traces whose losses were handed to `mark_integrity` -/
  drained : List String := []

inductive RecorderLabel
  | submit (command : TelemetryCommand)
  /-- a call of `submit` goes on -/
  | proceed (k : ℕ)
  /-- the writer takes a command from the queue -/
  | take
  /-- the writer finds the queue empty or its batch full -/
  | close
  /-- an attempt at a batch; the database may fail it -/
  | attempt (fails : Bool)
  | swap
  /-- a call of `mark_integrity`, which may raise -/
  | mark (raises : Bool)
  /-- `delete_before` -/
  | retain (traceIds : List String)

namespace Recorder

variable (config : RecorderConfig) (s : Recorder)

/-- `_record_drop`, of a command. -/
def drop (command : TelemetryCommand) (flag : IntegrityFlag) : Recorder :=
  { s with
    notes := s.notes.recordDrop command.traceId flag
    lost := s.lost ++ [(command, flag)] }

/-- `put_nowait`, or `next` when the queue is full. -/
def put (command : TelemetryCommand) (next : Submission) : Recorder :=
  if s.queue.length < config.maxsize then
    { s with queue := s.queue ++ [command], submitted := s.submitted ++ [command] }
  else { s with submissions := next :: s.submissions }

def submit (command : TelemetryCommand) : Recorder :=
  s.put config command <|
    if command.commandType = .spanEnd ∨ command.commandType = .traceEnd then .displacing command
    else .dropping command

/-- The next operation of a call of `submit`, on the recorder without the call. -/
def proceed : Submission → Recorder
  | .displacing command =>
    match s.queue with
    | [] => { s with submissions := .dropping command :: s.submissions }
    | displaced :: queue =>
      { s with queue, submissions := .noting displaced command :: s.submissions }
  | .noting displaced command =>
    { s.drop displaced .queueDrop with submissions := .putting command :: s.submissions }
  | .putting command => s.put config command (.dropping command)
  | .dropping command =>
    { s.drop command .queueDrop with submitted := s.submitted ++ [command] }

def fail (batch failing : List TelemetryCommand) (attempt : ℕ) : Recorder :=
  if attempt + 1 < 3 then { s with writer := .writing batch failing (attempt + 1) }
  else
    { batch.foldl (fun s command => s.drop command .storeFailure) s with
      writer := .swapping, failed := s.failed ++ failing }

def attempt (batch failing : List TelemetryCommand) (attempt : ℕ) (fails : Bool) : Recorder :=
  if fails then s.fail batch failing attempt
  else match s.store.applyCommands batch with
    | .ok store => { s with store, writer := .swapping, applied := s.applied ++ batch }
    | .error _ => s.fail batch (failing.filter fun command => s.store.Raises [command]) attempt

/-- `_drain_integrity` takes what was noted. -/
def swap : Recorder :=
  { s with
    notes := .empty, writer := .next s.notes.marks
    drained := s.drained ++ s.notes.rows.map NoteRow.traceId }

/-- A call of `mark_integrity`. One that raises skips the other flags of its trace. -/
def mark (mark : IntegrityMark) (marks : List IntegrityMark) (raises : Bool) : Recorder :=
  if raises then
    { s with writer := .next (marks.filter fun m => m.traceId ≠ mark.traceId) }
  else
    { s with
      store := s.store.markIntegrity mark.traceId mark.flag mark.dropped
      writer := .next marks }

def step : RecorderLabel → Option Recorder
  | .submit command => some (s.submit config command)
  | .proceed k => s.submissions[k]?.map fun submission =>
    { s with submissions := s.submissions.eraseIdx k }.proceed config submission
  | .take => match s.writer, s.queue with
    | .collecting batch, command :: queue =>
      if batch.length < config.batchLimit then
        some { s with queue, writer := .collecting (batch ++ [command]) }
      else none
    | _, _ => none
  | .close => match s.writer with
    | .collecting [] => if s.queue = [] then some { s with writer := .swapping } else none
    | .collecting batch =>
      if s.queue = [] ∨ config.batchLimit ≤ batch.length then
        some { s with writer := .writing batch batch 0 }
      else none
    | _ => none
  | .attempt fails => match s.writer with
    | .writing batch failing attempt => some (s.attempt batch failing attempt fails)
    | _ => none
  | .swap => match s.writer with
    | .swapping => some s.swap
    | _ => none
  | .mark raises => match s.writer with
    | .marking mark marks => some (s.mark mark marks raises)
    | _ => none
  | .retain traceIds => match s.writer with
    | .collecting [] => some { s with store := s.store.deleteTraces traceIds }
    | _ => none

def machine : Machine Recorder RecorderLabel := ⟨step config⟩

/-- What a step can do. -/
inductive Moves : RecorderLabel → Recorder → Prop
  | submit (command : TelemetryCommand) : Moves (.submit command) (s.submit config command)
  | proceed {k submission} (held : s.submissions[k]? = some submission) : Moves (.proceed k)
      ({ s with submissions := s.submissions.eraseIdx k }.proceed config submission)
  | take {batch command queue} (writer : s.writer = .collecting batch)
      (waits : s.queue = command :: queue) (room : batch.length < config.batchLimit) :
      Moves .take { s with queue, writer := .collecting (batch ++ [command]) }
  | idle (writer : s.writer = .collecting []) (empty : s.queue = []) :
      Moves .close { s with writer := .swapping }
  | close {batch} (writer : s.writer = .collecting batch)
      (full : s.queue = [] ∨ config.batchLimit ≤ batch.length) :
      Moves .close { s with writer := .writing batch batch 0 }
  | attempt {batch failing k} (writer : s.writer = .writing batch failing k)
      (fails : Bool) : Moves (.attempt fails) (s.attempt batch failing k fails)
  | swap (writer : s.writer = .swapping) : Moves .swap s.swap
  | mark {mark marks} (writer : s.writer = .marking mark marks) (raises : Bool) :
      Moves (.mark raises) (s.mark mark marks raises)
  | retain (writer : s.writer = .collecting []) (traceIds : List String) :
      Moves (.retain traceIds) { s with store := s.store.deleteTraces traceIds }

variable {config s} in
theorem step_moves {label : RecorderLabel} {t : Recorder} (h : s.step config label = some t) :
    s.Moves config label t := by
  unfold step at h
  split at h
  · exact Option.some.inj h ▸ .submit _
  · obtain ⟨submission, hk, rfl⟩ := Option.map_eq_some_iff.mp h
    exact .proceed hk
  · split at h
    · rename_i hwriter hqueue
      split_ifs at h with hroom
      exact Option.some.inj h ▸ .take hwriter hqueue hroom
    · cases h
  · split at h
    · rename_i hwriter
      split_ifs at h with hempty
      exact Option.some.inj h ▸ .idle hwriter hempty
    · rename_i hwriter
      split_ifs at h with hfull
      exact Option.some.inj h ▸ .close hwriter hfull
    · cases h
  · split at h
    · rename_i hwriter
      exact Option.some.inj h ▸ .attempt hwriter _
    · cases h
  · split at h
    · rename_i hwriter
      exact Option.some.inj h ▸ .swap hwriter
    · cases h
  · split at h
    · rename_i hwriter
      exact Option.some.inj h ▸ .mark hwriter _
    · cases h
  · split at h
    · rename_i hwriter
      exact Option.some.inj h ▸ .retain hwriter _
    · cases h

end Recorder

end CodeResearch.Observability
