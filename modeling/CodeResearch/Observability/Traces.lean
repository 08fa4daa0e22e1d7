import CodeResearch.Observability.Accounting

/-!
# What a command does to the rows of traces

Every handler leaves the records of commands alone, and only three kinds of statements
write a trace: the one that starts it, the one that ends it, and the marks.
-/
namespace CodeResearch.Observability

namespace ObservabilityStore

variable {s t u : ObservabilityStore} {command : TelemetryCommand}

/-- The records and the traces of one store are those of another. -/
structure SameTraces (s t : ObservabilityStore) : Prop where
  records : t.telemetryCommands = s.telemetryCommands
  traces : t.traces = s.traces

/-- What a handler does to the traces. -/
inductive TraceStep (command : TelemetryCommand) (s t : ObservabilityStore) : Prop
  | same (h : t.traces = s.traces)
  | started (row : TraceRow) (hid : row.traceId = command.traceId)
      (htype : command.commandType = .traceStart) (hcompleteness : row.completeness = .unknown)
      (hflags : row.integrityFlags = ∅) (hdropped : row.droppedRecordCount = 0)
      (h : s.traces.insert row = some t.traces)
  | marked (traceId : String) (h : t.traces = (s.markIntegrity traceId .storeFailure 0).traces)
  | ended (row : TraceRow) (hrow : s.traces.find? command.traceId = some row)
      (htype : command.commandType = .traceEnd) (status : String) (flags : Finset IntegrityFlag)
      (h : t.traces = s.traces.replace
        { row with
          status, lastCommandId := command.commandId, endedAt := some command.occurredAt
          completeness := if row.integrityFlags ∪ flags = ∅ then .complete else .partly
          integrityFlags := row.integrityFlags ∪ flags })

/-- A handler keeps the records and steps the traces. -/
structure Handles (command : TelemetryCommand) (s t : ObservabilityStore) : Prop where
  records : t.telemetryCommands = s.telemetryCommands
  step : TraceStep command s t

theorem SameTraces.handles (h : SameTraces s t) : Handles command s t := ⟨h.records, .same h.traces⟩

/-- Changes to other tables before a handler. -/
theorem Handles.of_same (hst : SameTraces s t) (h : Handles command t u) : Handles command s u := by
  refine ⟨h.records.trans hst.records, ?_⟩
  cases h.step with
  | same h => exact .same (h.trans hst.traces)
  | started row hid htype hcompleteness hflags hdropped h =>
    exact .started row hid htype hcompleteness hflags hdropped (hst.traces ▸ h)
  | marked traceId h =>
    refine .marked traceId (h.trans ?_)
    unfold markIntegrity
    rw [hst.traces]
    split <;> simp [hst.traces]
  | ended row hrow htype status flags h =>
    rw [hst.traces] at hrow h
    exact .ended row hrow htype status flags h

theorem Handles.trans_same (h : Handles command s t) (htu : SameTraces t u) :
    Handles command s u := by
  refine ⟨htu.records.trans h.records, ?_⟩
  cases h.step with
  | same h => exact .same (htu.traces.trans h)
  | started row hid htype hcompleteness hflags hdropped h =>
    exact .started row hid htype hcompleteness hflags hdropped (htu.traces ▸ h)
  | marked traceId h => exact .marked traceId (htu.traces.trans h)
  | ended row hrow htype status flags h =>
    exact .ended row hrow htype status flags (htu.traces.trans h)

@[simp] theorem records_markIntegrity (s : ObservabilityStore) (traceId : String)
    (flag : IntegrityFlag) (dropped : ℕ) :
    (s.markIntegrity traceId flag dropped).telemetryCommands = s.telemetryCommands := by
  unfold markIntegrity
  split <;> rfl

theorem traceStart_handles (htype : command.commandType = .traceStart) :
    Ensures (Handles command s) (s.traceStart command) := by
  unfold traceStart
  iterate 11 refine .after fun _ => ?_
  split
  · refine .pure ⟨rfl, ?_⟩
    cases hinsert : s.traces.insert _ with
    | none => exact .same rfl
    | some traces => exact .started _ rfl htype rfl rfl rfl hinsert
  · exact .pure ⟨rfl, .same rfl⟩

theorem applySpanTerminal_handles (command : TelemetryCommand) (traceId spanId commandId : String) (sequence : ℕ)
    (payload : Payload) :
    Ensures (Handles command s) (s.applySpanTerminal traceId spanId commandId sequence payload) := by
  unfold applySpanTerminal
  iterate 4 refine .after fun _ => ?_
  split
  · exact .pure ⟨rfl, .same rfl⟩
  · split_ifs
    · exact .after fun _ => .pure ⟨rfl, .same rfl⟩
    · exact .pure ⟨records_markIntegrity .., .marked traceId rfl⟩
    · exact .pure ⟨rfl, .same rfl⟩

theorem insertSpan_same : Ensures (SameTraces s) (s.insertSpan command) := by
  unfold insertSpan
  iterate 7 refine .after fun _ => ?_
  split
  · dsimp only
    split
    · exact .pure ⟨rfl, rfl⟩
    · exact .after fun _ => .pure ⟨rfl, rfl⟩
  · exact .pure ⟨rfl, rfl⟩

theorem spanStart_handles : Ensures (Handles command s) (s.spanStart command) := by
  unfold spanStart
  refine .bind insertSpan_same fun t hst => ?_
  split
  · exact .pure hst.handles
  · refine .bind (applySpanTerminal_handles command _ _ _ _ _) fun u htu => .pure ?_
    exact (htu.of_same hst).trans_same ⟨rfl, rfl⟩

theorem spanEnd_handles : Ensures (Handles command s) (s.spanEnd command) := by
  unfold spanEnd
  split_ifs
  · exact applySpanTerminal_handles command _ _ _ _ _
  · exact .ok ⟨rfl, .same rfl⟩

theorem traceEnd_handles (htype : command.commandType = .traceEnd) :
    Ensures (Handles command s) (s.traceEnd command) := by
  unfold traceEnd
  split
  · exact .ok ⟨rfl, .same rfl⟩
  · rename_i row hrow
    split_ifs
    · exact .ok ⟨rfl, .same rfl⟩
    · iterate 5 refine .after fun _ => ?_
      exact .pure ⟨rfl, .ended row hrow htype _ (s.endFlags row) rfl⟩

theorem allocateSequence_same (traceId : String) :
    Ensures (fun p => SameTraces s p.1) (s.allocateSequence traceId) := by
  unfold allocateSequence
  split
  · exact .after fun _ => .pure ⟨rfl, rfl⟩
  · exact .ok ⟨rfl, rfl⟩

theorem spanEvent_same : Ensures (SameTraces s) (s.spanEvent command) := by
  unfold spanEvent
  iterate 2 refine .after fun _ => ?_
  split_ifs
  · exact .pure ⟨rfl, rfl⟩
  · refine .bind (allocateSequence_same _) fun p hp => ?_
    obtain ⟨t, sequence⟩ := p
    iterate 5 refine .after fun _ => ?_
    split
    · dsimp only
      split
      · exact .pure hp
      · exact .after fun _ => .pure ⟨hp.records, hp.traces⟩
    · exact .pure hp

theorem spanLink_same : Ensures (SameTraces s) (s.spanLink command) := by
  unfold spanLink
  exact .after fun _ => .pure ⟨rfl, rfl⟩

theorem artifactRef_same : Ensures (SameTraces s) (s.artifactRef command) := by
  unfold artifactRef
  exact .after fun _ => .pure ⟨rfl, rfl⟩

theorem applyOne_handles (s : ObservabilityStore) (command : TelemetryCommand) :
    Ensures (Handles command s) (s.applyOne command) := by
  unfold applyOne
  split
  · exact traceStart_handles ‹_›
  · exact spanStart_handles
  · exact spanEvent_same.mono fun _ => SameTraces.handles
  · exact spanLink_same.mono fun _ => SameTraces.handles
  · exact artifactRef_same.mono fun _ => SameTraces.handles
  · exact spanEnd_handles
  · exact traceEnd_handles ‹_›

end ObservabilityStore

/-- The trace was last written by a `trace_end` among the commands. -/
def TraceRow.EndedBy (commands : List TelemetryCommand) (row : TraceRow) : Prop :=
  ∃ command ∈ commands, command.commandType = .traceEnd ∧ command.traceId = row.traceId ∧
    command.commandId = row.lastCommandId

/-- What commands may make of a row. -/
structure TraceRow.Grows (commands : List TelemetryCommand) (old row : TraceRow) : Prop where
  traceId : row.traceId = old.traceId
  dropped : row.droppedRecordCount = old.droppedRecordCount
  flags : old.integrityFlags ⊆ row.integrityFlags
  complete : row.completeness = .complete →
    old.completeness = .complete ∧ row.integrityFlags = old.integrityFlags ∧
        row.lastCommandId = old.lastCommandId ∨
      row.integrityFlags = ∅ ∧ row.EndedBy commands

/-- A row that the commands inserted. -/
structure TraceRow.Fresh (commands : List TelemetryCommand) (s : ObservabilityStore)
    (row : TraceRow) : Prop where
  absent : s.traces.find? row.traceId = none
  started : ∃ command ∈ commands, command.commandType = .traceStart ∧ command.traceId = row.traceId
  dropped : row.droppedRecordCount = 0
  complete : row.completeness = .complete → row.integrityFlags = ∅ ∧ row.EndedBy commands

theorem TraceRow.Grows.refl (commands : List TelemetryCommand) (row : TraceRow) :
    row.Grows commands row :=
  ⟨rfl, rfl, Finset.Subset.refl _, fun h => .inl ⟨h, rfl, rfl⟩⟩

variable {commands : List TelemetryCommand}

theorem TraceRow.Grows.trans {a b c : TraceRow} (hab : a.Grows commands b)
    (hbc : b.Grows commands c) : a.Grows commands c := by
  refine ⟨hbc.traceId.trans hab.traceId, hbc.dropped.trans hab.dropped,
    hab.flags.trans hbc.flags, ?_⟩
  intro hcomplete
  rcases hbc.complete hcomplete with ⟨hb, hflags, hlast⟩ | hended
  · rcases hab.complete hb with ⟨ha, hflags', hlast'⟩ | ⟨hnone, e, he, htype, hid, hcommand⟩
    · exact .inl ⟨ha, hflags.trans hflags', hlast.trans hlast'⟩
    · exact .inr ⟨hflags.trans hnone, e, he, htype, hid.trans hbc.traceId.symm,
        hcommand.trans hlast.symm⟩
  · exact .inr hended

theorem TraceRow.grows_mark (commands : List TelemetryCommand) (row : TraceRow)
    (flag : IntegrityFlag) : row.Grows commands (row.mark flag 0) :=
  ⟨rfl, rfl, Finset.subset_insert _ _, fun h => by cases h⟩

theorem TraceRow.Fresh.grows {s : ObservabilityStore} {a b : TraceRow} (ha : a.Fresh commands s)
    (hab : a.Grows commands b) : b.Fresh commands s := by
  refine ⟨hab.traceId ▸ ha.absent, hab.traceId ▸ ha.started, hab.dropped.trans ha.dropped, ?_⟩
  intro hcomplete
  rcases hab.complete hcomplete with ⟨hold, hflags, hlast⟩ | hended
  · obtain ⟨hnone, e, he, htype, hid, hcommand⟩ := ha.complete hold
    exact ⟨hflags.trans hnone, e, he, htype, hid.trans hab.traceId.symm,
      hcommand.trans hlast.symm⟩
  · exact hended

namespace ObservabilityStore

variable {s t u : ObservabilityStore}
  {command : TelemetryCommand}

structure Batched (commands : List TelemetryCommand) (s t : ObservabilityStore) : Prop where
  records : ∀ id, (s.telemetryCommands.find? id).isSome → (t.telemetryCommands.find? id).isSome
  kept : ∀ id, t.traces.find? id = none → s.traces.find? id = none
  rows : ∀ row ∈ t.traces.rows,
    (∃ old ∈ s.traces.rows, old.Grows commands row) ∨ row.Fresh commands s

theorem Batched.refl (commands : List TelemetryCommand) (s : ObservabilityStore) :
    Batched commands s s :=
  ⟨fun _ h => h, fun _ h => h, fun row hrow => .inl ⟨row, hrow, .refl commands row⟩⟩

theorem Batched.trans (hst : Batched commands s t) (htu : Batched commands t u) :
    Batched commands s u := by
  refine ⟨fun id h => htu.records id (hst.records id h),
    fun id h => hst.kept id (htu.kept id h), ?_⟩
  intro row hrow
  rcases htu.rows row hrow with ⟨old, hold, hgrows⟩ | hfresh
  · rcases hst.rows old hold with ⟨older, holder, hgrows'⟩ | hfresh
    · exact .inl ⟨older, holder, hgrows'.trans hgrows⟩
    · exact .inr (hfresh.grows hgrows)
  · exact .inr ⟨hst.kept _ hfresh.absent, hfresh.started, hfresh.dropped, hfresh.complete⟩

/-- A row that is replaced by one that grew from it. -/
theorem batched_replace (old : TraceRow) {row : TraceRow}
    (hold : s.traces.find? row.traceId = some old) (hgrows : old.Grows commands row)
    (hrecords : ∀ id, (s.telemetryCommands.find? id).isSome →
      (t.telemetryCommands.find? id).isSome)
    (ht : t.traces = s.traces.replace row) : Batched commands s t := by
  refine ⟨hrecords, ?_, ?_⟩
  · intro id hid
    rw [Table.find?_eq_none_iff] at hid ⊢
    rwa [ht, Table.keys_replace] at hid
  · intro r hr
    rw [ht] at hr
    rcases (Table.mem_replace (hold ▸ rfl) r).mp hr with rfl | ⟨hr, _⟩
    · exact .inl ⟨old, Table.find?_mem hold, hgrows⟩
    · exact .inl ⟨r, hr, .refl commands r⟩

theorem Handles.batched (h : Handles command s t) (hmem : command ∈ commands) :
    Batched commands s t := by
  have hrecords : ∀ id, (s.telemetryCommands.find? id).isSome →
      (t.telemetryCommands.find? id).isSome := by
    rw [h.records]
    exact fun _ h => h
  cases h.step with
  | same hsame =>
    refine ⟨hrecords, by rw [hsame]; exact fun _ h => h, ?_⟩
    intro row hrow
    exact .inl ⟨row, hsame ▸ hrow, .refl commands row⟩
  | started row hid htype hcompleteness hflags hdropped hinsert =>
    refine ⟨hrecords, ?_, ?_⟩
    · intro id hnone
      cases hfind : s.traces.find? id with
      | none => rfl
      | some old => simp [Table.find?_insert_of_some hinsert hfind] at hnone
    · intro r hr
      rcases (Table.mem_insert hinsert r).mp hr with hr | rfl
      · exact .inl ⟨r, hr, .refl commands r⟩
      · refine .inr ⟨?_, ⟨command, hmem, htype, hid.symm⟩, hdropped, ?_⟩
        · exact (Table.find?_eq_none_iff _).mpr (Table.insert_fresh hinsert)
        · rw [hcompleteness]
          exact fun h => by cases h
  | marked traceId hmarked =>
    unfold markIntegrity at hmarked
    split at hmarked
    · refine ⟨hrecords, by rw [hmarked]; exact fun _ h => h, ?_⟩
      intro row hrow
      exact .inl ⟨row, hmarked ▸ hrow, .refl commands row⟩
    · rename_i row hrow
      have hkey : row.traceId = traceId := Table.find?_key hrow
      refine batched_replace row ?_ (TraceRow.grows_mark commands row _) hrecords hmarked
      exact hkey ▸ hrow
  | ended row hrow htype status flags hended =>
    have hkey : row.traceId = command.traceId := Table.find?_key hrow
    refine batched_replace row ?_ ?_ hrecords hended
    · exact hkey ▸ hrow
    · refine ⟨rfl, rfl, Finset.subset_union_left, ?_⟩
      dsimp only
      intro hcomplete
      split_ifs at hcomplete with hnone
      exact .inr ⟨hnone, command, hmem, htype, hkey.symm, rfl⟩

theorem applyCommand_batched (hmem : command ∈ commands) :
    Ensures (fun t => Batched commands s t ∧ t.Holds command) (s.applyCommand command) := by
  unfold applyCommand
  refine .after fun _ => ?_
  dsimp only
  split
  · rename_i htaken
    refine .pure ⟨.refl commands s, ?_⟩
    unfold Holds
    rw [Option.isSome_iff_ne_none]
    intro hnone
    obtain ⟨records, hrecords⟩ := Table.exists_insert (r := (⟨command.commandId, command.traceId,
      command.spanId, command.commandType⟩ : CommandRow)) ((Table.find?_eq_none_iff _).mp hnone)
    rw [hrecords] at htaken
    cases htaken
  · rename_i records hinsert
    refine (applyOne_handles _ command).mono fun t ht => ?_
    have hrecorded : Batched commands s { s with telemetryCommands := records } := by
      refine ⟨?_, fun _ h => h, fun row hrow => .inl ⟨row, hrow, .refl commands row⟩⟩
      intro id hid
      obtain ⟨row, hrow⟩ := Option.isSome_iff_exists.mp hid
      rw [Table.find?_insert_of_some hinsert hrow]
      rfl
    refine ⟨hrecorded.trans (ht.batched hmem), ?_⟩
    unfold Holds
    rw [ht.records]
    dsimp only
    rw [Table.find?_insert_self hinsert]
    rfl

theorem applyCommands_batched (s : ObservabilityStore) (commands : List TelemetryCommand) :
    Ensures (Batched commands s) (s.applyCommands commands) := by
  refine .foldlM (.refl commands s) fun t ht command hmem => ?_
  exact (applyCommand_batched hmem).mono fun u hu => ht.trans hu.1

theorem applyCommands_holds (s : ObservabilityStore) (commands : List TelemetryCommand) :
    Ensures (fun t => ∀ c ∈ commands, t.Holds c) (s.applyCommands commands) := by
  induction commands generalizing s with
  | nil => exact .pure (by simp)
  | cons command commands ih =>
    unfold applyCommands
    rw [List.foldlM_cons]
    refine .bind (applyCommand_batched (List.mem_cons_self : command ∈ [command])) fun t ht => ?_
    intro u hu
    refine List.forall_mem_cons.mpr ⟨?_, ih t u hu⟩
    exact (applyCommands_batched t commands u hu).records _ ht.2

end ObservabilityStore

end CodeResearch.Observability
