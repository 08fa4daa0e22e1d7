import CodeResearch.Observability.Records

/-!
# Replays

Commands are delivered in batches, and batches are sent again. The store skips what it has
seen, so only the order of the commands and the clock are left to matter, and the clock does
wherever a span ends before it starts.
-/
namespace CodeResearch.Observability

/-- The status under `status` is not that of a span that runs. -/
def Payload.Ends (payload : Payload) : Prop :=
  (payload.get "status" .null).bind ≠ .ok (some "running")

instance (payload : Payload) : Decidable payload.Ends := by
  unfold Payload.Ends
  infer_instance

namespace ObservabilityStore

variable {s t u : ObservabilityStore} {command : TelemetryCommand}

/-- A command adds at most its own span, its own event and its own waiting end. -/
structure Adds (command : TelemetryCommand) (s t : ObservabilityStore) : Prop where
  spans : t.spans.rows.map SpanRow.key = s.spans.rows.map SpanRow.key ∨
    t.spans.rows.map SpanRow.key = s.spans.rows.map SpanRow.key ++ [(command.traceId, command.span)]
  events : t.spanEvents.rows.map EventRow.traceId = s.spanEvents.rows.map EventRow.traceId ∨
    t.spanEvents.rows.map EventRow.traceId =
      s.spanEvents.rows.map EventRow.traceId ++ [command.traceId]
  waiting : ∀ row ∈ t.pendingSpanTerminals.rows, row ∈ s.pendingSpanTerminals.rows ∨
    command.commandType = .spanEnd ∧ row.payload = command.payload

structure SameSpans (s t : ObservabilityStore) : Prop where
  spans : t.spans = s.spans
  events : t.spanEvents = s.spanEvents
  waiting : t.pendingSpanTerminals = s.pendingSpanTerminals

theorem SameSpans.adds (h : SameSpans s t) : Adds command s t :=
  ⟨.inl (by rw [h.spans]), .inl (by rw [h.events]), by rw [h.waiting]; exact fun _ => .inl⟩

theorem sameSpans_markIntegrity (s : ObservabilityStore) (traceId : String) (flag : IntegrityFlag)
    (dropped : ℕ) : SameSpans s (s.markIntegrity traceId flag dropped) := by
  unfold markIntegrity
  split <;> exact ⟨rfl, rfl, rfl⟩

theorem traceStart_sameSpans : Ensures (SameSpans s) (s.traceStart command) := by
  unfold traceStart
  iterate 11 refine .after fun _ => ?_
  split <;> exact .pure ⟨rfl, rfl, rfl⟩

theorem traceEnd_sameSpans : Ensures (SameSpans s) (s.traceEnd command) := by
  unfold traceEnd
  split
  · exact .ok ⟨rfl, rfl, rfl⟩
  · split_ifs
    · exact .ok ⟨rfl, rfl, rfl⟩
    · iterate 5 refine .after fun _ => ?_
      exact .pure ⟨rfl, rfl, rfl⟩

theorem spanLink_sameSpans : Ensures (SameSpans s) (s.spanLink command) := by
  unfold spanLink
  exact .after fun _ => .pure ⟨rfl, rfl, rfl⟩

theorem artifactRef_sameSpans : Ensures (SameSpans s) (s.artifactRef command) := by
  unfold artifactRef
  exact .after fun _ => .pure ⟨rfl, rfl, rfl⟩

theorem allocateSequence_sameSpans (traceId : String) :
    Ensures (fun p => SameSpans s p.1) (s.allocateSequence traceId) := by
  unfold allocateSequence
  split
  · exact .after fun _ => .pure ⟨rfl, rfl, rfl⟩
  · exact .ok ⟨rfl, rfl, rfl⟩

theorem spanEvent_adds : Ensures (fun t => Adds command s t ∧ t.spans = s.spans)
    (s.spanEvent command) := by
  unfold spanEvent
  iterate 2 refine .after fun _ => ?_
  split_ifs
  · exact .pure ⟨SameSpans.adds ⟨rfl, rfl, rfl⟩, rfl⟩
  · refine .bind (allocateSequence_sameSpans _) fun p hp => ?_
    obtain ⟨t, sequence⟩ := p
    iterate 5 refine .after fun _ => ?_
    split
    · dsimp only
      split
      · exact .pure ⟨hp.adds, hp.spans⟩
      · rename_i events hinsert
        refine .after fun _ => .pure ⟨⟨.inl (by rw [← hp.spans]), .inr ?_, ?_⟩, hp.spans⟩
        · dsimp only
          rw [Table.rows_insert hinsert, List.map_append, ← hp.events]
          rfl
        · rw [← hp.waiting]
          exact fun _ => .inl
    · exact .pure ⟨hp.adds, hp.spans⟩

/-- An end that finds its row. -/
structure EndsRow (traceId spanId commandId : String) (lifecycleSequence : ℕ) (payload : Payload)
    (s t : ObservabilityStore) : Prop where
  events : t.spanEvents = s.spanEvents
  waiting : t.pendingSpanTerminals = s.pendingSpanTerminals
  spans : ∀ old, s.spans.find? (traceId, spanId) = some old → old.status = "running" →
    old.lifecycleVersion ≤ lifecycleSequence →
      ∃ status, (payload.get "status" .null).bind = .ok (some status) ∧
        t.spans = s.spans.replace
          { old with status, lifecycleVersion := lifecycleSequence, lastCommandId := commandId }
  others : ¬ s.Closes (traceId, spanId) lifecycleSequence → t.spans = s.spans

theorem applySpanTerminal_endsRow (traceId spanId commandId : String) (sequence : ℕ)
    (payload : Payload) : Ensures (EndsRow traceId spanId commandId sequence payload s)
      (s.applySpanTerminal traceId spanId commandId sequence payload) := by
  unfold applySpanTerminal
  refine .bind (Q := fun value => payload.get "status" .null = value) ?_ fun value hvalue => ?_
  · intro value hvalue
    rw [Payload.get, orError_eq_ok_iff.mp hvalue]
    rfl
  refine .after fun _ => .bind (Q := fun status => value.bind = .ok status) (fun _ h => h)
    fun status hstatus => .after fun _ => ?_
  cases hfind : s.spans.find? (traceId, spanId) with
  | none =>
    refine .pure ⟨rfl, rfl, ?_, fun _ => rfl⟩
    intro old hold
    rw [hfind] at hold
    cases hold
  | some row =>
    dsimp only
    split_ifs with hcloses hid
    · refine .bind (Q := fun text => status = some text) (fun _ h => orError_eq_ok_iff.mp h)
        fun text htext => .pure ⟨rfl, rfl, ?_, ?_⟩
      · intro old hold _ _
        obtain rfl : row = old := by simpa [hfind] using hold
        exact ⟨text, by rw [hvalue, hstatus, htext], rfl⟩
      · intro hnone
        exact absurd ⟨row, hfind, hcloses⟩ hnone
    · have hsame := s.sameSpans_markIntegrity traceId .storeFailure 0
      refine .pure ⟨hsame.events, hsame.waiting, ?_, fun _ => hsame.spans⟩
      intro old hold hrunning hversion
      obtain rfl : row = old := by simpa [hfind] using hold
      exact absurd ⟨hrunning, hversion⟩ hcloses
    · refine .pure ⟨rfl, rfl, ?_, fun _ => rfl⟩
      intro old hold hrunning hversion
      obtain rfl : row = old := by simpa [hfind] using hold
      exact absurd ⟨hrunning, hversion⟩ hcloses

variable {commandId spanId traceId : String} {payload : Payload} {sequence : ℕ}

theorem EndsRow.keys (h : EndsRow traceId spanId commandId sequence payload s t) :
    t.spans.rows.map SpanRow.key = s.spans.rows.map SpanRow.key := by
  by_cases hcloses : s.Closes (traceId, spanId) sequence
  · obtain ⟨old, hold, hrunning, hversion⟩ := hcloses
    obtain ⟨status, _, hspans⟩ := h.spans old hold hrunning hversion
    rw [hspans, Table.keys_replace]
  · rw [h.others hcloses]

theorem EndsRow.adds
    (h : EndsRow traceId spanId commandId sequence payload s t) : Adds command s t :=
  ⟨.inl h.keys, .inl (by rw [h.events]), by rw [h.waiting]; exact fun _ => .inl⟩

/-- The row that a `span_start` inserts, or none. -/
structure BeginsRow (command : TelemetryCommand) (s t : ObservabilityStore) : Prop where
  events : t.spanEvents = s.spanEvents
  waiting : t.pendingSpanTerminals = s.pendingSpanTerminals
  spans : t.spans = s.spans ∨ ∃ row : SpanRow, row.key = (command.traceId, command.span) ∧
    row.status = "running" ∧ row.lastCommandId = command.commandId ∧
      s.spans.insert row = some t.spans

theorem insertSpan_beginsRow : Ensures (BeginsRow command s) (s.insertSpan command) := by
  unfold insertSpan
  iterate 7 refine .after fun _ => ?_
  split
  · dsimp only
    split
    · exact .pure ⟨rfl, rfl, .inl rfl⟩
    · rename_i spans hinsert
      exact .after fun _ => .pure ⟨rfl, rfl, .inr ⟨_, rfl, rfl, rfl, hinsert⟩⟩
  · exact .pure ⟨rfl, rfl, .inl rfl⟩

theorem BeginsRow.adds (h : BeginsRow command s t) : Adds command s t := by
  refine ⟨?_, .inl (by rw [h.events]), by rw [h.waiting]; exact fun _ => .inl⟩
  rcases h.spans with hsame | ⟨row, hkey, _, _, hinsert⟩
  · exact .inl (by rw [hsame])
  · refine .inr ?_
    rw [Table.rows_insert hinsert, List.map_append, List.map_singleton, hkey]

theorem spanStart_adds : Ensures (Adds command s) (s.spanStart command) := by
  unfold spanStart
  refine .bind insertSpan_beginsRow fun t hst => ?_
  split
  · exact .pure hst.adds
  · refine .bind (applySpanTerminal_endsRow _ _ _ _ _) fun u htu => .pure ?_
    refine ⟨?_, .inl (by rw [htu.events, hst.events]), ?_⟩
    · rw [htu.keys]
      exact hst.adds.spans
    · intro row hrow
      rw [Table.rows_deleteWhere, htu.waiting, hst.waiting] at hrow
      exact .inl (List.mem_of_mem_filter hrow)

theorem spanEnd_adds (htype : command.commandType = .spanEnd) :
    Ensures (Adds command s) (s.spanEnd command) := by
  unfold spanEnd
  split_ifs
  · exact (applySpanTerminal_endsRow _ _ _ _ _).mono fun _ h => h.adds
  · refine .ok ⟨.inl rfl, .inl rfl, ?_⟩
    intro row hrow
    cases hinsert : s.pendingSpanTerminals.insert
        ⟨command.commandId, command.traceId, command.span, command.lifecycleSequence,
          command.payload⟩ with
    | some table =>
      rw [hinsert, Option.getD_some, Table.mem_insert hinsert] at hrow
      rcases hrow with hrow | rfl
      · exact .inl hrow
      · exact .inr ⟨htype, rfl⟩
    | none =>
      rw [hinsert, Option.getD_none, Table.rows_replace] at hrow
      obtain ⟨old, hold, rfl⟩ := List.mem_map.mp hrow
      split_ifs
      · exact .inr ⟨htype, rfl⟩
      · exact .inl hold

theorem applyOne_adds (s : ObservabilityStore) (command : TelemetryCommand) :
    Ensures (Adds command s) (s.applyOne command) := by
  unfold applyOne
  split
  · exact traceStart_sameSpans.mono fun _ => SameSpans.adds
  · exact spanStart_adds
  · exact spanEvent_adds.mono fun _ h => h.1
  · exact spanLink_sameSpans.mono fun _ => SameSpans.adds
  · exact artifactRef_sameSpans.mono fun _ => SameSpans.adds
  · exact spanEnd_adds ‹_›
  · exact traceEnd_sameSpans.mono fun _ => SameSpans.adds

theorem applyCommand_adds (s : ObservabilityStore) (command : TelemetryCommand) :
    Ensures (Adds command s) (s.applyCommand command) := by
  unfold applyCommand
  refine .after fun _ => ?_
  dsimp only
  split
  · exact .pure (SameSpans.adds ⟨rfl, rfl, rfl⟩)
  · refine (applyOne_adds _ command).mono fun t h => ⟨h.spans, h.events, h.waiting⟩

theorem pendingTerminal_key {row : PendingRow} (h : s.pendingTerminal traceId spanId = some row) :
    row ∈ s.pendingSpanTerminals.rows ∧ row.traceId = traceId ∧ row.spanId = spanId := by
  have hmem := List.argmin_mem h
  obtain ⟨hrow, hkey⟩ := List.mem_filter.mp hmem
  exact ⟨hrow, of_decide_eq_true hkey⟩

/-- A `span_start` that ends its span at once, since the `span_end` came first. -/
def LateStart (s : ObservabilityStore) (command : TelemetryCommand) : Prop :=
  command.commandType = .spanStart ∧ ∃ records started row,
    s.telemetryCommands.insert
        ⟨command.commandId, command.traceId, command.spanId, command.commandType⟩ = some records ∧
      ObservabilityStore.insertSpan { s with telemetryCommands := records } command = .ok started ∧
      started.pendingTerminal command.traceId command.span = some row ∧
      started.Closes (command.traceId, command.span) row.lifecycleSequence

/-- The waiting ends, and those among the commands, do not leave their spans running. -/
def EndsSpans (s : ObservabilityStore) (commands : List TelemetryCommand) : Prop :=
  (∀ row ∈ s.pendingSpanTerminals.rows, row.payload.Ends) ∧
    ∀ command ∈ commands, command.commandType = .spanEnd → command.payload.Ends

end ObservabilityStore

namespace Records

variable {r t : Records} {command : TelemetryCommand} {now : String} {key : String × String}

def EndsAt (now : String) (command : TelemetryCommand) (commandId time : String) : Prop :=
  command.commandType = .spanEnd ∧ commandId = command.commandId ∧ time = command.occurredAt ∨
    command.commandType = .spanStart ∧ time = now

/-- What one statement does to a span. -/
inductive Moves (now : String) (command : TelemetryCommand) (key : String × String)
    (r t : Records) : Prop
  | same (hrow : t.store.spans.find? key = r.store.spans.find? key)
      (hcolumns : t.spanColumns key = r.spanColumns key)
  | began (row : SpanRow) (htype : command.commandType = .spanStart)
      (hnone : r.store.spans.find? key = none) (hrow : t.store.spans.find? key = some row)
      (hid : row.lastCommandId = command.commandId)
  | ended (old row : SpanRow) (time : String) (hold : r.store.spans.find? key = some old)
      (hrunning : old.status = "running") (hrow : t.store.spans.find? key = some row)
      (htime : (t.spanColumns key).endedAt = some time)
      (hends : EndsAt now command row.lastCommandId time)

theorem Moves.of_eq (hspans : t.store.spans = r.store.spans)
    (hcolumns : t.spanColumns = r.spanColumns) : Moves now command key r t :=
  .same (by rw [hspans]) (by rw [hcolumns])

variable {occurredAt spanId traceId commandId : String} {old : SpanRow}

/-- An end that finds its row writes its status and its time. -/
theorem applySpanTerminal_closes (commandId : String) {sequence : ℕ} (payload : Payload)
    (hold : r.store.spans.find? (traceId, spanId) = some old) (hrunning : old.status = "running")
    (hversion : old.lifecycleVersion ≤ sequence) :
    Ensures (fun t => ∃ row, (payload.get "status" .null).bind = .ok (some row.status) ∧
        row.lastCommandId = commandId ∧ t.store.spans.find? (traceId, spanId) = some row ∧
          (t.spanColumns (traceId, spanId)).endedAt = some occurredAt ∧
            ∀ key ≠ (traceId, spanId), t.store.spans.find? key = r.store.spans.find? key ∧
              t.spanColumns key = r.spanColumns key)
      (r.applySpanTerminal occurredAt traceId spanId commandId sequence payload) := by
  unfold applySpanTerminal
  refine .bind (ObservabilityStore.applySpanTerminal_endsRow _ _ _ _ _) fun store hstore => ?_
  rw [if_pos ⟨old, hold, hrunning, hversion⟩]
  obtain ⟨status, hstatus, hspans⟩ := hstore.spans old hold hrunning hversion
  have hkey : old.key = (traceId, spanId) := Table.find?_key hold
  refine .pure ⟨{ old with
    status, lifecycleVersion := sequence, lastCommandId := commandId }, hstatus, rfl, ?_, ?_, ?_⟩
  · change store.spans.find? _ = _
    rw [hspans]
    exact Table.find?_replace_of_key hkey (by rw [hold]; rfl)
  · dsimp only
    rw [Function.update_self]
  · intro key hne
    refine ⟨?_, Function.update_of_ne hne _ _⟩
    change store.spans.find? _ = _
    rw [hspans]
    exact Table.find?_replace_of_ne _ fun h => hne (h.trans hkey)

theorem applySpanTerminal_moves (key : String × String) (sequence : ℕ) (payload : Payload)
    (hends : EndsAt now command commandId occurredAt) : Ensures (Moves now command key r)
      (r.applySpanTerminal occurredAt traceId spanId commandId sequence payload) := by
  by_cases hcloses : r.store.Closes (traceId, spanId) sequence
  · obtain ⟨old, hold, hrunning, hversion⟩ := hcloses
    refine (applySpanTerminal_closes commandId payload hold hrunning hversion).mono fun t ht => ?_
    obtain ⟨row, _, rfl, hrow, htime, hothers⟩ := ht
    by_cases heq : key = (traceId, spanId)
    · subst heq
      exact .ended old row occurredAt hold hrunning hrow htime hends
    · exact .same (hothers key heq).1 (hothers key heq).2
  · unfold applySpanTerminal
    refine .bind (ObservabilityStore.applySpanTerminal_endsRow _ _ _ _ _) fun store hstore => ?_
    rw [if_neg hcloses]
    exact .pure (.of_eq (hstore.others hcloses) rfl)

theorem insertSpan_moves (now : String) (htype : command.commandType = .spanStart)
    (key : String × String) :
    Ensures (Moves now command key r) (r.insertSpan command) := by
  unfold insertSpan
  refine .bind ObservabilityStore.insertSpan_beginsRow fun store hstore => ?_
  rcases hstore.spans with hsame | ⟨row, hkey, _, hid, hinsert⟩
  · rw [if_neg]
    · exact .pure (.of_eq hsame rfl)
    · rintro ⟨hnone, hsome⟩
      rw [hsame, hnone] at hsome
      cases hsome
  · have hself : store.spans.find? (command.traceId, command.span) = some row :=
      hkey ▸ Table.find?_insert_self hinsert
    have hnone : r.store.spans.find? (command.traceId, command.span) = none :=
      hkey ▸ (Table.find?_eq_none_iff _).mpr (Table.insert_fresh hinsert)
    rw [if_pos ⟨hnone, hself ▸ rfl⟩]
    refine .pure ?_
    by_cases heq : key = (command.traceId, command.span)
    · subst heq
      exact .began row htype hnone hself hid
    · refine .same ?_ (Function.update_of_ne heq _ _)
      exact Table.find?_insert_of_ne hinsert fun h => heq (h.trans hkey)

open Relation in
theorem applyOne_moves (r : Records) (now : String) (command : TelemetryCommand)
    (key : String × String) :
    Ensures (ReflTransGen (Moves now command key) r) (r.applyOne now command) := by
  unfold applyOne
  cases htype : command.commandType with
  | traceStart =>
    refine .bind ObservabilityStore.traceStart_sameSpans fun store hstore => ?_
    split_ifs <;> exact .pure (.single (.of_eq hstore.spans rfl))
  | spanStart =>
    refine .bind (insertSpan_moves now htype key) fun u hu => ?_
    cases u.store.pendingTerminal command.traceId command.span with
    | none => exact .pure (.single hu)
    | some row =>
      refine .bind (applySpanTerminal_moves key _ _ (.inr ⟨htype, rfl⟩)) fun t ht => .pure ?_
      exact ((ReflTransGen.single hu).tail ht).tail (.of_eq rfl rfl)
  | spanEvent =>
    refine .bind ObservabilityStore.spanEvent_adds fun store hstore => ?_
    dsimp only
    split_ifs <;> exact .pure (.single (.of_eq hstore.2 rfl))
  | spanLink =>
    refine .bind ObservabilityStore.spanLink_sameSpans fun store hstore => ?_
    split_ifs <;> exact .pure (.single (.of_eq hstore.spans rfl))
  | artifactRef =>
    refine .bind ObservabilityStore.artifactRef_sameSpans fun store hstore => ?_
    split_ifs <;> exact .pure (.single (.of_eq hstore.spans rfl))
  | spanEnd =>
    unfold spanEnd
    split_ifs with hfind
    · exact (applySpanTerminal_moves key _ _ (.inl ⟨htype, rfl, rfl⟩)).mono fun _ => .single
    · unfold ObservabilityStore.spanEnd
      rw [if_neg hfind]
      exact .pure (.single (.of_eq rfl rfl))
  | traceEnd =>
    refine .bind ObservabilityStore.traceEnd_sameSpans fun store hstore => ?_
    split_ifs <;> exact .pure (.single (.of_eq hstore.spans rfl))

open Relation in
/-- A command that is applied, unless its id was seen before. -/
theorem applyCommand_moves (r : Records) (now : String) (command : TelemetryCommand)
    (key : String × String) : Ensures (fun t => t = r ∨
        r.store.telemetryCommands.find? command.commandId = none ∧
          ReflTransGen (Moves now command key) r t) (r.applyCommand now command) := by
  unfold applyCommand
  refine .after fun _ => ?_
  dsimp only
  split
  · exact .pure (.inl rfl)
  · rename_i records hinsert
    have hfresh := (Table.find?_eq_none_iff _).mpr (Table.insert_fresh hinsert)
    have hsame : Moves now command key r
        { r with store := { r.store with telemetryCommands := records } } := .of_eq rfl rfl
    exact (applyOne_moves _ now command key).mono fun t ht => .inr ⟨hfresh, .head hsame ht⟩

theorem Moves.preserve {P : Records → Prop}
    (hstep : ∀ u v, P u → Moves now command key u v → P v)
    (hmoves : Relation.ReflTransGen (Moves now command key) r t) (h : P r) : P t := by
  induction hmoves with
  | refl => exact h
  | tail _ hmove ih => exact hstep _ _ ih hmove

/-- A span that has ended stays as it is. -/
theorem applyCommand_keeps (now : String) (command : TelemetryCommand) {row : SpanRow}
    {columns : SpanColumns} (hended : row.status ≠ "running")
    (h : r.spanRecord key = some (row, columns)) :
    Ensures (fun t => t.spanRecord key = some (row, columns)) (r.applyCommand now command) := by
  refine (applyCommand_moves r now command key).mono fun t ht => ?_
  rcases ht with rfl | ⟨_, hmoves⟩
  · exact h
  · refine Moves.preserve (P := fun t => t.spanRecord key = some (row, columns)) ?_ hmoves h
    intro u v hu hmove
    unfold spanRecord at hu ⊢
    obtain ⟨row', hfind, heq⟩ := Option.map_eq_some_iff.mp hu
    obtain ⟨rfl, rfl⟩ := Prod.ext_iff.mp heq
    cases hmove with
    | same hsame hcolumns => rw [hsame, hcolumns, hfind]; rfl
    | began _ _ hnone _ _ => rw [hfind] at hnone; cases hnone
    | ended old _ _ hold hrunning _ _ _ =>
      obtain rfl : row' = old := Option.some.inj (hfind.symm.trans hold)
      exact absurd hrunning hended

def EndedAt (commandId time : String) (key : String × String) (r : Records) : Prop :=
  ∀ row, r.store.spans.find? key = some row → row.lastCommandId = commandId →
    (r.spanColumns key).endedAt = some time

/-- The end of a command that was seen before is one that waited, and has the time of the
clock. -/
theorem applyCommand_endedAt (command : TelemetryCommand)
    (hseen : (r.store.telemetryCommands.find? commandId).isSome)
    (h : EndedAt commandId now key r) :
    Ensures (EndedAt commandId now key) (r.applyCommand now command) := by
  refine (applyCommand_moves r now command key).mono fun t ht => ?_
  rcases ht with rfl | ⟨hfresh, hmoves⟩
  · exact h
  · have hne : command.commandId ≠ commandId := by
      rintro rfl
      rw [hfresh] at hseen
      cases hseen
    refine Moves.preserve ?_ hmoves h
    intro u v hu hmove row hrow hid
    cases hmove with
    | same hsame hcolumns =>
      rw [hcolumns]
      exact hu row (hsame ▸ hrow) hid
    | began row' _ _ hrow' hid' =>
      obtain rfl : row' = row := Option.some.inj (hrow'.symm.trans hrow)
      exact absurd (hid'.symm.trans hid) hne
    | ended _ row' time _ _ hrow' htime hends =>
      obtain rfl : row' = row := Option.some.inj (hrow'.symm.trans hrow)
      rcases hends with ⟨_, hid', _⟩ | ⟨_, rfl⟩
      · exact absurd (hid'.symm.trans hid) hne
      · exact htime

/-- A `span_end` that ends a running span leaves the time at which it occurred. -/
theorem spanEnd_endedAt (now : String) (htype : command.commandType = .spanEnd)
    (hold : r.store.spans.find? key = some old) (hrunning : old.status = "running") :
    Ensures (fun t => ∀ row, t.store.spans.find? key = some row → row.status ≠ "running" →
        row.lastCommandId = command.commandId ∧
          (t.spanColumns key).endedAt = some command.occurredAt)
      (r.applyCommand now command) := by
  let P (t : Records) : Prop := ∃ row, t.store.spans.find? key = some row ∧
    (row.status = "running" ∨ row.lastCommandId = command.commandId ∧
      (t.spanColumns key).endedAt = some command.occurredAt)
  have hinitial : P r := ⟨old, hold, .inl hrunning⟩
  refine Ensures.mono (Q := P) ?_ fun t ht row hrow hended => ?_
  · refine (applyCommand_moves r now command key).mono fun t ht => ?_
    rcases ht with rfl | ⟨_, hmoves⟩
    · exact hinitial
    · refine Moves.preserve ?_ hmoves hinitial
      rintro u v ⟨row, hfind, hrow⟩ hmove
      cases hmove with
      | same hsame hcolumns => exact ⟨row, hsame.trans hfind, hcolumns ▸ hrow⟩
      | began _ _ hnone _ _ => rw [hfind] at hnone; cases hnone
      | ended _ row' _ _ _ hrow' htime hends =>
        rcases hends with ⟨_, hid, rfl⟩ | ⟨hstart, _⟩
        · exact ⟨row', hrow', .inr ⟨hid, htime⟩⟩
        · rw [htype] at hstart
          cases hstart
  · obtain ⟨row', hrow', hcases⟩ := ht
    obtain rfl : row' = row := Option.some.inj (hrow'.symm.trans hrow)
    exact hcases.resolve_left hended

theorem mem_pending_of_insertSpan {s started : ObservabilityStore}
    (h : s.insertSpan command = .ok started) {row : PendingRow}
    (hrow : row ∈ started.pendingSpanTerminals.rows) : row ∈ s.pendingSpanTerminals.rows := by
  rwa [(ObservabilityStore.insertSpan_beginsRow started h).waiting] at hrow

/-- A late start leaves the time that the clock shows. -/
theorem lateStart_endedAt (hlate : r.store.LateStart command)
    (hwaiting : ∀ row ∈ r.store.pendingSpanTerminals.rows, row.payload.Ends) :
    Ensures (fun t => ∃ row,
        t.store.spans.find? (command.traceId, command.span) = some row ∧ row.status ≠ "running" ∧
          (t.spanColumns (command.traceId, command.span)).endedAt = some now)
      (r.applyCommand now command) := by
  obtain ⟨htype, records, started, row, hinsert, hstarted, hrow, hcloses⟩ := hlate
  obtain ⟨hmem, htrace, hspan⟩ := ObservabilityStore.pendingTerminal_key hrow
  have hends := hwaiting row (mem_pending_of_insertSpan hstarted hmem)
  unfold applyCommand
  refine .after fun _ => ?_
  dsimp only
  rw [hinsert]
  dsimp only
  unfold applyOne
  rw [htype]
  refine .bind (Q := fun u => u.store = started) ?_ fun u hu => ?_
  · intro u hu
    exact Except.ok.inj ((insertSpan_follows.ok hu).symm.trans hstarted)
  · rw [hu, hrow]
    refine .bind (Q := fun t => ∃ ended,
      t.store.spans.find? (command.traceId, command.span) = some ended ∧
        ended.status ≠ "running" ∧
          (t.spanColumns (command.traceId, command.span)).endedAt = some now) ?_
      fun t ht => .pure ht
    obtain ⟨old, hold, hrunning, hversion⟩ := hcloses
    rw [← hu] at hold
    rw [htrace, hspan]
    refine (applySpanTerminal_closes row.commandId row.payload hold hrunning hversion).mono ?_
    rintro t ⟨ended, hstatus, _, hfind, htime, _⟩
    refine ⟨ended, hfind, ?_, htime⟩
    intro hrunning
    exact hends (hrunning ▸ hstatus)

end Records

end CodeResearch.Observability
