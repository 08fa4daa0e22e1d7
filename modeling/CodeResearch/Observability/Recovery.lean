import CodeResearch.Observability.Traces

/-!
# Recovery of the observability store

When a recorder starts it resolves the span ends that waited too long for their start and
abandons what was left running. A span end that waits has no foreign key, but the span it
is resolved to has one.
-/
namespace CodeResearch.Observability

namespace JsonValue

/-- `bool(value)`. -/
def Truthy : JsonValue → Prop
  | null => False
  | bool value => value = true
  | int value => value ≠ 0
  | real literal => literal ∉ ["0.0", "-0.0"]
  | text value => value ≠ ""
  | nested json => json ∉ ["[]", "{}"]

instance (value : JsonValue) : Decidable value.Truthy := by
  cases value <;> unfold Truthy <;> infer_instance

def Binds : JsonValue → Prop
  | int value => -2 ^ 63 ≤ value ∧ value < 2 ^ 63
  | nested _ => False
  | null | bool _ | real _ | text _ => True

instance (value : JsonValue) : Decidable value.Binds := by
  cases value <;> unfold Binds <;> infer_instance

end JsonValue

/-- What a call of `abandon_running` reads off its clock: which waiting span ends have
expired, and which spans and traces are older than the cutoff. -/
structure RecoveryClock where
  now : String
  expired : String → Bool
  oldSpan : String × String → Bool
  oldTrace : String → Bool

/-- The values of a waiting span end that its statement binds. -/
def PendingRow.Binds (row : PendingRow) : Prop :=
  (row.payload.get "status" (.text "abandoned")).Binds ∧
    ((row.payload.get "completion_status" .null).Truthy →
      (row.payload.get "completion_status" .null).Binds) ∧
    ∀ key ∈ ["duration_ms", "error_code", "exception_type", "error_message_template",
      "error_message_hash"], (row.payload.get key .null).Binds

def PendingRow.missingStart (row : PendingRow) (status : String) : SpanRow where
  traceId := row.traceId
  spanId := row.spanId
  parentSpanId := none
  name := "telemetry.missing_start"
  status := status
  lifecycleVersion := row.lifecycleSequence
  lastCommandId := row.commandId

namespace ObservabilityStore

variable (s : ObservabilityStore)

/-- The insertion of a span whose start is missing. A row that conflicts with another, or that
has no status, is ignored before its foreign key is looked at. -/
def insertMissingStart (row : PendingRow) (status : Option String) :
    Except StoreError ObservabilityStore :=
  match status.bind fun status => s.spans.insert (row.missingStart status) with
  | none => .ok s
  | some spans => do
    ensure (s.traces.find? row.traceId).isSome .integrityError
    return { s with spans }

/-- The end of a turn of the loop of `_resolve_expired_pending`. -/
def settlePending (row : PendingRow) : ObservabilityStore :=
  let s := (s.markIntegrity row.traceId .missingSpanStart 0).markIntegrity row.traceId .orphanSpan 0
  { s with
    pendingSpanTerminals := s.pendingSpanTerminals.deleteWhere fun r => r.commandId = row.commandId }

/-- One turn of the loop of `_resolve_expired_pending`. -/
def resolvePending (row : PendingRow) : Except StoreError ObservabilityStore := do
  let payload := row.payload
  let status ← (payload.get "status" (.text "abandoned")).bind
  let completion := payload.get "completion_status" .null
  let _ ← (if completion.Truthy then completion else .text "missing_span_start").bind
  payload.bindAll ["duration_ms", "error_code", "exception_type", "error_message_template",
    "error_message_hash"]
  let s ← s.insertMissingStart row status
  return s.settlePending row

def expiredPending (clock : RecoveryClock) : List PendingRow :=
  s.pendingSpanTerminals.rows.filter fun row => clock.expired row.commandId

/-- A span that `abandon_running` found running. -/
def abandonSpan (row : SpanRow) : ObservabilityStore :=
  let s : ObservabilityStore := { s with
    spans := s.spans.updateWhere (fun r => r.key = row.key ∧ r.status = "running")
      (fun r => { r with status := "abandoned" }) fun _ => rfl }
  (s.markIntegrity row.traceId .processCrash 0).markIntegrity row.traceId .missingSpanEnd 0

/-- A trace that `abandon_running` found running. -/
def abandonTrace (now : String) (row : TraceRow) : ObservabilityStore :=
  let s : ObservabilityStore := { s with
    traces := s.traces.updateWhere (fun r => r.traceId = row.traceId ∧ r.status = "running")
      (fun r => { r with status := "abandoned", endedAt := some now, completeness := .partly })
      fun _ => rfl }
  s.markIntegrity row.traceId .missingRootEnd 0

def abandonSpans (clock : RecoveryClock) : ObservabilityStore :=
  (s.spans.rows.filter fun row => row.status = "running" ∧ clock.oldSpan row.key).foldl
    abandonSpan s

def abandonTraces (clock : RecoveryClock) : ObservabilityStore :=
  (s.traces.rows.filter fun row => row.status = "running" ∧ clock.oldTrace row.traceId).foldl
    (fun s row => s.abandonTrace clock.now row) s

/-- `abandon_running`, which is one transaction. -/
def abandonRunning (clock : RecoveryClock) : Except StoreError ObservabilityStore := do
  let s ← (s.expiredPending clock).foldlM resolvePending s
  return (s.abandonSpans clock).abandonTraces clock

/-- What a recovery is to leave. -/
structure Recovered (clock : RecoveryClock) : Prop where
  pending : ∀ row ∈ s.pendingSpanTerminals.rows, ¬ clock.expired row.commandId
  spans : ∀ row ∈ s.spans.rows, clock.oldSpan row.key → row.status ≠ "running"
  traces : ∀ row ∈ s.traces.rows, clock.oldTrace row.traceId → row.status ≠ "running"

/-- The row that a waiting span end is resolved to satisfies its foreign key, or is ignored
before that is looked at. -/
def Resolves (row : PendingRow) : Prop :=
  row.Binds ∧ (row.payload.get "status" (.text "abandoned") = .null ∨
    (s.spans.find? (row.traceId, row.spanId)).isSome ∨ (s.traces.find? row.traceId).isSome)

theorem exists_bind_iff (value : JsonValue) :
    (∃ column, value.bind = .ok column) ↔ value.Binds := by
  cases value
  case int value =>
    unfold JsonValue.bind JsonValue.Binds
    dsimp only
    split_ifs with hrange
    · exact ⟨fun _ => hrange, fun _ => ⟨_, rfl⟩⟩
    · exact ⟨fun ⟨_, h⟩ => (nomatch h), fun h => absurd h hrange⟩
  all_goals simp [JsonValue.bind, JsonValue.Binds]

theorem bindAll_eq_ok_iff (payload : Payload) (keys : List String) :
    payload.bindAll keys = .ok () ↔ ∀ key ∈ keys, (payload.get key .null).Binds := by
  unfold Payload.bindAll
  rw [except_forM_eq_ok_iff]
  refine forall₂_congr fun key _ => ?_
  rw [← exists_bind_iff, except_bind_eq_ok_iff]
  simp

theorem bind_eq_none_iff {value : JsonValue} : value.bind = .ok none ↔ value = .null := by
  cases value
  case int value =>
    unfold JsonValue.bind
    dsimp only
    split_ifs <;> simp
  all_goals simp [JsonValue.bind]

variable {s : ObservabilityStore} {row : PendingRow}

theorem isSome_traces_markIntegrity (s : ObservabilityStore) (traceId : String)
    (flag : IntegrityFlag) (dropped : ℕ) (k : String) :
    ((s.markIntegrity traceId flag dropped).traces.find? k).isSome = (s.traces.find? k).isSome := by
  unfold markIntegrity
  split
  · rfl
  · rw [Bool.eq_iff_iff, ← Option.ne_none_iff_isSome, ← Option.ne_none_iff_isSome, ne_eq, ne_eq,
      Table.find?_eq_none_iff, Table.find?_eq_none_iff, Table.keys_replace]

@[simp] theorem spans_markIntegrity (s : ObservabilityStore) (traceId : String)
    (flag : IntegrityFlag) (dropped : ℕ) :
    (s.markIntegrity traceId flag dropped).spans = s.spans := by
  unfold markIntegrity
  split <;> rfl

@[simp] theorem pending_markIntegrity (s : ObservabilityStore) (traceId : String)
    (flag : IntegrityFlag) (dropped : ℕ) :
    (s.markIntegrity traceId flag dropped).pendingSpanTerminals = s.pendingSpanTerminals := by
  unfold markIntegrity
  split <;> rfl

/-- What a resolved span end changes. -/
structure Resolved (row : PendingRow) (s t : ObservabilityStore) : Prop where
  pending : t.pendingSpanTerminals.rows =
    s.pendingSpanTerminals.rows.filter fun r => r.commandId ≠ row.commandId
  traces : ∀ k, (t.traces.find? k).isSome = (s.traces.find? k).isSome
  spans : ∀ k, (s.spans.find? k).isSome → (t.spans.find? k).isSome
  inserted : ∀ k, (t.spans.find? k).isSome → (s.spans.find? k).isSome ∨ (s.traces.find? k.1).isSome

theorem resolved_settlePending (row : PendingRow) (s : ObservabilityStore) :
    Resolved row s (s.settlePending row) := by
  refine ⟨?_, fun k => ?_, ?_, ?_⟩
  · simp [settlePending]
  · simp only [settlePending, isSome_traces_markIntegrity]
  · simp [settlePending]
  · intro k hk
    left
    simpa [settlePending] using hk

variable {status : Option String} {t : ObservabilityStore} {rows : List PendingRow}
  {clock : RecoveryClock}

theorem insertMissingStart_cases (h : s.insertMissingStart row status = .ok t) :
    t = s ∨ (s.traces.find? row.traceId).isSome ∧ ∃ span spans,
      span.key = (row.traceId, row.spanId) ∧ s.spans.insert span = some spans ∧
        t = { s with spans } := by
  unfold insertMissingStart at h
  split at h
  · cases h
    exact .inl rfl
  · rename_i spans hinserted
    obtain ⟨status, _, hinsert⟩ := Option.bind_eq_some_iff.mp hinserted
    obtain ⟨_, htrace, heq⟩ := except_bind_eq_ok_iff.mp h
    cases heq
    exact .inr ⟨ensure_eq_ok_iff.mp htrace, _, spans, rfl, hinsert, rfl⟩

theorem resolvePending_resolved : Ensures (Resolved row s) (s.resolvePending row) := by
  unfold resolvePending
  iterate 3 refine .after fun _ => ?_
  refine .bind (fun t ht => insertMissingStart_cases ht) fun t ht => .pure ?_
  obtain ⟨hpending, htraces, hspans, hinserted⟩ := resolved_settlePending row t
  rcases ht with rfl | ⟨htrace, span, spans, hkey, hinsert, rfl⟩
  · exact ⟨hpending, htraces, hspans, hinserted⟩
  · refine ⟨hpending, htraces, fun k hk => ?_, fun k hk => ?_⟩
    · obtain ⟨x, hx⟩ := Option.isSome_iff_exists.mp hk
      exact hspans k (by simp [Table.find?_insert_of_some hinsert hx])
    · by_cases hsame : k = span.key
      · right
        rwa [hsame, hkey]
      · rcases hinserted k hk with hk | hk
        · left
          rwa [Table.find?_insert_of_ne hinsert hsame] at hk
        · exact .inr hk

theorem exists_insertMissingStart_iff : (∃ t, s.insertMissingStart row status = .ok t) ↔
      status = none ∨ (s.spans.find? (row.traceId, row.spanId)).isSome ∨
        (s.traces.find? row.traceId).isSome := by
  unfold insertMissingStart
  cases status with
  | none => simp
  | some status =>
    dsimp only [Option.bind_some]
    cases hinsert : s.spans.insert (row.missingStart status) with
    | none =>
      have hspan : (s.spans.find? (row.missingStart status).key).isSome := by
        rw [← Option.ne_none_iff_isSome, ne_eq, Table.find?_eq_none_iff]
        intro hfresh
        obtain ⟨spans, hspans⟩ := Table.exists_insert hfresh
        cases hinsert.symm.trans hspans
      exact ⟨fun _ => .inr (.inl hspan), fun _ => ⟨_, rfl⟩⟩
    | some spans =>
      have hnone : s.spans.find? (row.missingStart status).key = none :=
        (Table.find?_eq_none_iff _).mpr (Table.insert_fresh hinsert)
      have hkey : (row.missingStart status).key = (row.traceId, row.spanId) := rfl
      rw [← hkey, hnone]
      by_cases htrace : (s.traces.find? row.traceId).isSome <;> simp [ensure, htrace]

theorem exists_resolvePending_iff : (∃ t, s.resolvePending row = .ok t) ↔ s.Resolves row := by
  constructor
  · rintro ⟨t, ht⟩
    obtain ⟨status, hstatus, ht⟩ := except_bind_eq_ok_iff.mp ht
    obtain ⟨_, hcompletion, ht⟩ := except_bind_eq_ok_iff.mp ht
    obtain ⟨_, hkeys, ht⟩ := except_bind_eq_ok_iff.mp ht
    obtain ⟨u, hu, _⟩ := except_bind_eq_ok_iff.mp ht
    refine ⟨⟨(exists_bind_iff _).mp ⟨_, hstatus⟩, fun htruthy => ?_,
      (bindAll_eq_ok_iff _ _).mp hkeys⟩, (exists_insertMissingStart_iff.mp ⟨u, hu⟩).imp_left ?_⟩
    · rw [if_pos htruthy] at hcompletion
      exact (exists_bind_iff _).mp ⟨_, hcompletion⟩
    · rintro rfl
      exact bind_eq_none_iff.mp hstatus
  · rintro ⟨⟨hstatus, hcompletion, hkeys⟩, hforeign⟩
    obtain ⟨status, hstatus⟩ := (exists_bind_iff _).mpr hstatus
    obtain ⟨completion, hcompletion⟩ : ∃ completion,
        (if (row.payload.get "completion_status" .null).Truthy then
          row.payload.get "completion_status" .null
        else .text "missing_span_start").bind = .ok completion := by
      split_ifs with htruthy
      · exact (exists_bind_iff _).mpr (hcompletion htruthy)
      · exact ⟨_, rfl⟩
    have hinsert : status = none ∨ (s.spans.find? (row.traceId, row.spanId)).isSome ∨
        (s.traces.find? row.traceId).isSome := by
      refine hforeign.imp_left fun hnull => ?_
      rw [hnull] at hstatus
      cases hstatus
      rfl
    obtain ⟨u, hu⟩ := exists_insertMissingStart_iff.mpr hinsert
    have hbinds := (bindAll_eq_ok_iff _ _).mpr hkeys
    refine ⟨u.settlePending row, ?_⟩
    unfold resolvePending
    simp only [hstatus, hcompletion, hbinds, hu, except_bind_ok]
    rfl

theorem Resolved.resolves_iff (h : Resolved row s t) (row' : PendingRow) :
    t.Resolves row' ↔ s.Resolves row' := by
  unfold Resolves
  rw [h.traces]
  refine and_congr_right fun _ => or_congr_right ⟨?_, Or.imp_left (h.spans _)⟩
  rintro (hspan | htrace)
  · exact h.inserted _ hspan
  · exact .inr htrace

/-- The loop of `_resolve_expired_pending` ends when each of its rows can be resolved. -/
theorem exists_resolveAll_iff :
    (∃ t, rows.foldlM resolvePending s = .ok t) ↔ ∀ row ∈ rows, s.Resolves row := by
  induction rows generalizing s with
  | nil => exact ⟨fun _ => by simp, fun _ => ⟨s, rfl⟩⟩
  | cons row rows ih =>
    rw [List.foldlM_cons, List.forall_mem_cons]
    constructor
    · rintro ⟨t, ht⟩
      obtain ⟨u, hu, ht⟩ := except_bind_eq_ok_iff.mp ht
      refine ⟨exists_resolvePending_iff.mp ⟨u, hu⟩, fun row' hrow' => ?_⟩
      exact ((resolvePending_resolved u hu).resolves_iff row').mp (ih.mp ⟨t, ht⟩ row' hrow')
    · rintro ⟨hrow, hrows⟩
      obtain ⟨u, hu⟩ := exists_resolvePending_iff.mpr hrow
      obtain ⟨t, ht⟩ := ih.mpr fun row' hrow' =>
        ((resolvePending_resolved u hu).resolves_iff row').mpr (hrows row' hrow')
      exact ⟨t, by rw [hu, except_bind_ok, ht]⟩

theorem pending_resolveAll
    (h : rows.foldlM resolvePending s = .ok t) : ∀ r ∈ t.pendingSpanTerminals.rows,
      r ∈ s.pendingSpanTerminals.rows ∧ ∀ row ∈ rows, r.commandId ≠ row.commandId := by
  induction rows generalizing s with
  | nil =>
    cases h
    exact fun r hr => ⟨hr, by simp⟩
  | cons row rows ih =>
    obtain ⟨u, hu, h⟩ := except_bind_eq_ok_iff.mp h
    intro r hr
    obtain ⟨hmem, hrows⟩ := ih h r hr
    rw [(resolvePending_resolved u hu).pending, List.mem_filter] at hmem
    exact ⟨hmem.1, List.forall_mem_cons.mpr ⟨of_decide_eq_true hmem.2, hrows⟩⟩

def runningSpans (s : ObservabilityStore) : Set (String × String) :=
  {k | ∃ row ∈ s.spans.rows, row.key = k ∧ row.status = "running"}

def runningTraces (s : ObservabilityStore) : Set String :=
  {k | ∃ row ∈ s.traces.rows, row.traceId = k ∧ row.status = "running"}

/-- What each turn of a loop removes is gone after it. -/
theorem subset_foldl {ι κ : Type*} {step : ObservabilityStore → ι → ObservabilityStore}
    {running : ObservabilityStore → Set κ} {key : ι → κ}
    (hstep : ∀ s i, running (step s i) ⊆ running s \ {key i}) (l : List ι) (s : ObservabilityStore) :
    running (l.foldl step s) ⊆ running s \ {k | ∃ i ∈ l, key i = k} := by
  induction l generalizing s with
  | nil => simp
  | cons i l ih =>
    intro k hk
    obtain ⟨hrunning, hrest⟩ := ih (step s i) hk
    obtain ⟨hs, hi⟩ := hstep s i hrunning
    refine ⟨hs, ?_⟩
    rintro ⟨j, hj, hjk⟩
    rcases List.mem_cons.mp hj with rfl | hj
    · exact hi hjk.symm
    · exact hrest ⟨j, hj, hjk⟩

theorem eq_foldl {ι γ : Type*} {step : ObservabilityStore → ι → ObservabilityStore}
    {field : ObservabilityStore → γ} (hstep : ∀ s i, field (step s i) = field s) (l : List ι)
    (s : ObservabilityStore) : field (l.foldl step s) = field s := by
  induction l generalizing s with
  | nil => rfl
  | cons i l ih => exact (ih (step s i)).trans (hstep s i)

theorem runningTraces_markIntegrity (s : ObservabilityStore) (traceId : String)
    (flag : IntegrityFlag) (dropped : ℕ) :
    (s.markIntegrity traceId flag dropped).runningTraces = s.runningTraces := by
  unfold markIntegrity
  split
  · rfl
  · rename_i row hrow
    have hkey : row.traceId = traceId := Table.find?_key hrow
    have hmap := Table.map_replace (t := s.traces) (r := row.mark flag dropped)
      (show s.traces.find? row.traceId = some row from hkey ▸ hrow)
      (fun r => (r.traceId, r.status)) rfl
    have hiff : ∀ (u : ObservabilityStore) k,
        k ∈ u.runningTraces ↔ (k, "running") ∈ u.traces.rows.map fun r => (r.traceId, r.status) := by
      intro u k
      simp [runningTraces, and_comm]
    ext k
    rw [hiff, hiff, hmap]

theorem runningSpans_abandonSpan (s : ObservabilityStore) (row : SpanRow) :
    (s.abandonSpan row).runningSpans ⊆ s.runningSpans \ {row.key} := by
  rintro k ⟨r, hr, rfl, hrunning⟩
  simp only [abandonSpan, spans_markIntegrity] at hr
  obtain ⟨old, hold, rfl⟩ := (Table.mem_updateWhere _ _ _ _ _).mp hr
  split_ifs at hrunning ⊢ with hupdated
  · exact absurd hrunning (by simp)
  · refine ⟨⟨old, hold, rfl, hrunning⟩, fun hkey => hupdated ?_⟩
    exact decide_eq_true ⟨hkey, hrunning⟩

theorem runningTraces_abandonTrace (now : String) (s : ObservabilityStore) (row : TraceRow) :
    (s.abandonTrace now row).runningTraces ⊆ s.runningTraces \ {row.traceId} := by
  unfold abandonTrace
  rw [runningTraces_markIntegrity]
  rintro k ⟨r, hr, rfl, hrunning⟩
  dsimp only at hr
  obtain ⟨old, hold, rfl⟩ := (Table.mem_updateWhere _ _ _ _ _).mp hr
  split_ifs at hrunning ⊢ with hupdated
  · exact absurd hrunning (by simp)
  · refine ⟨⟨old, hold, rfl, hrunning⟩, fun hkey => hupdated ?_⟩
    exact decide_eq_true ⟨hkey, hrunning⟩

/-- A store that nothing is left to recover in does not change. -/
theorem abandonRunning_of_recovered (h : s.Recovered clock) : s.abandonRunning clock = .ok s := by
  have hpending : s.expiredPending clock = [] :=
    List.filter_eq_nil_iff.mpr h.pending
  have hspans : s.abandonSpans clock = s := by
    unfold abandonSpans
    rw [List.filter_eq_nil_iff.mpr, List.foldl_nil]
    intro row hrow hmatch
    obtain ⟨hrunning, hold⟩ := of_decide_eq_true hmatch
    exact h.spans row hrow hold hrunning
  have htraces : s.abandonTraces clock = s := by
    unfold abandonTraces
    rw [List.filter_eq_nil_iff.mpr, List.foldl_nil]
    intro row hrow hmatch
    obtain ⟨hrunning, hold⟩ := of_decide_eq_true hmatch
    exact h.traces row hrow hold hrunning
  unfold abandonRunning
  rw [hpending, List.foldlM_nil, except_pure_bind, hspans, htraces]
  rfl

theorem spans_abandonSpans (clock : RecoveryClock) :
    ∀ row ∈ (s.abandonSpans clock).spans.rows, clock.oldSpan row.key → row.status ≠ "running" := by
  intro row hrow hold hrunning
  obtain ⟨⟨before, hbefore, hkey, hrunning'⟩, hgone⟩ :=
    subset_foldl runningSpans_abandonSpan _ s ⟨row, hrow, rfl, hrunning⟩
  apply hgone
  refine ⟨before, List.mem_filter.mpr ⟨hbefore, decide_eq_true ⟨hrunning', ?_⟩⟩, hkey⟩
  rwa [hkey]

theorem traces_abandonTraces (clock : RecoveryClock) :
    ∀ row ∈ (s.abandonTraces clock).traces.rows, clock.oldTrace row.traceId →
      row.status ≠ "running" := by
  intro row hrow hold hrunning
  obtain ⟨⟨before, hbefore, hkey, hrunning'⟩, hgone⟩ :=
    subset_foldl (runningTraces_abandonTrace clock.now) _ s ⟨row, hrow, rfl, hrunning⟩
  apply hgone
  refine ⟨before, List.mem_filter.mpr ⟨hbefore, decide_eq_true ⟨hrunning', ?_⟩⟩, hkey⟩
  rwa [hkey]

/-- The loops of a recovery leave nothing to recover. -/
theorem recovered_of_abandonRunning (h : s.abandonRunning clock = .ok t) : t.Recovered clock := by
  obtain ⟨u, hu, h⟩ := except_bind_eq_ok_iff.mp h
  cases h
  have hpending : ((u.abandonSpans clock).abandonTraces clock).pendingSpanTerminals =
      u.pendingSpanTerminals :=
    (eq_foldl (fun _ _ => by simp [abandonTrace]) _ _).trans
      (eq_foldl (fun _ _ => by simp [abandonSpan]) _ _)
  have hspans : ((u.abandonSpans clock).abandonTraces clock).spans =
      (u.abandonSpans clock).spans := eq_foldl (fun _ _ => by simp [abandonTrace]) _ _
  refine ⟨fun row hrow hexpired => ?_, hspans ▸ spans_abandonSpans clock,
    traces_abandonTraces clock⟩
  obtain ⟨hmem, hgone⟩ := pending_resolveAll hu row (hpending ▸ hrow)
  exact hgone row (List.mem_filter.mpr ⟨hmem, hexpired⟩) rfl

end ObservabilityStore

/-- A recovery ends, leaves nothing to recover, and changes nothing when it is repeated, if
and only if every expired span end that waits can be stored as a span. -/
theorem abandonRunning_recovers_iff (s : ObservabilityStore) (clock : RecoveryClock) :
    (∃ t, s.abandonRunning clock = .ok t ∧ t.Recovered clock ∧ t.abandonRunning clock = .ok t) ↔
      ∀ row ∈ s.pendingSpanTerminals.rows, clock.expired row.commandId → s.Resolves row := by
  have hexpired : (∀ row ∈ s.pendingSpanTerminals.rows, clock.expired row.commandId →
      s.Resolves row) ↔ ∀ row ∈ s.expiredPending clock, s.Resolves row := by
    simp [ObservabilityStore.expiredPending]
  rw [hexpired, ← ObservabilityStore.exists_resolveAll_iff]
  constructor
  · rintro ⟨t, ht, _⟩
    obtain ⟨u, hu, _⟩ := except_bind_eq_ok_iff.mp ht
    exact ⟨u, hu⟩
  · rintro ⟨u, hu⟩
    obtain ⟨t, ht⟩ : ∃ t, s.abandonRunning clock = .ok t := by
      unfold ObservabilityStore.abandonRunning
      rw [hu]
      exact ⟨_, rfl⟩
    have hrecovered := ObservabilityStore.recovered_of_abandonRunning ht
    exact ⟨t, ht, hrecovered, ObservabilityStore.abandonRunning_of_recovered hrecovered⟩

/-- What a recorder asks of its store. -/
inductive StoreLabel
  | applyCommands (commands : List TelemetryCommand)
  | markIntegrity (traceId : String) (flag : IntegrityFlag) (dropped : ℕ)
  | deleteBefore (traceIds : List String)

def ObservabilityStore.call (s : ObservabilityStore) : StoreLabel → ObservabilityStore
  | .applyCommands commands => (s.applyCommands commands).toOption.getD s
  | .markIntegrity traceId flag dropped => s.markIntegrity traceId flag dropped
  | .deleteBefore traceIds => s.deleteTraces traceIds

def lostSpanEnd : TelemetryCommand where
  commandId := "end"
  commandType := .spanEnd
  traceId := "lost"
  spanId := some "span"
  lifecycleSequence := 2
  occurredAt := "2025-01-01T00:00:00+00:00"
  payload := [("status", .text "ok")]
  identified := by simp

def lateClock : RecoveryClock := ⟨"2025-01-02T00:00:00+00:00", fun _ => true, fun _ => true, fun _ => true⟩

theorem lostSpanEnd_raises :
    ((Machine.total ObservabilityStore.call).exec Machine.Free {} [.applyCommands [lostSpanEnd]]).map
      (fun s => (s.abandonRunning lateClock).toOption.isSome) = some false := by
  decide

/-- A span end whose trace was lost makes every recovery raise. -/
theorem lost_trace_stops_recovery :
    ¬ ∀ (labels : List StoreLabel) (s : ObservabilityStore) (clock : RecoveryClock),
      (Machine.total ObservabilityStore.call).Run Machine.Free {} labels s →
        ∃ t, s.abandonRunning clock = .ok t ∧ t.Recovered clock ∧
          t.abandonRunning clock = .ok t := by
  intro hall
  obtain ⟨s, hs, hraises⟩ := Option.map_eq_some_iff.mp lostSpanEnd_raises
  obtain ⟨t, ht, _⟩ := hall _ s lateClock (Machine.run_of_exec hs)
  rw [ht] at hraises
  cases hraises

end CodeResearch.Observability
