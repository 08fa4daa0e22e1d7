import CodeResearch.Observability.Instrumented

/-!
# Telemetry is transparent when its validators accept

One lemma for each method says when it returns, and that it leaves the context variable alone.
The induction over the code puts them together.
-/
namespace CodeResearch.Observability

variable {α β : Type}

namespace Tele

def Passes (x : Tele α) (s : Telemetry) : Prop := ∃ a, (x s).1 = .ok a

def Keeps (x : Tele α) : Prop :=
  ∀ s, (x s).2.ambient = s.ambient ∧ (x s).2.leaks = s.leaks

variable {x : Tele α} {f : α → Tele β} {s t : Telemetry}

theorem bind_apply : (x >>= f) s =
    match x s with
    | (.ok a, t) => f a t
    | (.error e, t) => (.error e, t) := rfl

theorem passes_bind_of_ok {a : α} (h : x s = (.ok a, t)) : (x >>= f).Passes s ↔ (f a).Passes t := by
  unfold Passes
  rw [bind_apply, h]

theorem passes_bind : (x >>= f).Passes s ↔ ∃ a, (x s).1 = .ok a ∧ (f a).Passes (x s).2 := by
  unfold Passes
  rw [bind_apply]
  rcases x s with ⟨_ | a, t⟩ <;> simp

theorem passes_bind_left (h : ∀ a t, (f a).Passes t) : (x >>= f).Passes s ↔ x.Passes s := by
  rw [passes_bind]
  exact exists_congr fun a => and_iff_left (h a _)

theorem passes_bind_const {P : Prop} (h : ∀ a t, (f a).Passes t ↔ P) :
    (x >>= f).Passes s ↔ x.Passes s ∧ P := by
  rw [passes_bind]
  exact (exists_congr fun a => and_congr_right fun _ => h a _).trans exists_and_right

theorem passes_bind_unit {y : Tele Unit} {g : Unit → Tele β} :
    (y >>= g).Passes s ↔ y.Passes s ∧ (g ()).Passes (y s).2 := by
  rw [passes_bind]
  exact ⟨fun ⟨_, ha, hg⟩ => ⟨⟨(), ha⟩, hg⟩, fun ⟨⟨_, ha⟩, hg⟩ => ⟨(), ha, hg⟩⟩

theorem passes_lift_bind {y : Except Raised α} :
    (lift y >>= f).Passes s ↔ ∃ a, y = .ok a ∧ (f a).Passes s := passes_bind

theorem keeps_pure (a : α) : (pure a : Tele α).Keeps := fun _ => ⟨rfl, rfl⟩

theorem keeps_lift (y : Except Raised α) : (lift y).Keeps := fun _ => ⟨rfl, rfl⟩

theorem Keeps.bind (hx : x.Keeps) (hf : ∀ a, (f a).Keeps) : (x >>= f).Keeps := by
  intro s
  have hs := hx s
  rw [bind_apply]
  rcases hxs : x s with ⟨_ | a, t⟩
  · rwa [hxs] at hs
  · rw [hxs] at hs
    obtain ⟨hambient, hleaks⟩ := hf a t
    exact ⟨hambient.trans hs.1, hleaks.trans hs.2⟩

end Tele

open Tele

variable {env : Surroundings} {i : ℕ} {s t : Telemetry}

theorem passes_submit (command : TelemetryCommand) : (submit env command).Passes s := by
  unfold Passes submit
  dsimp only
  split
  · exact ⟨_, rfl⟩
  · split
    · split
      · exact ⟨_, rfl⟩
      · split <;> exact ⟨_, rfl⟩
    · exact ⟨_, rfl⟩

theorem keeps_submit (command : TelemetryCommand) : (submit env command).Keeps := by
  intro s
  unfold submit
  dsimp only
  split
  · exact ⟨rfl, rfl⟩
  · split
    · split
      · exact ⟨rfl, rfl⟩
      · split <;> exact ⟨rfl, rfl⟩
    · exact ⟨rfl, rfl⟩

theorem keeps_drawUuid : (drawUuid env).Keeps := fun _ => ⟨rfl, rfl⟩

theorem keeps_newHandle (h : SpanHandle) : (newHandle h).Keeps := fun _ => ⟨rfl, rfl⟩

theorem keeps_setHandle (h : SpanHandle) : (setHandle i h).Keeps := fun _ => ⟨rfl, rfl⟩

theorem keeps_markEnded : (markEnded i).Keeps := fun _ => ⟨rfl, rfl⟩

theorem keeps_readClock (override : Option Duration) : (readClock env override).Keeps :=
  fun _ => ⟨rfl, rfl⟩

theorem passes_drawUuid_bind {f : Uuid → Tele β} : (drawUuid env >>= f).Passes s ↔
    (f (env.uuid s.uuids)).Passes { s with uuids := s.uuids + 1 } := Iff.rfl

variable {h : SpanHandle} {values : Payload} {ctx parent : TraceContext}
  {name severity linkedTraceId relation : String} {linkedSpanId parentSpanId : Option String}
  {args : SpanArgs} {decision : RecordingDecision} {duration : Duration} {attributes : Attributes}
  {root : Bool} {outcome : Except Raised α}

theorem passes_setHandle_bind {f : Unit → Tele β} :
    (setHandle i h >>= f).Passes s ↔ (f ()).Passes { s with handles := s.handles.set i h } :=
  Iff.rfl

theorem passes_readClock_bind {override : Option Duration} {f : Duration → Tele β} :
    (readClock env override >>= f).Passes s ↔
      (f (endDuration env override s)).Passes (readClock env override s).2 := Iff.rfl

theorem passes_emit {commandId : Uuid} {draft : Draft} :
    (emit env commandId draft).Passes s ↔ draft.Valid := by
  have hemit : (emit env commandId draft).Passes s ↔
      ∃ command, draft.command ("cmd_" ++ commandId.hex) (env.now s.clock) = .ok command := by
    unfold Passes emit
    cases h : draft.command ("cmd_" ++ commandId.hex) (env.now s.clock) with
    | ok command =>
      have hsubmit : (submit env command).Passes s := passes_submit command
      obtain ⟨u, hu⟩ := hsubmit
      exact ⟨fun _ => ⟨command, rfl⟩, fun _ => ⟨u, hu⟩⟩
    | error e => exact ⟨fun ⟨_, hu⟩ => (nomatch hu), fun ⟨_, hc⟩ => (nomatch hc)⟩
  rw [hemit]
  unfold Draft.command
  split
  · rename_i hvalid
    exact ⟨fun _ => hvalid, fun _ => ⟨_, rfl⟩⟩
  · rename_i hvalid
    exact ⟨fun ⟨_, hc⟩ => (nomatch hc), fun h => absurd h hvalid⟩

theorem keeps_emit (commandId : Uuid) (draft : Draft) : (emit env commandId draft).Keeps := by
  intro s
  unfold emit
  split
  · exact keeps_submit _ s
  · exact ⟨rfl, rfl⟩

def Registered (values : Payload) : Prop := ∀ item ∈ values, contentKey item.1 = false

theorem registered_kept (diagnostics : Bool) (attributes : Attributes) :
    Registered (kept diagnostics attributes) := fun _ h => contentKey_of_mem_kept h

theorem registered_nil : Registered [] := fun _ h => nomatch h

theorem mem_of_mem_trimReversed {item : String × JsonValue}
    (h : item ∈ trimReversed values) : item ∈ values := by
  induction values with
  | nil => cases h
  | cons head values ih =>
    unfold trimReversed at h
    split at h
    · exact List.mem_cons_of_mem _ (ih h)
    · exact h

theorem Registered.trim (h : Registered values) : Registered (trim values) :=
  fun item hitem => h item (List.mem_reverse.mp
    (mem_of_mem_trimReversed (List.mem_reverse.mp hitem)))

variable {payload : Payload} {sequence n : ℕ} {spanId traceId component operation : String}
  {record : SpanHandle → TraceContext → Tele Unit} {r : Recording}
  {first : Except Raised α × Telemetry} {ok : Prop}

/-- A command about a span is valid when its payload is not too large. -/
theorem valid_draft {commandType : CommandType} (hsequence : 1 ≤ sequence)
    (hpayload : Registered payload) (hvalues : Registered values) :
    (ctx.draft commandType sequence payload values).Valid ↔ Fits payload :=
  ⟨fun h => h.fits, fun h => {
    traceId := ctx.traceId_ok
    spanId := fun id hid => by
      cases hid
      exact ctx.spanId_ok
    sequence := hsequence
    fits := h
    content := fun item hitem => (List.mem_append.mp hitem).elim (hpayload item) (hvalues item)
    identified := fun _ => rfl }⟩

def payloadKeys : List String :=
  ["event_id", "producer_sequence", "name", "severity", "attributes", "size_bytes", "link_id",
    "linked_trace_id", "linked_span_id", "relation", "ref_id", "artifact_type", "artifact_id",
    "content_hash", "repo_id", "index_version_id", "role", "trace_type", "root_span_id",
    "request_id", "run_id", "task_id", "caller_scope_hash", "recording_mode",
    "diagnostic_sampled", "otlp_sampled", "attribute_registry_version",
    "operation_taxonomy_version", "hash_key_id", "hash_algorithm", "parent_span_id", "component",
    "kind", "status", "completion_status", "duration_ms", "duration_estimated", "error_code",
    "exception_type", "error_message_template", "error_message_hash"]

theorem registered_of_keys (h : payload.map Prod.fst ⊆ payloadKeys) : Registered payload := by
  have hall : ∀ key ∈ payloadKeys, contentKey key = false := by decide +kernel
  exact fun item hitem => hall _ (h (List.mem_map_of_mem hitem))

theorem registered_eventPayload {eventId : Uuid} : Registered
    (eventPayload eventId sequence name severity values) :=
  registered_of_keys (by simp [eventPayload, payloadKeys])

theorem registered_linkPayload {linkId : Uuid} :
    Registered (linkPayload linkId linkedTraceId relation linkedSpanId values) :=
  registered_of_keys (by simp [linkPayload, payloadKeys])

theorem registered_artifactPayload {refId : Uuid} {a : ArtifactArgs} :
    Registered (artifactPayload refId a) :=
  registered_of_keys (by simp [artifactPayload, payloadKeys])

theorem registered_traceStartPayload :
    Registered (traceStartPayload env args spanId decision values) :=
  registered_of_keys (by simp [traceStartPayload, payloadKeys])

theorem registered_spanStartPayload : Registered (spanStartPayload args parentSpanId values) :=
  registered_of_keys (by simp [spanStartPayload, payloadKeys])

theorem registered_spanEndPayload {a : EndArgs}
    {safe : Option String × Option String × Option String} :
    Registered (spanEndPayload a duration safe) :=
  registered_of_keys (by simp [spanEndPayload, payloadKeys])

theorem registered_traceEndPayload {a : EndArgs} : Registered (traceEndPayload a duration) :=
  registered_of_keys (by simp [traceEndPayload, payloadKeys])

theorem cleaned_iff {diagnostics : Bool} {P : Payload → Prop} :
    (∃ values, cleanAttributes attributes diagnostics = .ok values ∧ P values) ↔
      Typed diagnostics attributes ∧ P (kept diagnostics attributes) := by
  constructor
  · rintro ⟨values, hclean, hP⟩
    have htyped := typed_of_cleanAttributes hclean
    rw [cleanAttributes_of_typed htyped] at hclean
    cases hclean
    exact ⟨htyped, hP⟩
  · rintro ⟨htyped, hP⟩
    exact ⟨_, cleanAttributes_of_typed htyped, hP⟩

theorem passes_withContext : (withContext i record).Passes s ↔
      ∀ ctx, (handleAt i s).context = some ctx → (record (handleAt i s) ctx).Passes s := by
  unfold Passes withContext
  cases (handleAt i s).context with
  | none => exact ⟨fun _ _ h => (nomatch h), fun _ => ⟨(), rfl⟩⟩
  | some ctx => simp

theorem keeps_withContext
    (h : ∀ handle ctx, (record handle ctx).Keeps) : (withContext i record).Keeps := by
  intro s
  unfold withContext
  split
  · exact ⟨rfl, rfl⟩
  · exact h _ _ s

theorem passes_event :
    (event env i name severity attributes).Passes s ↔ EventOk env i name severity attributes s := by
  have hrecord : ∀ ctx, (recordEvent env i (handleAt i s) ctx name severity attributes).Passes s ↔
      Typed false attributes ∧ Fits (eventPayload (env.uuid (s.uuids + 1))
        ((handleAt i s).producerSequence + 1) name severity (trim (kept false attributes))) := by
    intro ctx
    unfold recordEvent
    dsimp only
    rw [passes_setHandle_bind, passes_lift_bind, cleaned_iff]
    refine and_congr_right fun _ => ?_
    have hsequence : 1 ≤ max 2 ((handleAt i s).producerSequence + 1 + 1) := by omega
    rw [passes_drawUuid_bind, passes_drawUuid_bind, passes_emit,
      valid_draft hsequence registered_eventPayload (registered_kept _ _).trim]
  rw [event, passes_withContext]
  simp only [hrecord]
  exact ⟨fun h hsome => h _ (Option.some_get hsome).symm, fun h _ hctx => h (by rw [hctx]; rfl)⟩

theorem keeps_event : (event env i name severity attributes).Keeps :=
  keeps_withContext fun _ _ => (keeps_setHandle _).bind fun _ => (keeps_lift _).bind fun _ =>
    keeps_drawUuid.bind fun _ => keeps_drawUuid.bind fun _ => keeps_emit _ _

theorem passes_link : (link env i linkedTraceId relation linkedSpanId attributes).Passes s ↔
      LinkOk env i linkedTraceId relation linkedSpanId attributes s := by
  rw [link, passes_withContext]
  simp only [passes_drawUuid_bind, passes_lift_bind, cleaned_iff, passes_emit,
    valid_draft (le_refl 1) registered_linkPayload (registered_kept _ _)]
  exact ⟨fun h hsome => h _ (Option.some_get hsome).symm, fun h _ hctx => h (by rw [hctx]; rfl)⟩

theorem keeps_link : (link env i linkedTraceId relation linkedSpanId attributes).Keeps :=
  keeps_withContext fun _ _ => keeps_drawUuid.bind fun _ => keeps_drawUuid.bind fun _ =>
    (keeps_lift _).bind fun _ => keeps_emit _ _

theorem passes_artifact {a : ArtifactArgs} :
    (artifact env i a).Passes s ↔ ArtifactOk env i a s := by
  rw [artifact, passes_withContext]
  simp only [passes_drawUuid_bind, passes_emit,
    valid_draft (le_refl 1) registered_artifactPayload registered_nil]
  exact ⟨fun h hsome => h _ (Option.some_get hsome).symm, fun h _ hctx => h (by rw [hctx]; rfl)⟩

theorem keeps_artifact {a : ArtifactArgs} : (artifact env i a).Keeps :=
  keeps_withContext fun _ _ => keeps_drawUuid.bind fun _ => keeps_drawUuid.bind fun _ =>
    keeps_emit _ _

theorem passes_newHandle (h : SpanHandle) : (newHandle h).Passes s := ⟨_, rfl⟩

theorem passes_openSpan (hvalues : Registered values) :
    (openSpan env args ctx parentSpanId values root).Passes s ↔
      Fits (spanStartPayload args parentSpanId values) := by
  rw [openSpan, passes_drawUuid_bind, passes_bind_left fun _ _ => passes_newHandle _, passes_emit,
    valid_draft (le_refl 1) registered_spanStartPayload hvalues]

theorem keeps_openSpan : (openSpan env args ctx parentSpanId values root).Keeps :=
  keeps_drawUuid.bind fun _ => (keeps_emit _ _).bind fun _ => keeps_newHandle _

theorem passes_startChild : (startChild env args parent).Passes s ↔ ChildOk args parent := by
  rw [startChild, passes_drawUuid_bind, passes_lift_bind, cleaned_iff]
  exact and_congr_right fun _ => passes_openSpan (registered_kept _ _)

theorem keeps_startChild : (startChild env args parent).Keeps :=
  keeps_drawUuid.bind fun _ => (keeps_lift _).bind fun _ => keeps_openSpan

theorem rootOk_of_rootContext {span : Uuid}
    (h : rootContext args traceId span decision = .ok ctx) : RootOk args traceId := by
  unfold rootContext at h
  split at h
  · assumption
  · cases h

theorem valid_traceStart (htrace : isHex 32 traceId = true) (hvalues : Registered values) :
    Draft.Valid {
      commandType := .traceStart, traceId, spanId := none, lifecycleSequence := 1
      payload := traceStartPayload env args spanId decision values, attributes := values } ↔
      Fits (traceStartPayload env args spanId decision values) :=
  ⟨fun h => h.fits, fun h => {
    traceId := htrace
    spanId := fun _ hid => nomatch hid
    sequence := le_refl 1
    fits := h
    content := fun item hitem =>
      (List.mem_append.mp hitem).elim (registered_traceStartPayload item) (hvalues item)
    identified := fun hne => absurd rfl hne }⟩

theorem rootTraceId_apply : rootTraceId env args s =
    (.ok (rootIds env args s).1, { s with uuids := (rootIds env args s).2 }) := by
  unfold rootTraceId rootIds
  cases args.traceIdOverride with
  | none => rfl
  | some id =>
    by_cases hid : id = ""
    · subst hid
      rfl
    · simp only [hid, if_false]
      rfl

theorem passes_startRoot : (startRoot env args).Passes s ↔ RootStartOk env args s := by
  rw [startRoot, passes_bind_of_ok rootTraceId_apply]
  unfold RootStartOk
  dsimp only
  cases hmetadata :
      (env.decide (rootIds env args s).1 args.traceType).recordMetadata with
  | false => exact ⟨fun _ h => (nomatch h), fun _ => passes_newHandle _⟩
  | true =>
    simp only [Bool.not_true, Bool.false_eq_true, if_false, true_imp_iff]
    rw [passes_drawUuid_bind, passes_lift_bind]
    constructor
    · rintro ⟨ctx, hctx, hrest⟩
      have hroot := rootOk_of_rootContext hctx
      rw [passes_lift_bind, cleaned_iff, passes_drawUuid_bind,
        passes_bind_const fun _ _ => passes_openSpan (registered_kept _ _), passes_emit,
        valid_traceStart hroot.traceId (registered_kept _ _)] at hrest
      exact ⟨hroot, hrest⟩
    · rintro ⟨hroot, hrest⟩
      refine ⟨_, dif_pos hroot, ?_⟩
      rw [passes_lift_bind, cleaned_iff, passes_drawUuid_bind,
        passes_bind_const fun _ _ => passes_openSpan (registered_kept _ _), passes_emit,
        valid_traceStart hroot.traceId (registered_kept _ _)]
      exact hrest

theorem keeps_startRoot : (startRoot env args).Keeps := by
  have hids : (rootTraceId env args).Keeps := fun s => by
    rw [rootTraceId_apply]
    exact ⟨rfl, rfl⟩
  refine hids.bind fun traceId => ?_
  dsimp only
  split
  · exact keeps_newHandle _
  · exact keeps_drawUuid.bind fun _ => (keeps_lift _).bind fun _ => (keeps_lift _).bind fun _ =>
      keeps_drawUuid.bind fun _ => (keeps_emit _ _).bind fun _ => keeps_openSpan

theorem passes_startSpanOrRoot : (startSpanOrRoot env args).Passes s ↔ StartOk env args s := by
  unfold StartOk Passes startSpanOrRoot
  cases (env.suppressed || !env.recording) with
  | true => exact ⟨fun _ h => (nomatch h), fun _ => passes_newHandle _⟩
  | false =>
    simp only [Bool.false_eq_true, if_false, true_imp_iff]
    cases args.parent s.ambient with
    | none => exact passes_startRoot
    | some parent => exact passes_startChild

theorem keeps_startSpanOrRoot : (startSpanOrRoot env args).Keeps := by
  intro s
  unfold startSpanOrRoot
  split
  · exact keeps_newHandle _ s
  · split
    · exact keeps_startRoot s
    · exact keeps_startChild s

theorem passes_rootEvent :
    (rootEvent env root i name attributes).Passes s ↔ RootEventOk env root i name attributes s := by
  unfold rootEvent RootEventOk
  cases root with
  | false => exact ⟨fun _ h => (nomatch h), fun _ => ⟨(), rfl⟩⟩
  | true =>
    simp only [if_true, true_imp_iff]
    exact passes_event

theorem keeps_rootEvent : (rootEvent env root i name attributes).Keeps := by
  unfold rootEvent
  split
  · exact keeps_event
  · exact keeps_pure ()

theorem passes_emitEnd {a : EndArgs} : (emitEnd env h ctx a duration).Passes s ↔ ∃ safe,
      safeError env a.error a.errorCode = .ok safe ∧ Fits (spanEndPayload a duration safe) ∧
      (h.root = true → Fits (traceEndPayload a duration)) := by
  rw [emitEnd, passes_lift_bind]
  refine exists_congr fun safe => and_congr_right fun _ => ?_
  have hlast : ∀ (_ : Unit) (t : Telemetry), Passes (if h.root = true then do
      let commandId ← drawUuid env
      emit env commandId (ctx.draft .traceEnd 2 (traceEndPayload a duration))
      else pure ()) t ↔ (h.root = true → Fits (traceEndPayload a duration)) := by
    intro _ t
    split
    · rw [passes_drawUuid_bind, passes_emit,
        valid_draft (by decide) registered_traceEndPayload registered_nil]
      simp [*]
    · exact ⟨fun _ h => absurd h ‹_›, fun _ => ⟨(), rfl⟩⟩
  rw [passes_drawUuid_bind, passes_bind_const hlast, passes_emit,
    valid_draft (by decide) registered_spanEndPayload registered_nil]

theorem keeps_emitEnd {a : EndArgs} : (emitEnd env h ctx a duration).Keeps := by
  refine (keeps_lift _).bind fun _ => keeps_drawUuid.bind fun _ => (keeps_emit _ _).bind fun _ => ?_
  split
  · exact keeps_drawUuid.bind fun _ => keeps_emit _ _
  · exact keeps_pure ()

theorem passes_endSpan {a : EndArgs} : (endSpan env i a).Passes s ↔ EndOk env i a s := by
  rw [endSpan, passes_withContext]
  unfold EndOk
  dsimp only
  cases hctx : (handleAt i s).context with
  | none => exact ⟨fun _ h => (nomatch h), fun _ _ h => (nomatch h)⟩
  | some ctx =>
    simp only [Option.some.injEq, forall_eq', Option.isSome_some, true_imp_iff]
    cases (handleAt i s).ended with
    | true => exact ⟨fun _ h => (nomatch h), fun _ => ⟨(), rfl⟩⟩
    | false =>
      simp only [Bool.false_eq_true, if_false, true_imp_iff]
      rw [passes_bind_unit, passes_rootEvent, passes_bind_unit, passes_readClock_bind,
        passes_bind_unit, passes_rootEvent, passes_emitEnd]
      exact and_congr_right fun _ => (and_iff_right ⟨(), rfl⟩)

theorem keeps_endSpan {a : EndArgs} : (endSpan env i a).Keeps := by
  refine keeps_withContext fun h ctx => ?_
  split
  · exact keeps_pure ()
  · exact keeps_rootEvent.bind fun _ => keeps_markEnded.bind fun _ =>
      (keeps_readClock _).bind fun _ => keeps_rootEvent.bind fun _ => keeps_emitEnd

theorem apply_bind_ok {x : Tele α} {f : α → Tele β} {b : β} (h : (x >>= f) s = (.ok b, t)) :
    ∃ a u, x s = (.ok a, u) ∧ f a u = (.ok b, t) := by
  rw [bind_apply] at h
  rcases hx : x s with ⟨_ | a, u⟩
  · rw [hx] at h
    cases h
  · rw [hx] at h
    exact ⟨a, u, rfl, h⟩

theorem handleAt_newHandle (hn : newHandle h s = (.ok n, t)) : handleAt n t = h := by
  cases hn
  simp [handleAt, List.getD]

theorem handleAt_startChild (h : startChild env args parent s = (.ok n, t)) :
    ∃ ctx, handleAt n t = { context := some ctx } := by
  obtain ⟨span, _, _, h⟩ := apply_bind_ok h
  obtain ⟨values, _, _, h⟩ := apply_bind_ok h
  obtain ⟨_, _, _, h⟩ := apply_bind_ok h
  obtain ⟨_, _, _, h⟩ := apply_bind_ok h
  exact ⟨parent.child span, handleAt_newHandle h⟩

theorem passes_completedChild :
    (completedChild env i operation component duration attributes).Passes s ↔
      CompletedOk i operation component duration attributes s := by
  rw [completedChild, passes_withContext]
  refine forall_congr' fun ctx => imp_congr_right fun _ => ?_
  have hend : ∀ n t parent, startChild env {
      operation, component, attributes, traceType := ctx.traceType, parentContext := ctx } parent s =
        (.ok n, t) →
      ((endSpan env n { durationOverride := some duration }).Passes t ↔
        Fits (spanEndPayload { durationOverride := some duration } duration (none, none, none))) := by
    intro n t parent hstart
    obtain ⟨ctx', hhandle⟩ := handleAt_startChild hstart
    rw [passes_endSpan]
    unfold EndOk
    rw [hhandle]
    simp [RootEventOk, endDuration, safeError]
  have hstart : ∀ args parent, ChildOk args parent ↔ (startChild env args parent).Passes s :=
    fun _ _ => passes_startChild.symm
  rw [hstart, passes_bind]
  constructor
  · rintro ⟨n, hn, hpasses⟩
    exact ⟨⟨n, hn⟩, (hend n _ _ (Prod.ext hn rfl)).mp hpasses⟩
  · rintro ⟨⟨n, hn⟩, hfits⟩
    exact ⟨n, hn, (hend n _ _ (Prod.ext hn rfl)).mpr hfits⟩

theorem keeps_completedChild :
    (completedChild env i operation component duration attributes).Keeps :=
  keeps_withContext fun _ _ => keeps_startChild.bind fun _ => keeps_endSpan

theorem passes_perform : (perform env i r).Passes s ↔ RecordingOk env i s r := by
  cases r with
  | event => exact passes_event
  | link => exact passes_link
  | artifact => exact passes_artifact
  | completedChild => exact passes_completedChild
  | finish => exact passes_endSpan

theorem keeps_perform : (perform env i r).Keeps := by
  cases r with
  | event => exact keeps_event
  | link => exact keeps_link
  | artifact => exact keeps_artifact
  | completedChild => exact keeps_completedChild
  | finish => exact keeps_endSpan

/-- What code with its telemetry does: it keeps the context variable, its exceptions grow, and
they stay the same exactly when it is accepted, in which case it gives `outcome`. -/
structure Behaves (s : Telemetry) (result : Except Raised α × Telemetry) (accepted : Prop)
    (outcome : Except Raised α) : Prop where
  ambient : result.2.ambient = s.ambient
  leaks : s.leaks <+: result.2.leaks
  accepted_iff : result.2.leaks = s.leaks ↔ accepted
  outcome : accepted → result.1 = outcome

theorem leaks_leak_ne {e : Raised} {leaks : List Raised} (h : leaks <+: s.leaks) :
    (s.leak e).leaks ≠ leaks := by
  intro heq
  have hlength := h.length_le
  have hsucc : (s.leak e).leaks.length = s.leaks.length + 1 := by simp [Telemetry.leak]
  rw [heq] at hsucc
  omega

theorem ambient_leave {context : Option TraceContext} {u : Telemetry}
    (h : u.ambient = (t.enter context).ambient) : (u.leave context t.ambient).ambient = t.ambient := by
  cases context with
  | none => exact h
  | some ctx => rfl

theorem block_behaves {body : ℕ → Telemetry → Except Raised α × Telemetry}
    {bodyOk : ℕ → Telemetry → Prop}
    (hbody : ∀ n t, Behaves t (body n t) (bodyOk n t) outcome) :
    Behaves s (block env args body s) (BlockOk env args body bodyOk outcome s) outcome := by
  have hkeeps := (keeps_startSpanOrRoot : (startSpanOrRoot env args).Keeps) s
  rcases hstart : startSpanOrRoot env args s with ⟨e | n, t⟩
  · rw [hstart] at hkeeps
    have hblock : block env args body s = (.error e, t.leak e) := by
      simp only [block, hstart]
    have hrefused : ¬ BlockOk env args body bodyOk outcome s := fun hok => by
      obtain ⟨n, hn⟩ := passes_startSpanOrRoot.mpr hok.1
      rw [hstart] at hn
      cases hn
    have hfront : s.leaks <+: t.leaks := hkeeps.2 ▸ List.prefix_refl _
    constructor
    · rw [hblock]
      exact hkeeps.1
    · rw [hblock]
      exact hfront.trans (List.prefix_append _ _)
    · rw [hblock]
      exact ⟨fun heq => absurd heq (leaks_leak_ne hfront), fun hok => absurd hok hrefused⟩
    · exact fun hok => absurd hok hrefused
  · rw [hstart] at hkeeps
    have hb := hbody n (t.enter (handleAt n t).context)
    have hok : BlockOk env args body bodyOk outcome s ↔
        bodyOk n (t.enter (handleAt n t).context) ∧
          EndOk env n (exitArgs outcome) (body n (t.enter (handleAt n t).context)).2 := by
      unfold BlockOk
      rw [and_iff_right (passes_startSpanOrRoot.mp ⟨n, by rw [hstart]⟩), hstart]
      exact ⟨fun h => h n t rfl, fun h n' t' heq => by cases heq; exact h⟩
    rcases hrun : body n (t.enter (handleAt n t).context) with ⟨result, u⟩
    have hambient : u.ambient = (t.enter (handleAt n t).context).ambient := by
      rw [← hb.ambient, hrun]
    have hleaks : s.leaks <+: u.leaks := by
      have hfront := hb.leaks
      rw [hrun] at hfront
      exact hkeeps.2 ▸ hfront
    have haccepted : u.leaks = s.leaks ↔ bodyOk n (t.enter (handleAt n t).context) := by
      rw [← hb.accepted_iff, hrun, ← hkeeps.2]
      exact Iff.rfl
    have houtcome : bodyOk n (t.enter (handleAt n t).context) → result = outcome := fun h => by
      rw [← hb.outcome h, hrun]
    rw [hrun] at hok
    have hend := (keeps_endSpan : (endSpan env n (exitArgs result)).Keeps) u
    have hpasses : (endSpan env n (exitArgs result)).Passes u ↔
        EndOk env n (exitArgs result) u := passes_endSpan
    rcases hexit : endSpan env n (exitArgs result) u with ⟨e | ⟨⟩, v⟩
    · rw [hexit] at hend
      have hblock : block env args body s =
          (.error e, (v.leak e).leave (handleAt n t).context t.ambient) := by
        simp only [block, hstart, hrun, hexit]
      have hrefused : ¬ BlockOk env args body bodyOk outcome s := fun h => by
        obtain ⟨hbodyOk, hendOk⟩ := hok.mp h
        rw [← houtcome hbodyOk] at hendOk
        obtain ⟨_, hok⟩ := hpasses.mpr hendOk
        rw [hexit] at hok
        cases hok
      have hfront : s.leaks <+: v.leaks := hend.2 ▸ hleaks
      constructor
      · rw [hblock]
        exact (ambient_leave (hend.1.trans hambient)).trans hkeeps.1
      · rw [hblock]
        exact hfront.trans (List.prefix_append _ _)
      · rw [hblock]
        exact ⟨fun heq => absurd heq (leaks_leak_ne hfront), fun h => absurd h hrefused⟩
      · exact fun h => absurd h hrefused
    · rw [hexit] at hend
      have hblock : block env args body s =
          (result, v.leave (handleAt n t).context t.ambient) := by
        simp only [block, hstart, hrun, hexit]
      have hendOk : EndOk env n (exitArgs result) u := hpasses.mp ⟨(), by rw [hexit]⟩
      constructor
      · rw [hblock]
        exact (ambient_leave (hend.1.trans hambient)).trans hkeeps.1
      · rw [hblock]
        exact hend.2 ▸ hleaks
      · rw [hblock, hok, ← haccepted]
        refine ⟨fun heq => ?_, fun h => hend.2.trans h.1⟩
        have hsame : u.leaks = s.leaks := hend.2.symm.trans heq
        exact ⟨hsame, houtcome (haccepted.mp hsame) ▸ hendOk⟩
      · intro h
        rw [hblock]
        exact houtcome (hok.mp h).1

theorem eq_of_prefixes {a b c : List Raised} (hab : a <+: b) (hbc : b <+: c) :
    c = a ↔ b = a ∧ c = b := by
  refine ⟨fun h => ?_, fun ⟨hb, hc⟩ => hc.trans hb⟩
  subst h
  have hb := hab.eq_of_length_le hbc.length_le
  exact ⟨hb.symm, hb⟩

theorem Behaves.then {result : Except Raised α × Telemetry} {restOk : Prop}
    {plain : Except Raised α} (h : Behaves s first ok outcome)
    (hrest : Behaves first.2 result restOk plain) : Behaves s result (ok ∧ restOk) plain where
  ambient := hrest.ambient.trans h.ambient
  leaks := h.leaks.trans hrest.leaks
  accepted_iff := by
    rw [eq_of_prefixes h.leaks hrest.leaks, h.accepted_iff, hrest.accepted_iff]
  outcome := fun hok => hrest.outcome hok.2

theorem observe_ok {x : Tele Unit} (h : x.Passes s) : observe x s = (none, (x s).2) := by
  obtain ⟨u, hu⟩ := h
  unfold observe
  rcases hx : x s with ⟨e | ⟨⟩, t⟩
  · rw [hx] at hu
    cases hu
  · rfl

theorem observe_raised {x : Tele Unit} (h : ¬ x.Passes s) :
    ∃ e, observe x s = (some e, (x s).2.leak e) := by
  unfold observe
  rcases hx : x s with ⟨e | ⟨⟩, t⟩
  · exact ⟨e, rfl⟩
  · exact absurd ⟨(), by rw [hx]⟩ h

/-- After the exception of a block the rest does not matter. -/
theorem Behaves.then_of_outcome {rest : Except Raised α → Except Raised α × Telemetry}
    {restOk : Except Raised α → Prop} {plain : Except Raised α → Except Raised α}
    (h : Behaves s first ok outcome)
    (hrest : ∀ o, Behaves first.2 (rest o) (restOk o) (plain o)) :
    Behaves s (rest first.1) (ok ∧ restOk outcome) (plain outcome) := by
  by_cases hok : ok
  · rw [← h.outcome hok]
    exact h.then (hrest first.1)
  · have hr := hrest first.1
    refine ⟨hr.ambient.trans h.ambient, h.leaks.trans hr.leaks, ?_, fun hboth => absurd hboth.1 hok⟩
    rw [eq_of_prefixes h.leaks hr.leaks, h.accepted_iff]
    exact ⟨fun hboth => absurd hboth.1 hok, fun hboth => absurd hboth.1 hok⟩

/-- After a call of the telemetry layer that returns the code goes on as without it. After
one that raises, the exception has reached the code whatever follows. -/
theorem observe_behaves {x : Tele Unit} {accepted : Prop} {rest : Option Raised → Telemetry →
      Except Raised α × Telemetry} {restOk : Option Raised → Telemetry → Prop}
    {plain : Option Raised → Except Raised α} (hkeeps : x.Keeps) (hpasses : x.Passes s ↔ accepted)
    (hrest : ∀ o t, Behaves t (rest o t) (restOk o t) (plain o)) :
    Behaves s (rest (observe x s).1 (observe x s).2) (accepted ∧ restOk none (x s).2)
      (plain none) := by
  obtain ⟨hambient, hleaks⟩ := hkeeps s
  by_cases hx : x.Passes s
  · have hr := hrest none (x s).2
    rw [observe_ok hx, and_iff_right (hpasses.mp hx)]
    exact ⟨hr.ambient.trans hambient, hleaks ▸ hr.leaks, hleaks ▸ hr.accepted_iff, hr.outcome⟩
  · obtain ⟨e, he⟩ := observe_raised hx
    have hr := hrest (some e) ((x s).2.leak e)
    have hrefused : ¬ (accepted ∧ restOk none (x s).2) := fun h => hx (hpasses.mpr h.1)
    have hfront : s.leaks <+: (x s).2.leaks := hleaks ▸ List.prefix_refl _
    have hgrown : s.leaks <+: ((x s).2.leak e).leaks := hfront.trans (List.prefix_append _ _)
    rw [he]
    refine ⟨hr.ambient.trans hambient, hgrown.trans hr.leaks, ?_, fun h => absurd h hrefused⟩
    rw [eq_of_prefixes hgrown hr.leaks]
    exact ⟨fun h => absurd h.1 (leaks_leak_ne hfront), fun h => absurd h hrefused⟩

theorem run_behaves (p : Instrumented α) : ∀ handles s,
    Behaves s (p.run env handles s) (p.Accepted env handles s) p.plain := by
  induction p with
  | done outcome =>
    exact fun handles s => ⟨rfl, List.prefix_refl _, ⟨fun _ => trivial, fun _ => rfl⟩, fun _ => rfl⟩
  | record depth r next ih =>
    intro handles s
    unfold Instrumented.run Instrumented.Accepted
    cases handles[depth]? with
    | none => exact ih none handles s
    | some i =>
      exact observe_behaves keeps_perform passes_perform fun o t => ih o handles t
  | span args body next ihbody ihnext =>
    intro handles s
    have hblock : Behaves s (block env args (fun i => body.run env (i :: handles)) s)
        (BlockOk env args (fun i => body.run env (i :: handles))
          (fun i => body.Accepted env (i :: handles)) body.plain s) body.plain :=
      block_behaves fun n t => ihbody (n :: handles) t
    exact hblock.then_of_outcome fun o => ihnext o handles _
  | child operation component attributes body next ihbody ihnext =>
    intro handles s
    refine Behaves.then_of_outcome ?_ fun o => ihnext o handles _
    cases s.ambient with
    | none => exact ihbody handles s
    | some ctx => exact block_behaves fun _ t => ihbody handles t

section Example

def someUuid : Uuid := ⟨"0123456789abcdef0123456789abcdef", by decide⟩

def samplingAll : Surroundings where
  recording := true
  suppressed := false
  decide _ _ := ⟨true, false, false⟩
  uuid _ := someUuid
  now _ := "2026-01-01T00:00:00Z"
  elapsed _ := ⟨"1.5", "1.5", false⟩
  keyId := none
  algorithm := "HMAC-SHA256"
  digest _ := none
  exporterRaises _ := false
  queue _ := ⟨false, none, false⟩

/-- `RetrievalService.search` for a repository id that a caller chooses. -/
def searchFor (repoId : String) : Instrumented String :=
  .span {
      operation := "retrieval.search", traceType := "retrieval", component := "retrieval"
      repoId := some repoId, attributes := [("cra.repo.id", .json (.text repoId))] }
    (.done (.ok "candidates")) .done

/-- An id of more than 256 characters makes the search raise before it begins. -/
theorem searchFor_raises {repoId : String} (h : 256 < repoId.length) :
    ∃ e, ((searchFor repoId).run samplingAll [] {}).1 = .error e := by
  have hrefused : ∀ n t, startSpanOrRoot samplingAll {
      operation := "retrieval.search", traceType := "retrieval", component := "retrieval"
      repoId := some repoId, attributes := [("cra.repo.id", .json (.text repoId))] } {} ≠
        (.ok n, t) := fun n t hstart => by
    have hok : RootStartOk samplingAll _ {} :=
      passes_startRoot.mp ⟨n, congrArg Prod.fst hstart⟩
    have hlength := (hok rfl).1.ids (some repoId) (by simp) repoId rfl
    omega
  unfold searchFor Instrumented.run block
  dsimp only
  rcases hstart : startSpanOrRoot samplingAll _ _ with ⟨e | n, t⟩
  · exact ⟨e, rfl⟩
  · exact absurd hstart (hrefused n t)

end Example

end CodeResearch.Observability
