import CodeResearch.Observability.Transparency

/-!
# Counters of reported metadata

A recorder counts what the events of its spans report. The attributes that it counts are
those that the redaction and the registry have left, and the redaction takes every key that
names a token for a secret.
-/
namespace CodeResearch.Observability

/-- The counters of `InMemoryTelemetryMetrics`. -/
abbrev Counters := String → ℤ

def Counters.increment (counters : Counters) (name : String) (value : ℤ) : Counters :=
  fun other => if other = name then counters other + value else counters other

def lookup (key : String) (values : Payload) : Option JsonValue :=
  (values.find? fun item => item.1 = key).map Prod.snd

def fieldText (key missing : String) (payload : Payload) : String :=
  match lookup key payload with
  | none => missing
  | some (.text value) => value
  | some value => String.ofList value.dumps

def countedAttributes : List (String × String) :=
  [("cra.token.input", "provider.token.input"), ("cra.token.output", "provider.token.output"),
    ("cra.token.total", "provider.token.total"),
    ("cra.candidate.count", "retrieval.candidate.total")]

/-- The loop body of `observe` over the counted attributes. -/
def Counters.count (attributes : Payload) (counters : Counters) (pair : String × String) :
    Counters :=
  match lookup pair.1 attributes with
  | some (.int value) => counters.increment pair.2 value
  | _ => counters

/-- `InMemoryTelemetryMetrics.observe`. -/
def Counters.observe (counters : Counters) (draft : Draft) : Counters :=
  match draft.commandType with
  | .traceStart =>
    counters.increment ("trace.started." ++ fieldText "trace_type" "unknown" draft.payload) 1
  | .traceEnd =>
    counters.increment ("trace.terminal." ++ fieldText "status" "unknown" draft.payload) 1
  | .spanStart =>
    counters.increment ("span.started." ++ fieldText "component" "unknown" draft.payload) 1
  | .spanEvent =>
    let name := fieldText "name" "unknown" draft.payload
    countedAttributes.foldl (Counters.count draft.attributes)
      (counters.increment ("event." ++ if name = "" then "unknown" else name) 1)
  | _ => counters

/-- A call of `SpanHandle.event` on a span with a context. -/
structure EventCall where
  context : TraceContext
  eventId : Uuid
  producerSequence : ℕ
  name : String
  severity : String
  attributes : Attributes

/-- The arguments of the command of an event, as `recordEvent` gives them. -/
def EventCall.draft (e : EventCall) (values : Payload) : Draft :=
  e.context.draft .spanEvent (max 2 (e.producerSequence + 1))
    (eventPayload e.eventId e.producerSequence e.name e.severity (trim values)) (trim values)

def Counters.record (counters : Counters) (e : EventCall) : Counters :=
  match cleanAttributes e.attributes with
  | .error _ => counters
  | .ok values => if (e.draft values).Valid then counters.observe (e.draft values) else counters

def countersAfter (events : List EventCall) : Counters := events.foldl Counters.record fun _ => 0

def reported (key : String) (attributes : Attributes) : ℤ :=
  match attributes.find? fun a => a.1 = key with
  | some (_, .json (.int value)) => value
  | _ => 0

def tokenKeys : List String := ["cra.token.input", "cra.token.output", "cra.token.total"]

theorem secretPattern_registered : ∀ d ∈ attributeDefinitions,
    (secretPattern d.key ↔ d.key ∈ tokenKeys) ∧ d.removed = false := by
  decide +kernel

def plainValues (attributes : Attributes) : Payload :=
  attributes.filterMap fun a => match a.2 with
    | .json value => some (a.1, value)
    | .object _ => none

/-- Every key is registered, with a value of its type that names no secret. -/
structure WellTyped (attributes : Attributes) : Prop where
  typed : ∀ a ∈ attributes, ∃ d ∈ attributeDefinition a.1, (matchesType a.2 d.valueType).isSome
  clean : ∀ a ∈ attributes, a.2.secret = false

instance (attributes : Attributes) : Decidable (WellTyped attributes) :=
  decidable_of_iff
    ((∀ a ∈ attributes, ∃ d ∈ attributeDefinition a.1, (matchesType a.2 d.valueType).isSome) ∧
      ∀ a ∈ attributes, a.2.secret = false)
    ⟨fun ⟨h, h'⟩ => ⟨h, h'⟩, fun h => ⟨h.typed, h.clean⟩⟩

variable {json : JsonValue} {value : AttributeValue} {key : String} {item : String × JsonValue}
  {pair : String × String}

theorem json_of_matchesType {type : ValueType}
    (h : matchesType value type = some json) : value = .json json := by
  unfold matchesType at h
  split at h <;> cases h <;> rfl

variable {diagnostics : Bool} {attributes : Attributes} {values : Payload}

theorem json_of_kept (h : sanitizeOne diagnostics key value = .kept json) : value = .json json := by
  unfold sanitizeOne at h
  cases hd : attributeDefinition key with
  | none => simp [hd] at h
  | some d =>
    simp only [hd] at h
    split_ifs at h
    cases hmatch : matchesType value d.valueType with
    | none => simp [hmatch] at h
    | some found =>
      simp only [hmatch, Sanitized.kept.injEq] at h
      exact h ▸ json_of_matchesType hmatch

theorem definition_of_wellTyped (h : WellTyped attributes)
    {a : String × AttributeValue} (ha : a ∈ attributes) :
    ∃ d ∈ attributeDefinitions, d.key = a.1 ∧ ∃ json, matchesType a.2 d.valueType = some json ∧
      sanitizeOne true a.1 a.2 = .kept json := by
  obtain ⟨d, hd, hsome⟩ := h.typed a ha
  obtain ⟨json, hjson⟩ := Option.isSome_iff_exists.mp hsome
  have hmem : d ∈ attributeDefinitions := List.mem_of_find?_eq_some hd
  have hkey : d.key = a.1 := by simpa using List.find?_some hd
  refine ⟨d, hmem, hkey, json, hjson, ?_⟩
  unfold sanitizeOne
  rw [Option.mem_def.mp hd]
  simp [(secretPattern_registered d hmem).2, hjson]

/-- Registered attributes without a token key are returned unchanged. -/
theorem cleanAttributes_unchanged (h : WellTyped attributes)
    (htokens : ∀ a ∈ attributes, a.1 ∉ tokenKeys) :
    cleanAttributes attributes true = .ok (plainValues attributes) := by
  have hall : redactAttributes attributes = attributes := by
    apply List.filter_eq_self.mpr
    intro a ha
    obtain ⟨d, hmem, hkey, _⟩ := definition_of_wellTyped h ha
    have hpattern : secretPattern a.1 = false := by
      rw [← hkey, Bool.eq_false_iff]
      exact fun hsecret => htokens a ha (hkey ▸ ((secretPattern_registered d hmem).1.mp hsecret))
    simp [hpattern, h.clean a ha]
  have hkept : ∀ a ∈ attributes, sanitizeOne true a.1 a.2 ≠ .mistyped := by
    intro a ha hmistyped
    obtain ⟨_, _, _, _, _, hone⟩ := definition_of_wellTyped h ha
    rw [hone] at hmistyped
    cases hmistyped
  unfold cleanAttributes
  rw [hall, sanitize_eq hkept]
  congr 1
  apply List.filterMap_congr
  intro a ha
  obtain ⟨_, _, _, json, hjson, hone⟩ := definition_of_wellTyped h ha
  rw [hone, json_of_matchesType hjson]

/-- No key and no text that is left matches the pattern of secrets. -/
theorem not_secret_of_cleaned
    (h : cleanAttributes attributes diagnostics = .ok values)
    (hitem : item ∈ values) : secretPattern item.1 = false ∧
      ∀ text, item.2 = .text text → secretPattern text = false := by
  have htyped := typed_of_cleanAttributes h
  rw [cleanAttributes_of_typed htyped] at h
  cases h
  obtain ⟨a, ha, hkept⟩ := List.mem_filterMap.mp hitem
  obtain ⟨_, hclean⟩ := List.mem_filter.mp ha
  simp only [Bool.and_eq_true, Bool.not_eq_true'] at hclean
  cases hone : sanitizeOne diagnostics a.1 a.2 with
  | skipped | mistyped => simp [hone] at hkept
  | kept json =>
    simp only [hone, Option.some.injEq] at hkept
    subst hkept
    refine ⟨hclean.1, fun text htext => ?_⟩
    have hvalue : a.2 = .json (.text text) := (json_of_kept hone).trans (congrArg _ htext)
    rw [hvalue] at hclean
    exact hclean.2

theorem secretPattern_tokenKeys : ∀ key ∈ tokenKeys, secretPattern key = true := by
  have hregistered : ∀ key ∈ tokenKeys, ∃ d ∈ attributeDefinitions, d.key = key := by decide
  intro key hkey
  obtain ⟨d, hd, rfl⟩ := hregistered key hkey
  exact (secretPattern_registered d hd).1.mpr hkey

theorem tokenKey_not_cleaned
    (h : cleanAttributes attributes diagnostics = .ok values)
    (hitem : item ∈ values) : item.1 ∉ tokenKeys := by
  intro hkey
  have hpattern := (not_secret_of_cleaned h hitem).1
  rw [secretPattern_tokenKeys item.1 hkey] at hpattern
  cases hpattern

def tokenCounters : List (String × String) := countedAttributes.take 3

theorem increment_ne {counters : Counters} {name other : String} (h : other ≠ name) (value : ℤ) :
    counters.increment name value other = counters other := if_neg h

theorem lookup_eq_none (h : ∀ item ∈ values, item.1 ≠ key) : lookup key values = none := by
  unfold lookup
  rw [List.find?_eq_none.mpr fun item hitem => by simpa using h item hitem]
  rfl

theorem fst_tokenCounters : ∀ pair ∈ tokenCounters, pair.1 ∈ tokenKeys := by decide

theorem event_ne_tokenCounter (name : String) : ∀ pair ∈ tokenCounters, pair.2 ≠ "event." ++ name := by
  have hhead : ∀ pair ∈ tokenCounters, pair.2.toList.head? = some 'p' := by decide
  intro pair hpair heq
  have hfirst := hhead pair hpair
  rw [heq, String.toList_append] at hfirst
  simp at hfirst

/-- An event whose attributes have no token key leaves the token counters alone. -/
theorem observe_event (counters : Counters) {draft : Draft} (htype : draft.commandType = .spanEvent)
    (hvalues : ∀ item ∈ draft.attributes, item.1 ∉ tokenKeys)
    (hpair : pair ∈ tokenCounters) : counters.observe draft pair.2 = counters pair.2 := by
  have hnone : ∀ key ∈ tokenKeys, lookup key draft.attributes = none := fun key hkey =>
    lookup_eq_none fun item hitem heq => hvalues item hitem (heq ▸ hkey)
  have hcandidate : ∀ pair ∈ tokenCounters, pair.2 ≠ "retrieval.candidate.total" := by decide
  have htoken : ∀ key ∈ tokenKeys, ∀ (metric : String) (c : Counters),
      Counters.count draft.attributes c (key, metric) = c := by
    intro key hkey metric c
    unfold Counters.count
    rw [hnone key hkey]
  have hcount : ∀ c : Counters, Counters.count draft.attributes c
      ("cra.candidate.count", "retrieval.candidate.total") pair.2 = c pair.2 := by
    intro c
    unfold Counters.count
    dsimp only
    cases lookup "cra.candidate.count" draft.attributes with
    | none => rfl
    | some json =>
      cases json with
      | int value => exact increment_ne (hcandidate pair hpair) value
      | _ => rfl
  unfold Counters.observe
  rw [htype]
  simp only [countedAttributes, List.foldl_cons, List.foldl_nil,
    htoken "cra.token.input" (by decide), htoken "cra.token.output" (by decide),
    htoken "cra.token.total" (by decide)]
  exact (hcount _).trans (increment_ne (event_ne_tokenCounter _ pair hpair) 1)

theorem countersAfter_tokens (events : List EventCall)
    (hpair : pair ∈ tokenCounters) : countersAfter events pair.2 = 0 := by
  have hrecord : ∀ (counters : Counters) (e : EventCall),
      counters.record e pair.2 = counters pair.2 := by
    intro counters e
    unfold Counters.record
    cases hclean : cleanAttributes e.attributes with
    | error _ => rfl
    | ok values =>
      dsimp only
      split_ifs with hvalid
      · apply observe_event counters rfl ?_ hpair
        intro item hitem
        have htrim : item ∈ (trimReversed values.reverse).reverse := hitem
        have hmem := mem_of_mem_trimReversed (List.mem_reverse.mp htrim)
        exact tokenKey_not_cleaned hclean (List.mem_reverse.mp hmem)
      · rfl
  have hfold : ∀ counters : Counters,
      events.foldl Counters.record counters pair.2 = counters pair.2 := by
    induction events with
    | nil => exact fun _ => rfl
    | cons e events ih => exact fun counters => (ih _).trans (hrecord counters e)
  exact hfold _

/-- What the claim says of the events of a recorder: each keeps its registered metadata, none
keeps a key that is not registered or a text that matches the pattern, and the counters of
tokens are the sums of what was reported. -/
structure Accounted (events : List EventCall) : Prop where
  survives : ∀ e ∈ events, cleanAttributes e.attributes true = .ok (plainValues e.attributes)
  registered : ∀ e ∈ events, ∀ diagnostics values,
    cleanAttributes e.attributes diagnostics = .ok values →
      ∀ item ∈ values, (∃ d ∈ attributeDefinitions, d.key = item.1) ∧
        ∀ text, item.2 = .text text → secretPattern text = false
  counted : ∀ pair ∈ tokenCounters,
    countersAfter events pair.2 = (events.map fun e => reported pair.1 e.attributes).sum

def demoEvent (attributes : Attributes) : EventCall where
  context :=
    { traceId := "00112233445566778899aabbccddeeff", spanId := "0123456789abcdef"
      traceType := "request", recordDiagnostics := false
      traceId_ok := by decide +kernel, spanId_ok := by decide +kernel }
  eventId := ⟨"00112233445566778899aabbccddeeff", by decide +kernel⟩
  producerSequence := 1
  name := "provider.completed"
  severity := "info"
  attributes := attributes

end CodeResearch.Observability
