import CodeResearch.Observability.Batches
import CodeResearch.Observability.Replay

/-!
# Deliveries

However commands are cut into batches, and whichever batches are sent again, the rows come
out alike up to the times that the clock leaves. The clock is read where a span starts after
it ended, so a `span_start` and its `span_end` cannot change places.
-/
namespace CodeResearch.Observability

/-- Commands in consecutive batches, after each of which commands that were sent may be sent
again. -/
inductive Delivery : List TelemetryCommand → List (List TelemetryCommand) → Prop
  | nil : Delivery [] []
  | next {sent batch : List TelemetryCommand} {batches : List (List TelemetryCommand)}
      (h : Delivery sent batches) : Delivery (sent ++ batch) (batches ++ [batch])
  | again {sent batch : List TelemetryCommand} {batches : List (List TelemetryCommand)}
      (h : Delivery sent batches) (hsent : ∀ command ∈ batch, command ∈ sent) :
      Delivery sent (batches ++ [batch])

theorem Delivery.single (commands : List TelemetryCommand) : Delivery commands [commands] :=
  Delivery.nil.next

namespace ObservabilityStore

variable {s t : ObservabilityStore} {command : TelemetryCommand} {commands : List TelemetryCommand}

def LateStarts (s : ObservabilityStore) (commands : List TelemetryCommand) : Prop :=
  ∃ before command after t, commands = before ++ command :: after ∧
    s.applyCommands before = .ok t ∧ t.LateStart command

theorem LateStarts.head (h : s.LateStart command) : s.LateStarts (command :: commands) :=
  ⟨[], command, commands, s, rfl, rfl, h⟩

variable {after before : List TelemetryCommand}

theorem LateStarts.append (hbefore : s.applyCommands before = .ok t) (h : t.LateStarts after) :
    s.LateStarts (before ++ after) := by
  obtain ⟨middle, command, rest, u, rfl, hmiddle, hlate⟩ := h
  refine ⟨before ++ middle, command, rest, u, by rw [List.append_assoc], ?_, hlate⟩
  unfold applyCommands at hbefore hmiddle ⊢
  rw [List.foldlM_append, hbefore]
  exact hmiddle

theorem LateStarts.left (h : s.LateStarts before) : s.LateStarts (before ++ after) := by
  obtain ⟨first, command, rest, u, rfl, hfirst, hlate⟩ := h
  exact ⟨first, command, rest ++ after, u, by simp, hfirst, hlate⟩

/-- The first of two commands starts a span that is not there, and the second ends it while it
runs. -/
structure Lives (s : ObservabilityStore) (before between : List TelemetryCommand)
    (start finish : TelemetryCommand) : Prop where
  startType : start.commandType = .spanStart
  finishType : finish.commandType = .spanEnd
  trace : finish.traceId = start.traceId
  span : finish.span = start.span
  began : ∃ t u, s.applyCommands before = .ok t ∧ t.applyCommand start = .ok u ∧
    t.spans.find? (start.traceId, start.span) = none ∧
      (u.spans.find? (start.traceId, start.span)).isSome
  ended : ∃ t u, s.applyCommands (before ++ start :: between) = .ok t ∧
    t.applyCommand finish = .ok u ∧
      (∃ row ∈ t.spans.find? (start.traceId, start.span), row.status = "running") ∧
        ∃ row ∈ u.spans.find? (start.traceId, start.span), row.status ≠ "running"

/-- A delivery of the commands, or of them with a `span_start` and its `span_end` swapped. -/
inductive Variant (s : ObservabilityStore) (commands : List TelemetryCommand)
    (batches : List (List TelemetryCommand)) : Prop
  | delivered (h : Delivery commands batches)
  | swapped (before between after : List TelemetryCommand) (start finish : TelemetryCommand)
      (hcommands : commands = before ++ start :: between ++ finish :: after)
      (hlives : s.Lives before between start finish)
      (h : Delivery (before ++ finish :: between ++ start :: after) batches)

/-- No span starts late, and none lives through the commands. -/
structure Punctual (s : ObservabilityStore) (commands : List TelemetryCommand) : Prop where
  onTime : ¬ s.LateStarts commands
  lifeless : ∀ before start between finish after,
    commands = before ++ start :: between ++ finish :: after → ¬ s.Lives before between start finish

end ObservabilityStore

namespace Records

def Insensitive (r : Records) (commands : List TelemetryCommand) : Prop :=
  ∀ clock t, r.applyBatch clock commands = .ok t → ∀ clock' batches,
    r.store.Variant commands batches → ∃ t', r.applyBatches clock' batches = .ok t' ∧ t.SameRows t'

variable {r t : Records} {command : TelemetryCommand} {clock clock' : String → String}

theorem applyCommand_clock (h : ¬ r.store.LateStart command) (now now' : String) :
    r.applyCommand now command = r.applyCommand now' command := by
  unfold applyCommand
  cases ensure (command.lifecycleSequence < 2 ^ 63) StoreError.overflowError with
  | error e => rfl
  | ok _ =>
    rw [except_bind_ok, except_bind_ok]
    dsimp only
    split
    · rfl
    · rename_i records hinsert
      unfold applyOne
      cases htype : command.commandType with
      | spanStart =>
        dsimp only
        unfold spanStart
        cases hstart : Records.insertSpan
          { r with store := { r.store with telemetryCommands := records } } command with
        | error e => rfl
        | ok u =>
          rw [except_bind_ok, except_bind_ok]
          dsimp only
          have hstarted := insertSpan_follows.ok hstart
          cases hrow : u.store.pendingTerminal command.traceId command.span with
          | none => rfl
          | some row =>
            obtain ⟨_, htrace, hspan⟩ := ObservabilityStore.pendingTerminal_key hrow
            have hopen : ¬ u.store.Closes (row.traceId, row.spanId) row.lifecycleSequence := by
              rw [htrace, hspan]
              exact fun hcloses => h ⟨htype, records, u.store, row, hinsert, hstarted, hrow,
                hcloses⟩
            dsimp only
            unfold applySpanTerminal
            simp only [if_neg hopen]
      | traceStart | spanEvent | spanLink | artifactRef | spanEnd | traceEnd => rfl

def withCounts (r : Records) (counts : String → ℕ × ℕ) : Records :=
  { r with
    traceColumns := fun id =>
      { r.traceColumns id with spanCount := (counts id).1, eventCount := (counts id).2 } }

@[simp] theorem store_withCounts (r : Records) (f : String → ℕ × ℕ) :
    (r.withCounts f).store = r.store := rfl

def counts (r : Records) (id : String) : ℕ × ℕ := (r.spanCount id, r.eventCount id)

def heldCounts (r : Records) (id : String) : ℕ × ℕ :=
  ((r.traceColumns id).spanCount, (r.traceColumns id).eventCount)

theorem refreshCounts_eq (r : Records) (traceIds : List String) : r.refreshCounts traceIds =
    r.withCounts fun id => if id ∈ traceIds then r.counts id else r.heldCounts id := by
  unfold refreshCounts withCounts
  congr 1
  funext id
  dsimp only
  split_ifs <;> rfl

theorem withCounts_withCounts (r : Records) (f g : String → ℕ × ℕ) :
    (r.withCounts f).withCounts g = r.withCounts g := rfl

theorem update_withCounts (columns : String → TraceColumns) (f : String → ℕ × ℕ) (id : String)
    (new : TraceColumns) (g : ℕ × ℕ) :
    Function.update (fun id => { columns id with
        spanCount := (f id).1, eventCount := (f id).2 }) id
          { new with spanCount := g.1, eventCount := g.2 } =
      fun id' => { Function.update columns id new id' with
        spanCount := (Function.update f id g id').1, eventCount := (Function.update f id g id').2 } := by
  funext id'
  by_cases h : id' = id
  · subst h
    simp
  · simp [Function.update_of_ne h]

def Ignores (command : TelemetryCommand) (f : String → ℕ × ℕ) (x y : Except StoreError Records) :
    Prop :=
  ∃ g : String → ℕ × ℕ, (∀ id ≠ command.traceId, g id = f id) ∧ x = y.map fun t => t.withCounts g

theorem traceStart_ignores (f : String → ℕ × ℕ) :
    Ignores command f ((r.withCounts f).traceStart command) (r.traceStart command) := by
  unfold traceStart
  rw [store_withCounts]
  cases r.store.traceStart command with
  | error e => exact ⟨f, fun _ _ => rfl, rfl⟩
  | ok store =>
    rw [except_bind_ok, except_bind_ok]
    by_cases hinserts : Inserts r.store.traces store.traces command.traceId
    · refine ⟨Function.update f command.traceId (0, 0), fun id h => Function.update_of_ne h _ _, ?_⟩
      rw [if_pos hinserts, if_pos hinserts]
      refine congrArg Except.ok ?_
      unfold withCounts
      congr 1
      exact update_withCounts r.traceColumns f command.traceId (startColumns command) (0, 0)
    · refine ⟨f, fun _ _ => rfl, ?_⟩
      rw [if_neg hinserts, if_neg hinserts]
      rfl

theorem traceEnd_ignores (f : String → ℕ × ℕ) :
    Ignores command f ((r.withCounts f).traceEnd command) (r.traceEnd command) := by
  unfold traceEnd
  rw [store_withCounts]
  refine ⟨f, fun _ _ => rfl, ?_⟩
  cases r.store.traceEnd command with
  | error e => rfl
  | ok store =>
    rw [except_bind_ok, except_bind_ok]
    by_cases hrunning : ∃ row ∈ r.store.traces.find? command.traceId, row.status = "running"
    · rw [if_pos hrunning, if_pos hrunning]
      refine congrArg Except.ok ?_
      unfold withCounts
      congr 1
      have h := update_withCounts r.traceColumns f command.traceId
        (endColumns command (r.traceColumns command.traceId)) (f command.traceId)
      rw [Function.update_eq_self] at h
      exact h
    · rw [if_neg hrunning, if_neg hrunning]
      rfl

theorem applySpanTerminal_withCounts (f : String → ℕ × ℕ)
    (occurredAt traceId spanId commandId : String) (sequence : ℕ) (payload : Payload) :
    (r.withCounts f).applySpanTerminal occurredAt traceId spanId commandId sequence payload =
      (r.applySpanTerminal occurredAt traceId spanId commandId sequence payload).map
        fun t => t.withCounts f := by
  unfold applySpanTerminal
  rw [store_withCounts]
  cases r.store.applySpanTerminal traceId spanId commandId sequence payload with
  | error e => rfl
  | ok store =>
    rw [except_bind_ok, except_bind_ok]
    by_cases hcloses : r.store.Closes (traceId, spanId) sequence
    · rw [if_pos hcloses, if_pos hcloses]
      rfl
    · rw [if_neg hcloses, if_neg hcloses]
      rfl

theorem spanStart_withCounts (f : String → ℕ × ℕ) (now : String) :
    (r.withCounts f).spanStart now command =
      (r.spanStart now command).map fun t => t.withCounts f := by
  have hinsert : (r.withCounts f).insertSpan command =
      (r.insertSpan command).map fun t => t.withCounts f := by
    unfold insertSpan
    rw [store_withCounts]
    cases r.store.insertSpan command with
    | error e => rfl
    | ok store =>
      rw [except_bind_ok, except_bind_ok]
      by_cases h : Inserts r.store.spans store.spans (command.traceId, command.span)
      · rw [if_pos h, if_pos h]
        rfl
      · rw [if_neg h, if_neg h]
        rfl
  unfold spanStart
  rw [hinsert]
  cases r.insertSpan command with
  | error e => rfl
  | ok u =>
    change (Except.ok (u.withCounts f) >>= _) = _
    rw [except_bind_ok, except_bind_ok, store_withCounts]
    cases u.store.pendingTerminal command.traceId command.span with
    | none => rfl
    | some row =>
      dsimp only
      rw [applySpanTerminal_withCounts]
      cases u.applySpanTerminal now row.traceId row.spanId row.commandId row.lifecycleSequence
        row.payload <;> rfl

theorem applyOne_ignores (f : String → ℕ × ℕ) (now : String) :
    Ignores command f ((r.withCounts f).applyOne now command) (r.applyOne now command) := by
  have hsame : ∀ {x y : Except StoreError Records}, (x = y.map fun t => t.withCounts f) →
      Ignores command f x y := fun h => ⟨f, fun _ _ => rfl, h⟩
  unfold applyOne
  cases command.commandType with
  | traceStart => exact traceStart_ignores f
  | traceEnd => exact traceEnd_ignores f
  | spanStart => exact hsame (spanStart_withCounts f now)
  | spanEnd =>
    refine hsame ?_
    unfold spanEnd
    rw [store_withCounts]
    split_ifs
    · exact applySpanTerminal_withCounts ..
    · cases r.store.spanEnd command <;> rfl
  | spanEvent =>
    refine hsame ?_
    unfold spanEvent
    rw [store_withCounts]
    cases r.store.spanEvent command with
    | error e => rfl
    | ok store =>
      rw [except_bind_ok, except_bind_ok]
      dsimp only
      split_ifs <;> rfl
  | spanLink =>
    refine hsame ?_
    unfold spanLink
    rw [store_withCounts]
    cases r.store.spanLink command with
    | error e => rfl
    | ok store =>
      rw [except_bind_ok, except_bind_ok]
      dsimp only
      split_ifs <;> rfl
  | artifactRef =>
    refine hsame ?_
    unfold artifactRef
    rw [store_withCounts]
    cases r.store.artifactRef command with
    | error e => rfl
    | ok store =>
      rw [except_bind_ok, except_bind_ok]
      dsimp only
      split_ifs <;> rfl

/-- Whatever counts the columns hold, a command does the same. -/
theorem applyCommand_ignores (r : Records) (f : String → ℕ × ℕ) (now : String)
    (command : TelemetryCommand) :
    Ignores command f ((r.withCounts f).applyCommand now command) (r.applyCommand now command) := by
  unfold applyCommand
  rw [store_withCounts]
  cases ensure (command.lifecycleSequence < 2 ^ 63) StoreError.overflowError with
  | error e => exact ⟨f, fun _ _ => rfl, rfl⟩
  | ok _ =>
    rw [except_bind_ok, except_bind_ok]
    dsimp only
    split
    · exact ⟨f, fun _ _ => rfl, rfl⟩
    · rename_i records _
      exact applyOne_ignores (r := { r with
        store := { r.store with telemetryCommands := records } }) f now

variable {s : ObservabilityStore} {state state' : Records × List String}
  {commands after before : List TelemetryCommand}

variable {id : String}

theorem counts_of_adds (h : s.Adds command t.store) (hr : r.store = s) (hne : id ≠ command.traceId)
    : t.counts id = r.counts id := by
  subst hr
  have hspan : ∀ u : Records, u.spanCount id =
      ((u.store.spans.rows.map SpanRow.key).filter fun key => key.1 = id).length := by
    intro u
    rw [List.filter_map, List.length_map]
    rfl
  have hevent : ∀ u : Records, u.eventCount id =
      ((u.store.spanEvents.rows.map EventRow.traceId).filter fun trace => trace = id).length := by
    intro u
    rw [List.filter_map, List.length_map]
    rfl
  refine Prod.ext ?_ ?_
  · change t.spanCount id = r.spanCount id
    rw [hspan, hspan]
    rcases h.spans with hsame | hadded
    · rw [hsame]
    · rw [hadded, List.filter_append, List.filter_singleton]
      simp [hne.symm]
  · change t.eventCount id = r.eventCount id
    rw [hevent, hevent]
    rcases h.events with hsame | hadded
    · rw [hsame]
    · rw [hadded, List.filter_append, List.filter_singleton]
      simp [hne.symm]

theorem applyOne_traceColumns (now : String) (hne : id ≠ command.traceId) :
    Ensures (fun t => t.traceColumns id = r.traceColumns id) (r.applyOne now command) := by
  unfold applyOne
  cases command.commandType with
  | traceStart | traceEnd =>
    refine .after fun store => ?_
    split_ifs
    · exact .pure (Function.update_of_ne hne _ _)
    · exact .pure rfl
  | spanStart =>
    refine .bind (Q := fun u => u.traceColumns = r.traceColumns) ?_ fun u hu => ?_
    · refine .after fun store => ?_
      split_ifs <;> exact .pure rfl
    · cases u.store.pendingTerminal command.traceId command.span with
      | none => exact .pure (by rw [hu])
      | some row =>
        refine .bind (Q := fun v => v.traceColumns = r.traceColumns) ?_ fun v hv => ?_
        · refine .after fun store => ?_
          split_ifs <;> exact .pure hu
        · exact .pure (congrFun hv id)
  | spanEnd =>
    unfold spanEnd
    split_ifs
    · refine .after fun store => ?_
      split_ifs <;> exact .pure rfl
    · exact .after fun store => .pure rfl
  | spanEvent =>
    refine .after fun store => ?_
    dsimp only
    split_ifs <;> exact .pure rfl
  | spanLink | artifactRef =>
    refine .after fun store => ?_
    split_ifs <;> exact .pure rfl

theorem applyCommand_traceColumns (r : Records) (now : String) (command : TelemetryCommand)
    (hne : id ≠ command.traceId) :
    Ensures (fun t => t.traceColumns id = r.traceColumns id) (r.applyCommand now command) := by
  unfold applyCommand
  refine .after fun _ => ?_
  dsimp only
  split
  · exact .pure rfl
  · exact applyOne_traceColumns now hne

theorem applyCommand_seen (now : String)
    (h : (r.store.telemetryCommands.find? command.commandId).isSome) :
    Ensures (fun t => t = r) (r.applyCommand now command) := by
  refine (applyCommand_moves r now command ("", "")).mono fun t ht => ?_
  rcases ht with rfl | ⟨hfresh, _⟩
  · rfl
  · rw [hfresh] at h
    cases h

abbrev run (clock : String → String) (state : Records × List String)
    (commands : List TelemetryCommand) : Except StoreError (Records × List String) :=
  commands.foldlM (visit clock) state

def touched (r : Records) (command : TelemetryCommand) : List String :=
  if (r.store.telemetryCommands.find? command.commandId).isSome then [] else [command.traceId]

theorem visit_ok (h : state.1.applyCommand (clock command.commandId) command = .ok t) :
    visit clock state command = .ok (t, state.1.touched command ++ state.2) := by
  unfold visit touched
  rw [h, except_bind_ok]
  split_ifs <;> rfl

theorem of_visit (h : visit clock state command = .ok state') :
    state.1.applyCommand (clock command.commandId) command = .ok state'.1 ∧
      state'.2 = state.1.touched command ++ state.2 := by
  obtain ⟨u, hu, _⟩ := except_bind_eq_ok_iff.mp h
  rw [visit_ok hu] at h
  obtain rfl := Except.ok.inj h
  exact ⟨hu, rfl⟩

variable {now : String} {batches : List (List TelemetryCommand)} {between : List TelemetryCommand}
  {finish start : TelemetryCommand}

theorem store_applyCommand (h : r.applyCommand now command = .ok t) :
    r.store.applyCommand command = .ok t.store :=
  applyCommand_follows.ok h

theorem exists_applyCommand (now : String) (h : r.store.applyCommand command = .ok s) :
    ∃ t, r.applyCommand now command = .ok t ∧ t.store = s := by
  have hfollows : (r.applyCommand now command).map Records.store = _ := applyCommand_follows
  rw [h] at hfollows
  exact except_map_eq_ok_iff.mp hfollows

theorem store_run (h : run clock state commands = .ok state') :
    state.1.store.applyCommands commands = .ok state'.1.store := by
  induction commands generalizing state with
  | nil =>
    obtain rfl : state = state' := by simpa [run] using h
    rfl
  | cons command commands ih =>
    unfold run at h
    rw [List.foldlM_cons, except_bind_eq_ok_iff] at h
    obtain ⟨middle, hvisit, hrest⟩ := h
    unfold ObservabilityStore.applyCommands
    rw [List.foldlM_cons, store_applyCommand (of_visit hvisit).1, except_bind_ok]
    exact ih hrest

theorem exists_run (clock : String → String) (state : Records × List String)
    (h : state.1.store.applyCommands commands = .ok s) :
    ∃ state', run clock state commands = .ok state' ∧ state'.1.store = s := by
  induction commands generalizing state with
  | nil => exact ⟨state, rfl, by simpa [ObservabilityStore.applyCommands] using h⟩
  | cons command commands ih =>
    unfold ObservabilityStore.applyCommands at h
    rw [List.foldlM_cons, except_bind_eq_ok_iff] at h
    obtain ⟨middle, happly, hrest⟩ := h
    obtain ⟨u, hu, rfl⟩ := exists_applyCommand (clock command.commandId) happly
    obtain ⟨state', hrun, hstore⟩ := ih (u, state.1.touched command ++ state.2) hrest
    refine ⟨state', ?_, hstore⟩
    unfold run
    rw [List.foldlM_cons, visit_ok hu]
    exact hrun

/-- Commands do the same from other counts, and under another clock if none of them starts a
span late. They touch the same traces, and leave the counts of the others. -/
theorem run_withCounts {q q' : Records}
    {touched touched' : List String} (f : String → ℕ × ℕ) (visited : List String)
    (hclock : clock' = clock ∨ ¬ q.store.LateStarts commands)
    (h : run clock (q, touched) commands = .ok (q', touched')) :
    ∃ new g, touched' = new ++ touched ∧
      run clock' (q.withCounts f, visited) commands = .ok (q'.withCounts g, new ++ visited) ∧
        ∀ id ∉ new, g id = f id ∧ q'.counts id = q.counts id ∧
          q'.traceColumns id = q.traceColumns id := by
  induction commands generalizing q touched f visited with
  | nil =>
    obtain ⟨rfl, rfl⟩ : q = q' ∧ touched = touched' := by simpa [run] using h
    exact ⟨[], f, rfl, rfl, fun _ _ => ⟨rfl, rfl, rfl⟩⟩
  | cons command commands ih =>
    unfold run at h
    rw [List.foldlM_cons, except_bind_eq_ok_iff] at h
    obtain ⟨⟨u, middle⟩, hvisit, hrest⟩ := h
    obtain ⟨happly, hmiddle⟩ := of_visit hvisit
    dsimp only at happly hmiddle
    have hother : q.applyCommand (clock' command.commandId) command = .ok u := by
      rcases hclock with rfl | hpunctual
      · exact happly
      · rw [applyCommand_clock (fun hlate => hpunctual (.head hlate))
          (clock' command.commandId) (clock command.commandId)]
        exact happly
    have hclock' : clock' = clock ∨ ¬ u.store.LateStarts commands := by
      refine hclock.imp_right fun hpunctual hlate => hpunctual ?_
      rw [← List.singleton_append]
      refine .append ?_ hlate
      unfold ObservabilityStore.applyCommands
      rw [List.foldlM_cons, store_applyCommand happly]
      rfl
    obtain ⟨g, hg, hcounts⟩ := applyCommand_ignores q f (clock' command.commandId) command
    rw [hother] at hcounts
    by_cases hseen : (q.store.telemetryCommands.find? command.commandId).isSome
    · -- what was seen is skipped, and touches no trace
      obtain rfl : u = q := applyCommand_seen _ hseen u happly
      have hskip : (u.withCounts f).touched command = [] := if_pos hseen
      have hsame : u.withCounts g = u.withCounts f :=
        applyCommand_seen (r := u.withCounts f) _ hseen _ hcounts
      obtain ⟨new, g', hnew, hrun, hleft⟩ := ih f visited hclock' hrest
      rw [show u.touched command = [] from if_pos hseen] at hmiddle
      refine ⟨new, g', by rw [hnew, hmiddle, List.nil_append], ?_, hleft⟩
      unfold run
      rw [List.foldlM_cons, visit_ok hcounts, except_bind_ok, hskip, List.nil_append]
      dsimp only
      rw [hsame]
      exact hrun
    · obtain ⟨new, g', hnew, hrun, hleft⟩ := ih g (command.traceId :: visited) hclock' hrest
      have htouched : (q.withCounts f).touched command = [command.traceId] := if_neg hseen
      rw [show q.touched command = [command.traceId] from if_neg hseen] at hmiddle
      refine ⟨new ++ [command.traceId], g', by rw [hnew, hmiddle, List.append_assoc], ?_, ?_⟩
      · unfold run
        rw [List.foldlM_cons, visit_ok hcounts, except_bind_ok, htouched, List.append_assoc]
        exact hrun
      · intro id hid
        rw [List.mem_append, not_or, List.mem_singleton] at hid
        obtain ⟨hg', hcount', hcolumns'⟩ := hleft id hid.1
        refine ⟨hg'.trans (hg id hid.2), hcount'.trans ?_, hcolumns'.trans ?_⟩
        · exact counts_of_adds (ObservabilityStore.applyCommand_adds _ command _
            (store_applyCommand happly)) rfl hid.2
        · exact applyCommand_traceColumns q _ command hid.2 u happly

/-- Commands that were seen before do nothing. -/
theorem run_seen
    (hseen : ∀ command ∈ commands, (state.1.store.telemetryCommands.find? command.commandId).isSome)
    (hsequence : ∀ command ∈ commands, command.lifecycleSequence < 2 ^ 63) :
    run clock state commands = .ok state := by
  induction commands with
  | nil => rfl
  | cons command commands ih =>
    have hrow := hseen command List.mem_cons_self
    have happly : state.1.applyCommand (clock command.commandId) command = .ok state.1 := by
      unfold applyCommand
      rw [ensure_pos (hsequence command List.mem_cons_self), except_bind_ok]
      dsimp only
      split
      · rfl
      · rename_i records hinsert
        rw [(Table.find?_eq_none_iff _).mpr (Table.insert_fresh hinsert)] at hrow
        cases hrow
    have hskip : state.1.touched command = [] := if_pos hrow
    unfold run
    rw [List.foldlM_cons, visit_ok happly, except_bind_ok, hskip, List.nil_append]
    exact ih (fun c hc => hseen c (List.mem_cons_of_mem _ hc))
      fun c hc => hsequence c (List.mem_cons_of_mem _ hc)

theorem sequence_of_run (h : run clock state commands = .ok state') :
    ∀ command ∈ commands, command.lifecycleSequence < 2 ^ 63 := by
  induction commands generalizing state with
  | nil => simp
  | cons command commands ih =>
    unfold run at h
    rw [List.foldlM_cons, except_bind_eq_ok_iff] at h
    obtain ⟨middle, hvisit, hrest⟩ := h
    refine List.forall_mem_cons.mpr ⟨?_, ih hrest⟩
    obtain ⟨_, hsequence, _⟩ := except_bind_eq_ok_iff.mp (of_visit hvisit).1
    exact ensure_eq_ok_iff.mp hsequence

theorem applyBatches_concat {u : Records}
    (h : r.applyBatches clock batches = .ok u) (batch : List TelemetryCommand) :
    r.applyBatches clock (batches ++ [batch]) = u.applyBatch clock batch := by
  unfold applyBatches at h ⊢
  rw [List.foldlM_append, h, except_bind_ok]
  exact bind_pure (u.applyBatch clock batch)

/-- However the commands are delivered, the records end as after one batch. -/
theorem applyBatches_of_delivery {sent : List TelemetryCommand} (hdelivery : Delivery sent batches)
    {q : Records} {touched : List String}
    (hclock : clock' = clock ∨ ¬ r.store.LateStarts sent)
    (h : run clock (r, []) sent = .ok (q, touched)) :
    r.applyBatches clock' batches = .ok (q.refreshCounts touched) := by
  induction hdelivery generalizing q touched with
  | nil =>
    obtain ⟨rfl, rfl⟩ : r = q ∧ [] = touched := by simpa [run] using h
    rw [refreshCounts_eq]
    rfl
  | @next sent batch batches _ ih =>
    unfold run at h
    rw [List.foldlM_append, except_bind_eq_ok_iff] at h
    obtain ⟨⟨p, before⟩, hsent, hbatch⟩ := h
    have hfirst := ih (hclock.imp_right fun hnot hlate => hnot hlate.left) hsent
    have hclock' : clock' = clock ∨ ¬ p.store.LateStarts batch :=
      hclock.imp_right fun hnot hlate => hnot (.append (store_run hsent) hlate)
    obtain ⟨new, g, rfl, hrun, hleft⟩ := run_withCounts
      (fun id => if id ∈ before then p.counts id else p.heldCounts id) [] hclock' hbatch
    rw [applyBatches_concat hfirst, refreshCounts_eq]
    unfold applyBatch
    rw [show List.foldlM (visit clock') _ batch = _ from hrun, except_bind_ok]
    refine congrArg Except.ok ?_
    rw [List.append_nil, refreshCounts_eq, refreshCounts_eq, withCounts_withCounts]
    refine congrArg q.withCounts (funext fun id => ?_)
    by_cases hnew : id ∈ new
    · rw [if_pos hnew, if_pos (List.mem_append_left _ hnew)]
      rfl
    · obtain ⟨hg, hcounts, hcolumns⟩ := hleft id hnew
      have hheld : q.heldCounts id = p.heldCounts id := by
        unfold heldCounts
        rw [hcolumns]
      rw [if_neg hnew]
      change g id = _
      rw [hg, hheld, hcounts]
      simp [hnew]
  | @again sent batch batches _ hmem ih =>
    have hfirst := ih hclock h
    have hheld := ObservabilityStore.applyCommands_holds _ _ _ (store_run h)
    have hseen : ∀ command ∈ batch,
        (q.store.telemetryCommands.find? command.commandId).isSome :=
      fun command hcommand => hheld command (hmem command hcommand)
    have hsequence : ∀ command ∈ batch, command.lifecycleSequence < 2 ^ 63 :=
      fun command hcommand => sequence_of_run h command (hmem command hcommand)
    rw [applyBatches_concat hfirst]
    unfold applyBatch
    rw [show List.foldlM (visit clock') (q.refreshCounts touched, []) batch = _ from
      run_seen hseen hsequence]
    refine congrArg Except.ok ?_
    rw [refreshCounts_eq, refreshCounts_eq]
    rfl

theorem run_ensures {P : Records → Prop}
    (hstep : ∀ u command, P u → Ensures P (u.applyCommand (clock command.commandId) command)) (h : P state.1) :
    Ensures (fun state' => P state'.1) (run clock state commands) :=
  Ensures.foldlM h fun state hstate command _ state' hvisit =>
    hstep state.1 command hstate state'.1 (of_visit hvisit).1

theorem applyBatches_single (r : Records) (clock : String → String)
    (commands : List TelemetryCommand) :
    r.applyBatches clock [commands] = r.applyBatch clock commands :=
  bind_pure (r.applyBatch clock commands)

theorem applyBatch_of_run {q : Records}
    {touched : List String} (h : run clock (r, []) commands = .ok (q, touched)) :
    r.applyBatch clock commands = .ok (q.refreshCounts touched) := by
  unfold applyBatch
  rw [show List.foldlM (visit clock) _ commands = _ from h]
  rfl

theorem exists_run_of_applyBatch (h : r.applyBatch clock commands = .ok t) :
    ∃ q touched, run clock (r, []) commands = .ok (q, touched) ∧ t = q.refreshCounts touched := by
  obtain ⟨⟨q, touched⟩, hrun, hrefresh⟩ := except_bind_eq_ok_iff.mp h
  exact ⟨q, touched, hrun, (Except.ok.inj hrefresh).symm⟩

theorem run_split {q : Records × List String}
    (h : run clock (r, []) (before ++ command :: after) = .ok q) :
    ∃ u v, run clock (r, []) before = .ok u ∧
      u.1.applyCommand (clock command.commandId) command = .ok v.1 ∧ run clock v after = .ok q := by
  unfold run at h
  rw [List.foldlM_append, except_bind_eq_ok_iff] at h
  obtain ⟨u, hbefore, hrest⟩ := h
  rw [List.foldlM_cons, except_bind_eq_ok_iff] at hrest
  obtain ⟨v, hvisit, hafter⟩ := hrest
  exact ⟨u, v, hbefore, (of_visit hvisit).1, hafter⟩

theorem run_keeps {key : String × String} {row : SpanRow} {columns : SpanColumns}
    (hended : row.status ≠ "running") (h : state.1.spanRecord key = some (row, columns)) :
    Ensures (fun state' => state'.1.spanRecord key = some (row, columns))
      (run clock state commands) :=
  run_ensures (P := fun u => u.spanRecord key = some (row, columns))
    (fun _ command hu => applyCommand_keeps _ command hended hu) h

theorem ends_of_applyCommands {u : ObservabilityStore}
    (hends : s.EndsSpans commands) (h : s.applyCommands commands = .ok u) :
    ∀ row ∈ u.pendingSpanTerminals.rows, row.payload.Ends := by
  refine Ensures.foldlM (P := fun u : ObservabilityStore =>
    ∀ row ∈ u.pendingSpanTerminals.rows, row.payload.Ends) hends.1 ?_ u h
  intro v hv command hcommand
  refine (ObservabilityStore.applyCommand_adds v command).mono fun w hw row hrow => ?_
  rcases hw.waiting row hrow with hold | ⟨htype, hpayload⟩
  · exact hv row hold
  · rw [hpayload]
    exact hends.2 command hcommand htype

/-- A late start leaves what the clock shows, to the end of the batch. -/
theorem exists_late_time
    (hends : r.store.EndsSpans commands) (haccepted : r.store.applyCommands commands = .ok s)
    (hlate : r.store.LateStarts commands) : ∃ key, ∀ now, ∃ t row columns,
      r.applyBatch (fun _ => now) commands = .ok t ∧ t.spanRecord key = some (row, columns) ∧
        columns.endedAt = some now := by
  obtain ⟨before, command, after, u, rfl, hbefore, hlate⟩ := hlate
  refine ⟨(command.traceId, command.span), fun now => ?_⟩
  obtain ⟨⟨q, touched⟩, hrun, _⟩ := exists_run (fun _ => now) (r, []) haccepted
  obtain ⟨u', v, hrunBefore, happly, hrunAfter⟩ := run_split hrun
  have hstore : u'.1.store = u :=
    Except.ok.inj ((store_run hrunBefore).symm.trans hbefore)
  have hwaiting : ∀ row ∈ u'.1.store.pendingSpanTerminals.rows, row.payload.Ends := by
    refine ends_of_applyCommands ⟨hends.1, fun c hc => hends.2 c ?_⟩ (store_run hrunBefore)
    exact List.mem_append_left _ hc
  obtain ⟨row, hrow, hended, htime⟩ := lateStart_endedAt (hstore ▸ hlate) hwaiting _ happly
  have hrecord : v.1.spanRecord (command.traceId, command.span) =
      some (row, v.1.spanColumns (command.traceId, command.span)) := by
    unfold spanRecord
    rw [hrow]
    rfl
  exact ⟨_, row, _, applyBatch_of_run hrun, run_keeps hended hrecord _ hrunAfter, htime⟩

theorem exists_recorded_time (hlives : r.store.Lives before between start finish)
    {clock : String → String}
    (h : r.applyBatch clock (before ++ start :: between ++ finish :: after) = .ok t) :
    ∃ row columns, t.spanRecord (start.traceId, start.span) = some (row, columns) ∧
      row.lastCommandId = finish.commandId ∧ columns.endedAt = some finish.occurredAt := by
  obtain ⟨q, touched, hrun, rfl⟩ := exists_run_of_applyBatch h
  obtain ⟨u, v, hrunBefore, happly, hrunAfter⟩ := run_split hrun
  obtain ⟨s, s', hs, hs', ⟨old, hold, hrunning⟩, row, hrow, hended⟩ := hlives.ended
  have hu : u.1.store = s := Except.ok.inj ((store_run hrunBefore).symm.trans hs)
  have hv : v.1.store = s' := by
    have hstore := store_applyCommand happly
    rw [hu] at hstore
    exact Except.ok.inj (hstore.symm.trans hs')
  obtain ⟨hid, htime⟩ := spanEnd_endedAt _ hlives.finishType (hu ▸ hold) hrunning _ happly row
    (hv ▸ hrow) hended
  have hrecord : v.1.spanRecord (start.traceId, start.span) =
      some (row, v.1.spanColumns (start.traceId, start.span)) := by
    unfold spanRecord
    rw [hv, show s'.spans.find? (start.traceId, start.span) = some row from hrow]
    rfl
  exact ⟨row, _, run_keeps hended hrecord _ hrunAfter, hid, htime⟩

/-- When its end comes first, the span has the time of the clock. -/
theorem endedAt_of_swapped (hlives : r.store.Lives before between start finish)
    (h : r.applyBatch (fun _ => now)
      (before ++ finish :: between ++ start :: after) = .ok t) :
    EndedAt finish.commandId now (start.traceId, start.span) t := by
  obtain ⟨q, touched, hrun, rfl⟩ := exists_run_of_applyBatch h
  rw [List.append_assoc, List.cons_append] at hrun
  obtain ⟨u, v, hrunBefore, happly, hrunAfter⟩ := run_split hrun
  obtain ⟨s, _, hs, _, hnone, _⟩ := hlives.began
  have hu : u.1.store = s := Except.ok.inj ((store_run hrunBefore).symm.trans hs)
  have hunknown : v.1.store.spans.find? (start.traceId, start.span) = none := by
    rw [← hu] at hnone
    rcases applyCommand_moves _ _ _ (start.traceId, start.span) _ happly with heq | ⟨_, hmoves⟩
    · rw [heq, hnone]
    · refine Moves.preserve
        (P := fun w => w.store.spans.find? (start.traceId, start.span) = none) ?_ hmoves hnone
      intro w w' hw hmove
      cases hmove with
      | same hrow _ => exact hrow.trans hw
      | began _ htype _ _ _ =>
        rw [hlives.finishType] at htype
        cases htype
      | ended _ _ _ hold _ _ _ _ =>
        rw [hw] at hold
        cases hold
  have hseen : (v.1.store.telemetryCommands.find? finish.commandId).isSome :=
    (ObservabilityStore.applyCommand_batched (List.mem_singleton_self finish) _
      (store_applyCommand happly)).2
  have hinitial : EndedAt finish.commandId now (start.traceId, start.span) v.1 := by
    intro row hrow
    rw [hunknown] at hrow
    cases hrow
  refine (run_ensures (P := fun w => (w.store.telemetryCommands.find? finish.commandId).isSome ∧
    EndedAt finish.commandId now (start.traceId, start.span) w) ?_ ⟨hseen, hinitial⟩ _ hrunAfter).2
  intro w command hw w' hw'
  refine ⟨?_, applyCommand_endedAt command hw.1 hw.2 w' hw'⟩
  exact (ObservabilityStore.applyCommand_batched (List.mem_singleton_self command) _
    (store_applyCommand hw')).1.records _ hw.1

def rootEndOf (traceId : String) : TelemetryCommand where
  commandId := "cmd_root_end_" ++ traceId
  commandType := .spanEnd
  traceId
  spanId := some "root"
  lifecycleSequence := 2
  occurredAt := "2026-01-01T00:00:01+00:00"
  payload := [("status", .text "ok")]
  identified := identified_of_some

/-- What a batch leaves as the end of the root span of `a`. -/
def rootEndedAt (clock : String → String) (commands : List TelemetryCommand) :
    Option (Option String) :=
  (Records.applyBatch {} clock commands).toOption.map fun t =>
    (t.spanRecord ("a", "root")).bind fun record => record.2.endedAt

theorem rootEndedAt_inOrder : rootEndedAt (fun _ => "2026-01-01T00:00:09+00:00")
    [startOf "a", rootOf "a", rootEndOf "a"] = some (some "2026-01-01T00:00:01+00:00") := by
  decide

theorem rootEndedAt_swapped : rootEndedAt (fun _ => "2026-01-01T00:00:09+00:00")
    [startOf "a", rootEndOf "a", rootOf "a"] = some (some "2026-01-01T00:00:09+00:00") := by
  decide

theorem rootOf_lives : ({} : ObservabilityStore).Lives [startOf "a"] [] (rootOf "a")
    (rootEndOf "a") := by
  refine ⟨rfl, rfl, rfl, rfl, ?_, ?_⟩
  · refine ⟨_, _, rfl, rfl, ?_, ?_⟩ <;> decide
  · refine ⟨_, _, rfl, rfl, ?_, ?_⟩ <;> decide

end Records

end CodeResearch.Observability
