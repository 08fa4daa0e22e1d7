import CodeResearch.Observability.Traces

/-!
# What a bad command takes with it

A batch is written as a whole. As long as no batch mixes a command that raises with one
that would be written alone, a command is lost only to the queue or to its own write.
-/
namespace CodeResearch.Observability

namespace ObservabilityStore

/-- A command that this one depends on was not applied: the start of its trace, or that of
its span. -/
def LacksStart (s : ObservabilityStore) (command : TelemetryCommand) : Prop :=
  command.commandType ≠ .traceStart ∧
      (∀ row ∈ s.telemetryCommands.rows,
        ¬ (row.commandType = .traceStart ∧ row.traceId = command.traceId)) ∨
    command.commandType ∉ [CommandType.traceStart, .spanStart] ∧
      ∀ row ∈ s.telemetryCommands.rows,
        ¬ (row.commandType = .spanStart ∧ row.traceId = command.traceId ∧
          row.spanId = command.spanId)

instance (s : ObservabilityStore) (command : TelemetryCommand) : Decidable (s.Holds command) :=
  inferInstanceAs (Decidable (_ = true))

instance (s : ObservabilityStore) (command : TelemetryCommand) :
    Decidable (s.LacksStart command) := inferInstanceAs (Decidable (_ ∨ _))

end ObservabilityStore

theorem Writer.next_ne_writing (marks : List IntegrityMark) (batch failing : List TelemetryCommand)
    (attempt : ℕ) : Writer.next marks ≠ .writing batch failing attempt := by
  cases marks <;> simp [Writer.next]

namespace Recorder

variable {config : RecorderConfig} {s t : Recorder}

def inFlight (s : Recorder) : List TelemetryCommand := s.writer.batch ++ s.queue ++ s.held

/-- A command is missing only if it was dropped, its own write kept failing, or a command
that it depends on is missing. -/
def LosesNoOther (s : Recorder) : Prop :=
  ∀ command ∈ s.submitted, command ∈ s.inFlight ∨ s.store.Holds command ∨
    (command, IntegrityFlag.queueDrop) ∈ s.lost ∨ command ∈ s.failed ∨ s.store.LacksStart command

instance (s : Recorder) : Decidable s.LosesNoOther :=
  inferInstanceAs (Decidable (∀ command ∈ s.submitted, _))

def Uniform (s : Recorder) (label : RecorderLabel) : Prop :=
  match label, s.writer with
  | .attempt false, .writing batch _ _ =>
    s.store.Raises batch → ∀ command ∈ batch, s.store.Raises [command]
  | _, _ => True

instance (s : Recorder) (label : RecorderLabel) : Decidable (s.Uniform label) :=
  match label, hw : s.writer with
  | .attempt false, .writing batch failing k =>
    decidable_of_iff (s.store.Raises batch → ∀ command ∈ batch, s.store.Raises [command])
      (by unfold Uniform; rw [hw])
  | .attempt true, _ => .isTrue trivial
  | .attempt false, .collecting _ | .attempt false, .swapping | .attempt false, .marking _ _ =>
    .isTrue (by unfold Uniform; rw [hw]; trivial)
  | .submit _, _ | .proceed _, _ | .take, _ | .close, _ | .swap, _ | .mark _, _ | .retain _, _ =>
    .isTrue trivial

theorem put_fields (config : RecorderConfig) (s : Recorder) (command : TelemetryCommand)
    (next : Submission) :
    let t := s.put config command next
    t.store = s.store ∧ t.applied = s.applied ∧ t.failed = s.failed ∧ t.lost = s.lost ∧
      t.writer = s.writer := by
  unfold put
  split_ifs <;> exact ⟨rfl, rfl, rfl, rfl, rfl⟩

/-- A call of `submit` touches neither the store nor the writer, and loses to the queue. -/
theorem proceed_fields (config : RecorderConfig) (s : Recorder) (submission : Submission) :
    let t := s.proceed config submission
    t.store = s.store ∧ t.applied = s.applied ∧ t.failed = s.failed ∧ t.writer = s.writer ∧
      ∀ c, (c, IntegrityFlag.storeFailure) ∈ t.lost → (c, IntegrityFlag.storeFailure) ∈ s.lost := by
  cases submission with
  | displacing command =>
    unfold proceed
    dsimp only
    split <;> exact ⟨rfl, rfl, rfl, rfl, fun _ h => h⟩
  | noting | dropping =>
    refine ⟨rfl, rfl, rfl, rfl, ?_⟩
    intro c hc
    simpa [proceed, drop] using hc
  | putting command =>
    obtain ⟨hstore, happlied, hfailed, hlost, hwriter⟩ :=
      put_fields config s command (.dropping command)
    exact ⟨hstore, happlied, hfailed, hwriter, fun c hc => hlost ▸ hc⟩

theorem fail_fields (s : Recorder) (batch failing : List TelemetryCommand) (k : ℕ) :
    (s.fail batch failing k).store = s.store ∧ (s.fail batch failing k).applied = s.applied := by
  unfold fail
  split_ifs
  · exact ⟨rfl, rfl⟩
  · rw [foldl_drop]
    exact ⟨rfl, rfl⟩

variable {label : RecorderLabel} {batch failing : List TelemetryCommand} {k : ℕ}

/-- A step leaves the records alone, or commits a batch. -/
theorem step_writes (hstep : s.step config label = some t) :
    t.applied = s.applied ∧ t.store.telemetryCommands = s.store.telemetryCommands ∨
      ∃ batch, t.applied = s.applied ++ batch ∧ s.store.applyCommands batch = .ok t.store := by
  cases step_moves hstep with
  | submit command =>
    obtain ⟨hstore, happlied, _⟩ := put_fields config s command
      (if command.commandType = .spanEnd ∨ command.commandType = .traceEnd then
        .displacing command else .dropping command)
    exact .inl ⟨happlied, congrArg _ hstore⟩
  | @proceed k submission =>
    obtain ⟨hstore, happlied, _⟩ :=
      proceed_fields config { s with submissions := s.submissions.eraseIdx k } submission
    exact .inl ⟨happlied, congrArg _ hstore⟩
  | @attempt batch failing k =>
    unfold Recorder.attempt
    split_ifs
    · obtain ⟨hstore, happlied⟩ := fail_fields s batch failing k
      exact .inl ⟨happlied, congrArg _ hstore⟩
    · split
      · rename_i store hcommit
        exact .inr ⟨batch, rfl, hcommit⟩
      · obtain ⟨hstore, happlied⟩ := fail_fields s batch
          (failing.filter fun command => s.store.Raises [command]) k
        exact .inl ⟨happlied, congrArg _ hstore⟩
  | mark =>
    unfold Recorder.mark
    split_ifs
    · exact .inl ⟨rfl, rfl⟩
    · exact .inl ⟨rfl, ObservabilityStore.records_markIntegrity _ _ _ _⟩
  | take | idle | close | swap | retain => exact .inl ⟨rfl, rfl⟩

/-- The commands of the committed batches are in the store. -/
structure Recorded (s : Recorder) : Prop where
  accounts : s.Accounts
  applied : ∀ command ∈ s.applied, s.store.Holds command

theorem Recorded.step (h : s.Recorded) (hstep : s.step config label = some t) : t.Recorded := by
  refine ⟨h.accounts.step hstep, ?_⟩
  rcases step_writes hstep with ⟨happlied, hrecords⟩ | ⟨batch, happlied, hcommit⟩
  · intro c hc
    unfold ObservabilityStore.Holds
    rw [hrecords]
    exact h.applied c (happlied ▸ hc)
  · intro c hc
    rw [happlied] at hc
    rcases List.mem_append.mp hc with hc | hc
    · exact (s.store.applyCommands_batched batch _ hcommit).records _ (h.applied c hc)
    · exact s.store.applyCommands_holds batch _ hcommit c hc

theorem recorded_initial : ({} : Recorder).Recorded := ⟨accounts_initial, by simp⟩

/-- What is known of the commands that are not on their way. -/
structure Explained (s : Recorder) : Prop where
  recorded : s.Recorded
  failed : ∀ command, (command, IntegrityFlag.storeFailure) ∈ s.lost → command ∈ s.failed
  failing : ∀ batch failing k, s.writer = .writing batch failing k →
    ∀ command ∈ batch, command ∈ failing

theorem Explained.losesNoOther (h : s.Explained) : s.LosesNoOther := by
  intro c hc
  have hcount := h.recorded.accounts.counts c
  have hpos := List.count_pos_iff.mpr hc
  by_cases happlied : c ∈ s.applied
  · exact .inr (.inl (h.recorded.applied c happlied))
  by_cases hway : c ∈ s.inFlight
  · exact .inl hway
  by_cases hlost : c ∈ s.lost.map Prod.fst
  · obtain ⟨⟨_, flag⟩, hentry, rfl⟩ := List.mem_map.mp hlost
    rcases h.recorded.accounts.kinds _ hentry with hflag | hflag
    · exact .inr (.inr (.inl (hflag ▸ hentry)))
    · exact .inr (.inr (.inr (.inl (h.failed _ (hflag ▸ hentry)))))
  · rw [← List.count_eq_zero] at happlied hway hlost
    simp only [inFlight, List.count_append] at hway
    omega

theorem Explained.of_step (h : s.Explained)
    (hstep : s.step config label = some t) (hfailed : t.failed = s.failed)
    (hlost : ∀ c, (c, IntegrityFlag.storeFailure) ∈ t.lost → (c, IntegrityFlag.storeFailure) ∈ s.lost)
    (hwriter : ∀ batch failing k, t.writer = .writing batch failing k →
      ∀ c ∈ batch, c ∈ failing) : t.Explained := by
  refine ⟨h.recorded.step hstep, ?_, hwriter⟩
  intro c hc
  rw [hfailed]
  exact h.failed c (hlost c hc)

theorem Explained.fail (h : s.Explained) {failing' : List TelemetryCommand}
    (hwriter : s.writer = .writing batch failing k) (hfailing : ∀ c ∈ batch, c ∈ failing') :
    (s.fail batch failing' k).Explained := by
  have hrecorded : (s.fail batch failing' k).Recorded := by
    obtain ⟨hstore, happlied⟩ := fail_fields s batch failing' k
    refine ⟨h.recorded.accounts.fail hwriter, ?_⟩
    rw [hstore, happlied]
    exact h.recorded.applied
  unfold Recorder.fail at hrecorded ⊢
  split_ifs at hrecorded ⊢
  · refine ⟨hrecorded, h.failed, ?_⟩
    intro batch' failing'' k' heq
    cases heq
    exact hfailing
  · rw [foldl_drop] at hrecorded ⊢
    refine ⟨hrecorded, ?_, ?_⟩
    · intro c hc
      rcases List.mem_append.mp hc with hc | hc
      · exact List.mem_append_left _ (h.failed c hc)
      · obtain ⟨c', hc', heq⟩ := List.mem_map.mp hc
        cases heq
        exact List.mem_append_right _ (hfailing c hc')
    · intro batch' failing'' k' heq
      cases heq

theorem Explained.attempt (h : s.Explained)
    (hwriter : s.writer = .writing batch failing k) {fails : Bool}
    (huniform : s.Uniform (.attempt fails))
    (hrecorded : (s.attempt batch failing k fails).Recorded) :
    (s.attempt batch failing k fails).Explained := by
  unfold Recorder.attempt at hrecorded ⊢
  cases fails with
  | true => exact h.fail hwriter (h.failing batch failing k hwriter)
  | false =>
    simp only [Bool.false_eq_true, if_false] at hrecorded ⊢
    cases hcommit : s.store.applyCommands batch with
    | ok store =>
      rw [hcommit] at hrecorded
      refine ⟨hrecorded, h.failed, ?_⟩
      intro batch' failing' k' heq
      cases heq
    | error e =>
      have hraises : s.store.Raises batch := by
        intro t ht
        rw [hcommit] at ht
        cases ht
      unfold Uniform at huniform
      rw [hwriter] at huniform
      refine h.fail hwriter fun c hc => List.mem_filter.mpr ⟨?_, ?_⟩
      · exact h.failing batch failing k hwriter c hc
      · exact decide_eq_true (huniform hraises c hc)

theorem Explained.step (h : s.Explained) (huniform : s.Uniform label)
    (hstep : s.step config label = some t) : t.Explained := by
  cases step_moves hstep with
  | submit command =>
    obtain ⟨_, _, hfailed, hlost, hwriter⟩ := put_fields config s command
      (if command.commandType = .spanEnd ∨ command.commandType = .traceEnd then
        .displacing command else .dropping command)
    exact h.of_step hstep hfailed (fun c hc => hlost ▸ hc) (hwriter ▸ h.failing)
  | @proceed k submission =>
    obtain ⟨_, _, hfailed, hwriter, hlost⟩ :=
      proceed_fields config { s with submissions := s.submissions.eraseIdx k } submission
    exact h.of_step hstep hfailed hlost fun batch failing k heq =>
      h.failing batch failing k (hwriter.symm.trans heq)
  | take | idle => exact h.of_step hstep rfl (fun _ hc => hc) fun _ _ _ heq => by cases heq
  | close =>
    refine h.of_step hstep rfl (fun _ hc => hc) ?_
    intro batch failing k heq
    cases heq
    exact fun _ hc => hc
  | attempt hwriter => exact h.attempt hwriter huniform (h.recorded.step hstep)
  | swap =>
    exact h.of_step hstep rfl (fun _ hc => hc) fun batch failing k heq =>
      absurd heq (Writer.next_ne_writing _ batch failing k)
  | mark =>
    refine h.of_step hstep ?_ ?_ ?_ <;> unfold Recorder.mark
    · split_ifs <;> rfl
    · split_ifs <;> exact fun _ hc => hc
    · intro batch failing k heq
      split_ifs at heq
      · exact absurd heq (Writer.next_ne_writing _ batch failing k)
      · exact absurd heq (Writer.next_ne_writing _ batch failing k)
  | retain hwriter =>
    exact h.of_step hstep rfl (fun _ hc => hc) fun _ _ _ heq => by rw [hwriter] at heq; cases heq

theorem explained_initial : ({} : Recorder).Explained :=
  ⟨recorded_initial, by simp, fun _ _ _ heq => by cases heq⟩

end Recorder

/-- As long as every batch that raises raises on each of its commands, commands are lost
only to the queue, to their own writes, or with what they depend on. -/
theorem uniform_batches_lose_no_other (config : RecorderConfig) {labels : List RecorderLabel}
    {s : Recorder} (h : (Recorder.machine config).Run Recorder.Uniform {} labels s) :
    s.LosesNoOther := by
  have hexplained := h.invariant Recorder.Explained
    (fun _ _ _ hs huniform hstep => hs.step huniform hstep) Recorder.explained_initial
  exact hexplained.losesNoOther

/-- Whatever fails, a command is committed, on its way or noted as lost as often as it was
submitted, and the committed commands are stored and in the order of their submission. -/
def ConservesCommands (config : RecorderConfig) : Prop :=
  ∀ labels s, (Recorder.machine config).Run Machine.Free {} labels s →
    (∀ c, s.submitted.count c =
      s.applied.count c + s.inFlight.count c + (s.lost.map Prod.fst).count c) ∧
    s.applied.Sublist s.submitted ∧ ∀ c ∈ s.applied, s.store.Holds c

theorem conservesCommands (config : RecorderConfig) : ConservesCommands config := by
  intro labels s hrun
  have h : s.Recorded := hrun.invariant Recorder.Recorded
    (fun _ _ _ h _ hstep => h.step hstep) Recorder.recorded_initial
  refine ⟨?_, ?_, h.applied⟩
  · intro c
    have hcount := h.accounts.counts c
    simp only [Recorder.inFlight, List.count_append]
    omega
  · have hprefix := List.sublist_append_left s.applied (s.writer.batch ++ s.queue)
    rw [← List.append_assoc] at hprefix
    exact hprefix.trans h.accounts.sublist

def startOf (traceId : String) : TelemetryCommand where
  commandId := "cmd_start_" ++ traceId
  commandType := .traceStart
  traceId
  spanId := none
  lifecycleSequence := 1
  occurredAt := "2026-01-01T00:00:00+00:00"
  payload := [("trace_type", .text "retrieval"), ("root_span_id", .text "root")]
  identified := by simp

def rootOf (traceId : String) : TelemetryCommand where
  commandId := "cmd_root_" ++ traceId
  commandType := .spanStart
  traceId
  spanId := some "root"
  lifecycleSequence := 1
  occurredAt := "2026-01-01T00:00:00+00:00"
  payload := [("name", .text "retrieve"), ("component", .text "retrieval")]
  identified := by simp

def defaultConfig : RecorderConfig := ⟨4096, 128⟩

def orphanBatch : List RecorderLabel :=
  [.submit (startOf "b"), .submit (rootOf "a"), .take, .take, .close, .attempt false,
    .attempt false, .attempt false]

/-- The same commands in a batch each. -/
def orphanAlone : List RecorderLabel :=
  [.submit (startOf "b"), .take, .close, .attempt false, .swap, .submit (rootOf "a"), .take,
    .close, .attempt false, .attempt false, .attempt false]

theorem orphanBatch_loses :
    ((Recorder.machine defaultConfig).exec Machine.Free {} orphanBatch).map
      (fun s => decide s.LosesNoOther) = some false := by
  decide

theorem orphanAlone_fails :
    ((Recorder.machine defaultConfig).exec Recorder.Uniform {} orphanAlone).map
      (fun s => (s.submitted, s.failed)) = some ([startOf "b", rootOf "a"], [rootOf "a"]) := by
  decide

theorem orphanAlone_loses_no_other : ∃ s,
    (Recorder.machine defaultConfig).Run Recorder.Uniform {} orphanAlone s ∧
      s.failed = [rootOf "a"] ∧ s.LosesNoOther := by
  obtain ⟨s, hs, hfields⟩ := Option.map_eq_some_iff.mp orphanAlone_fails
  have hrun := Machine.run_of_exec hs
  exact ⟨s, hrun, congrArg Prod.snd hfields,
    uniform_batches_lose_no_other defaultConfig hrun⟩

/-- One orphan rolls back the trace that starts in its batch. -/
theorem orphan_loses_another_trace :
    ¬ ∀ (config : RecorderConfig) (labels : List RecorderLabel) (s : Recorder),
      (Recorder.machine config).Run Machine.Free {} labels s → s.LosesNoOther := by
  intro hall
  obtain ⟨s, hs, hloses⟩ := Option.map_eq_some_iff.mp orphanBatch_loses
  exact of_decide_eq_false hloses (hall _ _ s (Machine.run_of_exec hs))

end CodeResearch.Observability
