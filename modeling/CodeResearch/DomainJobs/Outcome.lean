import CodeResearch.DomainJobs.Handlers

/-!
# Completed jobs and successful runs

A run that completed, or completed partially, stays so in its store. The poll loops
also end at a cancelled, an interrupted or an abandoned run, and a handler that ends
without an exception completes its job; where no such handler is taken at its word,
every completed job names a successful run.
-/
namespace CodeResearch.DomainJobs

open ControlPlane
open Research (RunStatus LeasedRun LeaseEvent RunRow)

def RunStores.Succeeded (runs : RunStores) (kind : RunKind) (runId : String) : Prop :=
  ∃ status ∈ runs.status? kind runId, status ∈ ["completed", "partial"]

instance (runs : RunStores) (kind : RunKind) (runId : String) :
    Decidable (runs.Succeeded kind runId) :=
  inferInstanceAs (Decidable (∃ status ∈ runs.status? kind runId, _))

def RunStores.Grows (runs runs' : RunStores) : Prop :=
  ∀ kind runId, runs.Succeeded kind runId → runs'.Succeeded kind runId

theorem RunStores.Grows.refl (runs : RunStores) : runs.Grows runs := fun _ _ h => h

section Rows

theorem terminal_of_name {status : RunStatus} (h : status.name ∈ ["completed", "partial"]) :
    status.Terminal := by
  cases status <;> first | decide | exact absurd h (by decide)

theorem terminal_of_evaluationName {status : EvaluationStatus}
    (h : status.name ∈ ["completed", "partial"]) : status.Terminal := by
  cases status <;> first | decide | exact absurd h (by decide)

theorem alignmentName_ne (status : AlignmentStatus) : status.name ∉ ["completed", "partial"] := by
  cases status <;> decide

/-- No step changes the row of a run that has ended. -/
theorem row_of_terminal {c c' : LeasedRun} {e : LeaseEvent} (h : c.step e = some c')
    (hterminal : c.row.status.Terminal) : c'.row = c.row := by
  cases e with
  | tick elapsed =>
    cases h
    rfl
  | acquire owner ttl =>
    cases h
    rcases Research.acquire_cases c owner ttl with hsame | ⟨_, _, _, hnew⟩
    · rw [hsame]
    · rw [hnew]
  | renew k ttl =>
    obtain ⟨holder, _, rfl⟩ := Option.map_eq_some_iff.mp h
    rcases Research.renew_cases c k holder ttl with hsame | ⟨_, _, _, hnew⟩
    · rw [hsame]
    · rw [hnew]
  | release | read =>
    obtain ⟨holder, _, rfl⟩ := Option.map_eq_some_iff.mp h
    rfl
  | write k =>
    obtain ⟨holder, _, hwrite⟩ := Option.bind_eq_some_iff.mp h
    obtain ⟨p, _, rfl⟩ := Option.map_eq_some_iff.mp hwrite
    exact Research.Publication.write_overtaken (.inr hterminal)
  | cancel =>
    cases h
    exact if_pos hterminal
  | resume =>
    cases h
    have hnot : ¬ c.row.status.Resumable := by
      intro hresumable
      rcases List.mem_pair.mp hresumable with hs | hs <;>
      · rw [hs] at hterminal
        exact absurd hterminal (by decide)
    simp only [Research.markResumed, if_neg hnot]
    rfl

/-- No owner that publishes late, no cancellation and no resumption changes a run that ended. -/
def EndedRunsKept : Prop :=
  ∀ events c c', LeasedRun.machine.Run Machine.Free c events c' → c.row.status.Terminal →
    c'.row = c.row

theorem endedRunsKept : EndedRunsKept := by
  intro events c c' hrun hterminal
  apply hrun.invariant (fun d => d.row = c.row) ?_ rfl
  intro d e d' hsame _ hstep
  exact (row_of_terminal hstep (hsame ▸ hterminal)).trans hsame

end Rows

section Stores

variable {cfg : RunConfig} {runs runs' : RunStores}

variable {research : ResearchRuns} {evaluation : EvaluationRuns} {runId : String}

theorem grows_research (h : ∀ run ∈ runs.research.rows, run.leased.row.status.Terminal →
      ∃ run', research.find? run.runId = some run' ∧
        run'.leased.row.status = run.leased.row.status) :
    runs.Grows { runs with research } := by
  intro kind runId hsucceeded
  cases kind with
  | alignment | evaluation => exact hsucceeded
  | research =>
    obtain ⟨status, hstatus, hmem⟩ := hsucceeded
    obtain ⟨run, hrun, rfl⟩ := Option.map_eq_some_iff.mp hstatus
    obtain ⟨run', hrun', hsame⟩ := h run (Table.find?_mem hrun) (terminal_of_name hmem)
    rw [Table.find?_key hrun] at hrun'
    refine ⟨run'.leased.row.status.name, ?_, by rwa [hsame]⟩
    exact Option.map_eq_some_iff.mpr ⟨run', hrun', rfl⟩

theorem grows_alignment (runs : RunStores) (alignment : AlignmentRuns) :
    runs.Grows { runs with alignment } := by
  intro kind runId hsucceeded
  cases kind with
  | research | evaluation => exact hsucceeded
  | alignment =>
    obtain ⟨status, hstatus, hmem⟩ := hsucceeded
    obtain ⟨run, _, rfl⟩ := Option.map_eq_some_iff.mp hstatus
    exact absurd hmem (alignmentName_ne _)

theorem grows_evaluation (updates : List EvaluationRun)
    (h : ∀ run ∈ runs.evaluation.rows, run.status.Terminal →
      evaluation.find? run.runId = some run) :
    runs.Grows { runs with evaluation, updates } := by
  intro kind runId hsucceeded
  cases kind with
  | research | alignment => exact hsucceeded
  | evaluation =>
    obtain ⟨status, hstatus, hmem⟩ := hsucceeded
    obtain ⟨run, hrun, rfl⟩ := Option.map_eq_some_iff.mp hstatus
    have hkept := h run (Table.find?_mem hrun) (terminal_of_evaluationName hmem)
    rw [Table.find?_key hrun] at hkept
    exact ⟨run.status.name, Option.map_eq_some_iff.mpr ⟨run, hkept, rfl⟩, hmem⟩

/-- Creating or finding a research run leaves the stored runs alone. -/
theorem createResearchRun_grows {request : ResearchRunRequest} {hex : String}
    (h : createResearchRun cfg request hex runs.research = .ok (runId, research)) :
    runs.Grows { runs with research } := by
  unfold createResearchRun at h
  dsimp only at h
  split at h
  · split_ifs at h
    cases h
    exact .refl _
  · split at h
    · rename_i hins
      cases h
      apply grows_research
      intro run hrun _
      exact ⟨run, Table.find?_insert_of_some hins (Table.find?_of_mem hrun), rfl⟩
    · cases h

theorem stepResearch_grows {e : LeaseEvent}
    (h : stepResearch runId e runs.research = some research) :
    runs.Grows { runs with research } := by
  obtain ⟨run, hrun, h⟩ := Option.bind_eq_some_iff.mp h
  obtain ⟨leased, hleased, rfl⟩ := Option.map_eq_some_iff.mp h
  apply grows_research
  intro other hother hterminal
  by_cases hid : other.runId = run.runId
  · rw [runs.research.eq_of_key_eq hother (Table.find?_mem hrun) hid] at hterminal ⊢
    refine ⟨{ run with leased }, ?_, by rw [row_of_terminal hleased hterminal]⟩
    apply Table.find?_replace_of_key rfl
    rw [Table.find?_of_mem (Table.find?_mem hrun)]
    rfl
  · have hne : other.runId ≠ ({ run with leased } : ResearchRun).runId := hid
    refine ⟨other, ?_, rfl⟩
    rw [Table.find?_replace_of_ne _ hne]
    exact Table.find?_of_mem hother

theorem saveEvaluationRun_grows {run : EvaluationRun}
    (h : saveEvaluationRun run runs.evaluation = .ok evaluation) :
    runs.Grows { runs with evaluation } := by
  unfold saveEvaluationRun at h
  split at h
  · rename_i hins
    cases h
    exact grows_evaluation runs.updates fun other hother _ =>
      Table.find?_insert_of_some hins (Table.find?_of_mem hother)
  · split_ifs at h
    cases h
    exact .refl _

theorem prepareEvaluationRun_grows {request : EvaluationRunRequest} {now : Timestamp}
    (h : prepareEvaluationRun cfg request now runs.evaluation = .ok (runId, evaluation)) :
    runs.Grows { runs with evaluation } := by
  unfold prepareEvaluationRun at h
  dsimp only at h
  split at h
  · cases h
    exact .refl _
  · simp only [except_bind_eq_ok_iff, except_pure_eq_ok_iff, Prod.mk.injEq] at h
    obtain ⟨attempt, _, created, hsave, _, rfl⟩ := h
    exact saveEvaluationRun_grows hsave

/-- An update writes over no run that has ended. -/
theorem writeEvaluationUpdate_grows {run : EvaluationRun} (updates : List EvaluationRun)
    (h : writeEvaluationUpdate run runs.evaluation = .ok evaluation) :
    runs.Grows { runs with evaluation, updates } := by
  unfold writeEvaluationUpdate at h
  split at h
  · cases h
  · rename_i current hcurrent
    split_ifs at h with hlive
    cases h
    apply grows_evaluation
    intro other hother hterminal
    have hne : other.runId ≠ run.runId := by
      intro hid
      have hfind := Table.find?_of_mem hother
      rw [hid, hcurrent] at hfind
      cases hfind
      exact hlive hterminal
    rw [Table.find?_replace_of_ne _ hne]
    exact Table.find?_of_mem hother

theorem step_grows {ev : RunEvent} (h : runs.step cfg ev = some runs') : runs.Grows runs' := by
  cases ev with
  | createResearch request hex =>
    simp only [RunStores.step] at h
    split at h
    · rename_i hcreate
      cases h
      exact createResearchRun_grows hcreate
    · cases h
      exact .refl _
  | research runId e =>
    obtain ⟨research, hresearch, rfl⟩ := Option.map_eq_some_iff.mp h
    exact stepResearch_grows hresearch
  | createAlignment | cancelAlignment =>
    simp only [RunStores.step] at h
    split at h <;> cases h
    · exact grows_alignment runs _
    · exact .refl _
  | alignmentStatus | activateAlignment =>
    cases h
    exact grows_alignment runs _
  | prepareEvaluation request now =>
    simp only [RunStores.step] at h
    split at h
    · rename_i hprepare
      cases h
      exact prepareEvaluationRun_grows hprepare
    · cases h
      exact .refl _
  | checkEvaluation run =>
    simp only [RunStores.step] at h
    split at h <;> cases h
    · exact fun _ _ h => h
    · exact .refl _
  | writeEvaluation k =>
    obtain ⟨run, _, rfl⟩ := Option.map_eq_some_iff.mp h
    split
    · rename_i hwrite
      exact writeEvaluationUpdate_grows _ hwrite
    · exact fun _ _ h => h

theorem requestCancel_grows {kind : RunKind} {now : Timestamp}
    (h : runs.requestCancel now kind runId = .ok runs') : runs.Grows runs' := by
  cases kind with
  | research =>
    simp only [RunStores.requestCancel] at h
    split at h <;> cases h
    rename_i hresearch
    exact stepResearch_grows hresearch
  | alignment =>
    simp only [RunStores.requestCancel, except_bind_eq_ok_iff, except_pure_eq_ok_iff] at h
    obtain ⟨alignment, _, rfl⟩ := h
    exact grows_alignment runs alignment
  | evaluation =>
    simp only [RunStores.requestCancel, except_bind_eq_ok_iff, except_pure_eq_ok_iff] at h
    obtain ⟨evaluation, hcancel, rfl⟩ := h
    unfold cancelEvaluationRun at hcancel
    split at hcancel
    · cases hcancel
    · split_ifs at hcancel
      obtain ⟨_, _, hwrite⟩ := except_bind_eq_ok_iff.mp hcancel
      exact writeEvaluationUpdate_grows runs.updates hwrite

theorem prepareRun_grows {job : JobRecord} {p : Preparation} {result : Except JobError String}
    (h : prepareRun cfg job runs p = some (result, runs')) : runs.Grows runs' := by
  unfold prepareRun at h
  split at h
  · cases h
    exact .refl _
  · simp only [Option.some.injEq] at h
    split at h <;> cases h
    · rename_i hcreate
      exact createResearchRun_grows hcreate
    · exact .refl _
  · simp only [Option.some.injEq] at h
    split at h <;> cases h
    · exact grows_alignment runs _
    · exact .refl _
  · simp only [Option.some.injEq] at h
    split at h <;> cases h
    · rename_i hprepare
      exact prepareEvaluationRun_grows hprepare
    · exact .refl _
  · cases h

end Stores

/-- The job, if it is one of a domain, names a successful run. -/
def RunStores.Vouches (runs : RunStores) (j : JobRecord) : Prop :=
  ∀ kind, runKind j.jobType = some kind →
    ∃ runId, j.resultArtifactRefIds = [kind.reference runId] ∧ runs.Succeeded kind runId

theorem RunStores.Grows.vouches {runs runs' : RunStores} (h : runs.Grows runs') {j : JobRecord}
    (hj : runs.Vouches j) : runs'.Vouches j := by
  intro kind hkind
  obtain ⟨runId, hrefs, hsucceeded⟩ := hj kind hkind
  exact ⟨runId, hrefs, h kind runId hsucceeded⟩

/-- The statuses of a run that ended without success and without a failure, or that
has not ended. -/
def fruitless : List String := ["cancelled", "interrupted", "abandoned"]

/-- The event hands the store no success that a handler read off a cancelled, an
interrupted or an abandoned run. -/
def DomainSystem.Spares (d : DomainSystem) : DomainEvent → Prop
  | .finish attemptId env => ∀ h ∈ d.handlers.find? attemptId,
      match h.state with
      | .returned _ status => status ∈ fruitless →
          ∀ t ∈ d.backend.handling attemptId, ¬ Accepts d.backend.store t.created env
      | _ => True
  | _ => True

/-- Along every run under the guard, the run of a completed job had succeeded before
the job was completed, and is neither cancelled nor interrupted nor abandoned. -/
def CompletesHonestly (cfg : DomainConfig) (G : DomainSystem → DomainEvent → Prop) : Prop :=
  ∀ (events : List DomainEvent) (d : DomainSystem) (e : DomainEvent) (d' : DomainSystem),
    (DomainSystem.machine cfg).Run G .empty events d → G d e → d.step cfg e = some d' →
      d'.backend.store.CompletedAll fun j => d.runs.Vouches j ∧ d'.runs.Vouches j

/-- The handler read a successful run, or one of which nothing came. -/
def Handler.Reads (runs : RunStores) (h : Handler) : Prop :=
  match h.state with
  | .returned runId status => status ∈ fruitless ∨ runs.Succeeded h.kind runId
  | _ => True

structure DomainSystem.Inv (d : DomainSystem) : Prop where
  sound : Backend.Sound d.backend
  typed : d.backend.AllTyped
  vouched : d.backend.store.CompletedAll d.runs.Vouches
  reads : ∀ h ∈ d.handlers.rows, h.Reads d.runs

/-- A step keeps the invariant and the successful runs, and the jobs that it leaves
completed had successful runs before it. -/
structure DomainSystem.Advances (d d' : DomainSystem) : Prop where
  inv : d'.Inv
  grows : d.runs.Grows d'.runs
  vouched : d'.backend.store.CompletedAll d.runs.Vouches

theorem DomainSystem.Inv.empty : DomainSystem.Inv .empty := by
  constructor
  · exact Backend.sound_boot_empty
  · intro t ht
    simp [DomainSystem.empty, Backend.boot] at ht
  · intro j hj
    simp [DomainSystem.empty, Backend.boot, Store.empty] at hj
  · intro h hh
    simp [DomainSystem.empty] at hh

theorem RunKind.doneStatuses_cases (kind : RunKind) {status : String}
    (h : status ∈ kind.wait.doneStatuses) :
    status ∈ ["completed", "partial"] ∨ status ∈ fruitless ∨ status = "failed" := by
  cases kind <;>
  · simp only [RunKind.wait, waitResearch, waitAlignment, waitEvaluation, List.mem_cons,
      List.not_mem_nil, or_false] at h
    rcases h with rfl | rfl | rfl | rfl | rfl <;> decide

section Steps

variable {cfg : DomainConfig} {d d' : DomainSystem} {h : Handler} {state : HandlerState}

theorem Handler.Reads.mono {runs runs' : RunStores} (hgrows : runs.Grows runs')
    (hh : h.Reads runs) : h.Reads runs' := by
  unfold Handler.Reads at hh ⊢
  split at hh
  · exact hh.imp_right (hgrows h.kind _)
  · trivial

theorem DomainSystem.Inv.become (hd : d.Inv) (hfind : d.handlers.find? h.attemptId = some h)
    (hstate : ({ h with state } : Handler).Reads d.runs) : d.Advances (d.become h state) := by
  refine ⟨⟨hd.sound, hd.typed, hd.vouched, fun k hk => ?_⟩, .refl _, hd.vouched⟩
  rcases (Table.mem_replace (t := d.handlers) (by rw [hfind]; rfl) k).mp hk with rfl | ⟨hold, _⟩
  · exact hstate
  · exact hd.reads k hold

theorem DomainSystem.Inv.runs (hd : d.Inv) {runs : RunStores} (hgrows : d.runs.Grows runs) :
    d.Advances { d with runs } := by
  refine ⟨⟨hd.sound, hd.typed, ?_, ?_⟩, hgrows, hd.vouched⟩
  · exact fun j hj hdone => hgrows.vouches (hd.vouched j hj hdone)
  · exact fun k hk => (hd.reads k hk).mono hgrows

theorem DomainSystem.Inv.settle (hd : d.Inv) {b : Backend} {ev : Event}
    (hstep : d.backend.step cfg.backend ev = some b)
    (hvouched : b.store.CompletedAll d.runs.Vouches) : d.Advances (d.settle b) := by
  refine ⟨⟨hd.sound.step _ hstep, hd.typed.step hstep, hvouched, fun k hk => ?_⟩, .refl _, hvouched⟩
  exact hd.reads k (List.mem_filter.mp hk).1

variable {attemptId runId : String} {now : Timestamp} {t : Task}

/-- A heartbeat is an event of the backend that completes no job. -/
theorem DomainSystem.Inv.heartbeat (hd : d.Inv) (ht : d.backend.handling attemptId = some t) :
    d.Advances { d with backend := Backend.heartbeat cfg.backend d.backend t now } := by
  have hstep : d.backend.step cfg.backend (.heartbeat attemptId now) =
      some (Backend.heartbeat cfg.backend d.backend t now) := by
    have hfind : Backend.task? (d.backend.tasks ++ d.backend.detached) attemptId true = some t := by
      rw [Backend.task?, List.find?_append]
      exact ht
    rw [Backend.step, hfind]
    rfl
  have hvouched : (Backend.heartbeat cfg.backend d.backend t now).store.CompletedAll
      d.runs.Vouches := by
    apply Backend.completedAll_step hd.sound hd.typed hstep hd.vouched
    intro _ _ _ _ _ _ hev
    cases hev
  exact ⟨⟨hd.sound.step _ hstep, hd.typed.step hstep, hvouched, hd.reads⟩, .refl _, hvouched⟩

theorem DomainSystem.Inv.advances (hd : d.Inv) : d.Advances d := ⟨hd, .refl _, hd.vouched⟩

/-- What a poll loop reads after its checkpoint. -/
theorem DomainSystem.Inv.pollRun (hd : d.Inv)
    (hfind : d.handlers.find? h.attemptId = some h) : d.Advances (d.pollRun t h runId now) := by
  unfold DomainSystem.pollRun
  split
  · exact hd.become hfind trivial
  · rename_i status hstatus
    split_ifs with hdone hfailed
    · exact hd.become hfind trivial
    · apply hd.become hfind
      rcases h.kind.doneStatuses_cases hdone with hsucceeded | hfruitless | hfailed'
      · exact .inr ⟨status, hstatus, hsucceeded⟩
      · exact .inl hfruitless
      · exact absurd hfailed' hfailed
    · split
      · exact hd.become hfind trivial
      · exact hd.advances
      · split
        · exact hd.become hfind trivial
        · rename_i hcancel
          exact hd.runs (requestCancel_grows hcancel)

theorem DomainSystem.Inv.poll (hd : d.Inv) {due : Bool} (ht : d.backend.handling attemptId = some t)
    (hfind : d.handlers.find? h.attemptId = some h) :
    d.Advances (d.poll cfg t h runId due now) := by
  unfold DomainSystem.poll
  dsimp only
  generalize hbeat : (if due then _ else d) = beaten
  have hbeaten : d.Advances beaten ∧ beaten.runs = d.runs ∧ beaten.handlers = d.handlers := by
    rw [← hbeat]
    split_ifs
    · exact ⟨hd.heartbeat ht, rfl, rfl⟩
    · exact ⟨hd.advances, rfl, rfl⟩
  obtain ⟨hbeaten, hruns, hhandlers⟩ := hbeaten
  rw [← hhandlers] at hfind
  have hfrom : ∀ d', beaten.Advances d' → d.Advances d' :=
    fun d' h => ⟨h.inv, hruns ▸ h.grows, hruns ▸ h.vouched⟩
  split
  · exact hfrom _ (hbeaten.inv.become hfind trivial)
  · exact hfrom _ (hbeaten.inv.pollRun hfind)

theorem vouches_complete {runs : RunStores} {j : JobRecord} {kind : RunKind}
    (hkind : runKind j.jobType = some kind) (hrun : runs.Succeeded kind runId) :
    runs.Vouches (j.complete .succeeded none (some [kind.reference runId]) now) := by
  intro kind' hkind'
  have hsame : kind' = kind := Option.some.inj (hkind'.symm.trans hkind)
  subst hsame
  exact ⟨runId, by simp [JobRecord.complete, Option.filter], hrun⟩

/-- A handler that is not taken at its word when its run came to nothing completes
only jobs whose runs succeeded. -/
theorem vouched_finish (hd : d.Inv) {env : CallEnv}
    {outcome : Except JobError (List String)} {b : Backend}
    (hspares : d.Spares (.finish attemptId env)) (hfind : d.handlers.find? attemptId = some h)
    (houtcome : h.outcome = some outcome)
    (hkind : ∃ t ∈ d.backend.handling attemptId, runKind t.created.job.jobType = some h.kind)
    (hstep : d.backend.step cfg.backend (.finishTask attemptId outcome env) = some b) :
    b.store.CompletedAll d.runs.Vouches := by
  apply Backend.completedAll_step hd.sound hd.typed hstep hd.vouched
  intro id refs env' t j now hev ht haccepts _ htype
  cases hev
  obtain ⟨t', ht', hkind⟩ := hkind
  obtain rfl : t' = t := Option.some.inj (ht'.symm.trans ht)
  have hreads := hd.reads h (Table.find?_mem hfind)
  have hword := hspares h hfind
  unfold Handler.outcome at houtcome
  unfold Handler.Reads at hreads
  cases hstate : h.state with
  | waiting | raised => rw [hstate] at houtcome; cases houtcome
  | returned runId status =>
    rw [hstate] at houtcome hreads hword
    cases houtcome
    have hsucceeded : d.runs.Succeeded h.kind runId :=
      hreads.resolve_left fun hfruitless => hword hfruitless t' ht' haccepts
    exact vouches_complete (htype ▸ hkind) hsucceeded

theorem DomainSystem.Inv.step (hd : d.Inv) {e : DomainEvent} (hspares : d.Spares e)
    (hstep : d.step cfg e = some d') : d.Advances d' := by
  cases e with
  | backend ev =>
    simp only [DomainSystem.step] at hstep
    split_ifs at hstep with hforeign
    obtain ⟨b, hb, rfl⟩ := Option.map_eq_some_iff.mp hstep
    apply hd.settle hb
    apply Backend.completedAll_step hd.sound hd.typed hb hd.vouched
    rintro attemptId refs env t j now rfl ht _ _ htype kind hkind
    have hnone : runKind t.created.job.jobType = none := hforeign t ht
    have hkind' : runKind j.jobType = some kind := hkind
    rw [htype, hnone] at hkind'
    cases hkind'
  | runs ev =>
    obtain ⟨runs, hruns, rfl⟩ := Option.map_eq_some_iff.mp hstep
    exact hd.runs (step_grows hruns)
  | prepare attemptId p =>
    simp only [DomainSystem.step, Option.bind_eq_some_iff, Option.map_eq_some_iff] at hstep
    obtain ⟨t, _, kind, _, ⟨result, runs⟩, hprepare, handlers, hins, rfl⟩ := hstep
    obtain ⟨hruns, hgrows, hvouched⟩ := hd.runs (prepareRun_grows hprepare)
    refine ⟨⟨hruns.sound, hruns.typed, hruns.vouched, fun k hk => ?_⟩, hgrows, hvouched⟩
    rcases (Table.mem_insert hins k).mp hk with hold | rfl
    · exact hruns.reads k hold
    · cases result <;> trivial
  | poll attemptId due now =>
    simp only [DomainSystem.step, Option.bind_eq_some_iff] at hstep
    obtain ⟨t, ht, h, hfind, hstep⟩ := hstep
    rw [← Table.find?_key hfind] at hfind
    split at hstep
    · cases hstep
      exact hd.poll ht hfind
    · cases hstep
  | raise attemptId e =>
    obtain ⟨h, hfind, rfl⟩ := Option.map_eq_some_iff.mp hstep
    rw [← Table.find?_key hfind] at hfind
    exact hd.become hfind trivial
  | finish attemptId env =>
    simp only [DomainSystem.step, Option.bind_eq_some_iff] at hstep
    obtain ⟨h, hfind, outcome, houtcome, hstep⟩ := hstep
    split_ifs at hstep with hkind
    obtain ⟨b, hb, rfl⟩ := Option.map_eq_some_iff.mp hstep
    exact hd.settle hb (vouched_finish hd hspares hfind houtcome hkind hb)

end Steps

/-- In every run in which no handler is taken at its word after a fruitless run, the
runs of all completed jobs succeeded. -/
theorem completesHonestly_of_spares (cfg : DomainConfig) :
    CompletesHonestly cfg DomainSystem.Spares := by
  intro events d e d' hrun hspares hstep
  have hinv : d.Inv := hrun.invariant DomainSystem.Inv
    (fun _ _ _ hinv hspares hstep => (hinv.step hspares hstep).inv) .empty
  obtain ⟨_, hgrows, hvouched⟩ := hinv.step hspares hstep
  exact fun j hj hdone => ⟨hvouched j hj hdone, hgrows.vouches (hvouched j hj hdone)⟩

def sampleDomainConfig : DomainConfig where
  backend := sampleConfig
  runs :=
    { sha256 := id
      strip := id
      alignmentRunId := fun _ _ _ _ _ => "alignment_run"
      evaluationRunId := fun _ _ _ _ => "evaluation_run" }

def researchJob : List DomainEvent :=
  [.backend (.submit { sampleSubmission with jobType := .research }
      ⟨sampleIds "1", "1", "1", "1"⟩ 1),
    .backend (.beginTask "attempt_1" (CallEnv.faultless (sampleIds "2") 2)),
    .prepare "attempt_1" (.research "request" "1"),
    .runs (.research "run_1" (.acquire "coordinator" 30000000))]

def publishedRun (publication : Research.Publication) : List DomainEvent :=
  researchJob ++
    [.runs (.research "run_1" (.read 0 publication)), .runs (.research "run_1" (.write 0)),
      .poll "attempt_1" true 3]

def returnedHandler : DomainEvent := .finish "attempt_1" (CallEnv.faultless (sampleIds "2") 4)

/-- A coordinator that shuts down interrupts the run, and the job is completed. -/
theorem not_completesHonestly_interrupted :
    ¬ CompletesHonestly sampleDomainConfig Machine.Free := by
  intro hhonest
  obtain ⟨d, hd, d', hd', j, hj, hdone, hkind, hrefs, hrun⟩ :
      ∃ d ∈ (DomainSystem.machine sampleDomainConfig).exec Machine.Free .empty
        (publishedRun (.interrupted "application_shutdown")),
      ∃ d' ∈ d.step sampleDomainConfig returnedHandler,
      ∃ j ∈ d'.backend.store.jobs.rows, j.status = .completed ∧
        runKind j.jobType = some .research ∧
        j.resultArtifactRefIds = ["business:research_run:run_1"] ∧
        ¬ d'.runs.Succeeded .research "run_1" := by
    decide +kernel
  obtain ⟨_, hvouched⟩ := hhonest _ _ _ _ (Machine.run_of_exec hd) trivial hd' j hj hdone
  obtain ⟨runId, hrefs', hsucceeded⟩ := hvouched _ hkind
  have hname : "business:research_run:" ++ "run_1" = "business:research_run:" ++ runId :=
    List.singleton_inj.mp (hrefs.symm.trans hrefs')
  rw [← (String.append_right_inj _).mp hname] at hsucceeded
  exact hrun hsucceeded

end CodeResearch.DomainJobs
