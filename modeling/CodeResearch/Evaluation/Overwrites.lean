import CodeResearch.Evaluation.Processing

/-!
# Updates that overwrite each other

The write of `update_run` replaces the whole record of a run that has not ended. It
undoes what others have written since its copy was read: a newer status, or a cancel.
Without such a write, runs follow their transitions and keep a cancel.
-/
namespace CodeResearch.DomainJobs

open ControlPlane (Timestamp)

/-- An update that a call may make from a copy. -/
structure EvaluationRun.Follows (copy new : EvaluationRun) : Prop where
  runId : new.runId = copy.runId
  status : new.status = copy.status ∨ new.status ∈ runTransitions copy.status ∨
    new.status ∈ [EvaluationStatus.failed, .cancelled]
  cancelRequested : copy.cancelRequested = true → new.cancelRequested = true

/-- What the code has made sure of when a call is at this point. -/
def EvaluationCall.Sound : EvaluationCall → Prop
  | .checking copy new next | .writing copy new next =>
    copy.Follows new ∧ (next = .cancelled → new.cancelRequested = true)
  | .scoring run => run.status ∈ [EvaluationStatus.aggregating, .comparing]
  | _ => True

theorem mem_runTransitions_of_live {s t : EvaluationStatus} (hs : ¬ s.Terminal)
    (ht : t ∈ [EvaluationStatus.failed, .cancelled]) : t ∈ runTransitions s := by
  revert hs ht
  cases s <;> cases t <;> decide

namespace EvaluationCall

variable {run copy new : EvaluationRun} {now : Timestamp} {next : Resumption}

theorem sound_afterPrepared : (afterPrepared run now).Sound := by
  unfold afterPrepared
  split_ifs with hcancel hpreparing
  · exact ⟨⟨rfl, .inr (.inr (by simp [EvaluationRun.terminal])), id⟩, nofun⟩
  · refine ⟨⟨rfl, .inr (.inl ?_), id⟩, nofun⟩
    rw [hpreparing]
    exact (by decide : EvaluationStatus.running ∈ runTransitions .preparing)
  · trivial

theorem sound_afterStart : (afterStart run now).Sound := by
  unfold afterStart
  split_ifs with hqueued
  · refine ⟨⟨rfl, .inr (.inl ?_), id⟩, nofun⟩
    rw [hqueued]
    exact (by decide : EvaluationStatus.preparing ∈ runTransitions .queued)
  · exact sound_afterPrepared

theorem sound_afterAggregated : (afterAggregated run).Sound := by
  unfold afterAggregated
  split_ifs with hstatus
  · exact hstatus
  · trivial

theorem sound_afterExecuted : (afterExecuted run now).Sound := by
  unfold afterExecuted
  split_ifs with hcancel hrunning
  · exact ⟨⟨rfl, .inr (.inr (by simp [EvaluationRun.terminal])), id⟩, nofun⟩
  · refine ⟨⟨rfl, .inr (.inl ?_), id⟩, nofun⟩
    rw [hrunning]
    exact (by decide : EvaluationStatus.aggregating ∈ runTransitions .running)
  · exact sound_afterAggregated

theorem sound_afterScored (h : (scoring run).Sound) (complete : Bool) (content : String) :
    (afterScored run complete content now).Sound := by
  refine ⟨⟨rfl, .inr (.inl ?_), id⟩, nofun⟩
  have hstatus : run.status = .aggregating ∨ run.status = .comparing := by
    simpa [Sound] using h
  rcases hstatus with hstatus | hstatus <;> cases complete <;>
    simp [EvaluationRun.terminal, hstatus, runTransitions]

theorem sound_afterUpdate : ∀ c ∈ afterUpdate new now next, c.Sound := by
  intro c hc
  cases next <;> cases hc
  · exact sound_afterPrepared
  · trivial
  · exact sound_afterAggregated

theorem sound_afterError (errorCode : String) (c : EvaluationCall) :
    ∀ d ∈ c.afterError errorCode, d.Sound := by
  intro d hd
  cases c with
  | starting | executing | scoring => cases hd; trivial
  | failing | cancelling => cases hd
  | checking copy new next | writing copy new next =>
    simp only [afterError] at hd
    split_ifs at hd <;> cases hd
    trivial

theorem sound_fail (errorCode : String) :
    (checking run (run.fail errorCode now) .marked).Sound :=
  ⟨⟨rfl, .inr (.inr (by simp [EvaluationRun.fail])), id⟩, nofun⟩

theorem sound_cancel : (checking run (run.cancel now) .cancelled).Sound :=
  ⟨⟨rfl, .inl rfl, fun _ => rfl⟩, fun _ => rfl⟩

end EvaluationCall

section Steps

variable {cfg : RunConfig} {runs created : EvaluationRuns}

theorem saveEvaluationRun_ok {run : EvaluationRun} (h : saveEvaluationRun run runs = .ok created) :
    created = runs ∨ runs.insert run = some created := by
  unfold saveEvaluationRun at h
  split at h
  · rename_i hins
    cases h
    exact .inr hins
  · split_ifs at h
    cases h
    exact .inl rfl

theorem prepareEvaluationRun_ok {request : EvaluationRunRequest} {now : Timestamp} {runId : String}
    (h : prepareEvaluationRun cfg request now runs = .ok (runId, created)) :
    created = runs ∨ ∃ run, runs.insert run = some created := by
  unfold prepareEvaluationRun at h
  dsimp only at h
  split at h
  · cases h
    exact .inl rfl
  · simp only [except_bind_eq_ok_iff, except_pure_eq_ok_iff, Prod.mk.injEq] at h
    obtain ⟨attempt, _, saved, hsave, _, rfl⟩ := h
    rcases saveEvaluationRun_ok hsave with hsame | hins
    · exact .inl hsame
    · exact .inr ⟨_, hins⟩

theorem writeEvaluationUpdate_ok {new : EvaluationRun} {runs written : EvaluationRuns}
    (h : writeEvaluationUpdate new runs = .ok written) :
    ∃ row, runs.find? new.runId = some row ∧ ¬ row.status.Terminal ∧
      written = runs.replace new := by
  unfold writeEvaluationUpdate at h
  split at h
  · cases h
  · rename_i row hrow
    split_ifs at h with hlive
    cases h
    exact ⟨row, hrow, hlive, rfl⟩

namespace Processing

/-- What a step does to the runs and to the accepted cancels. -/
inductive Change (p t : Processing) : ProcessingLabel → Prop
  | kept {a : ProcessingLabel} (runs : t.runs = p.runs) (cancelled : t.cancelled = p.cancelled) :
      Change p t a
  | prepared {a : ProcessingLabel} {run : EvaluationRun} (runs : p.runs.insert run = some t.runs)
      (cancelled : t.cancelled = p.cancelled) : Change p t a
  | written {k : ℕ} {now : Timestamp} {copy new row : EvaluationRun} {next : Resumption}
      (call : p.calls[k]? = some (.writing copy new next))
      (found : p.runs.find? new.runId = some row) (live : ¬ row.status.Terminal)
      (runs : t.runs = p.runs.replace new)
      (cancelled : t.cancelled = if next = .cancelled then new.runId :: p.cancelled
        else p.cancelled) : Change p t (.advance k now)

theorem mem_resume {p : Processing} {k : ℕ} {next : Option EvaluationCall} {c : EvaluationCall}
    (hc : c ∈ (p.resume k next).calls) : c ∈ next ∨ c ∈ p.calls := by
  rcases List.mem_append.mp hc with hnext | hold
  · exact .inl (Option.mem_toList.mp hnext)
  · exact .inr (List.mem_of_mem_eraseIdx hold)

variable {a : ProcessingLabel}

theorem change_resume {p : Processing} (k : ℕ) (next : Option EvaluationCall) :
    Change p (p.resume k next) a :=
  .kept rfl rfl

variable {p t : Processing}

theorem change_advance {k : ℕ} {now : Timestamp} {c : EvaluationCall} (hc : p.calls[k]? = some c)
    (h : p.advance k now c = some t) :
    Change p t (.advance k now) := by
  cases c with
  | scoring run => cases h
  | starting | executing | failing | cancelling =>
    cases h
    exact change_resume k _
  | checking copy new next =>
    cases h
    split <;> exact change_resume k _
  | writing copy new next =>
    cases h
    split
    · rename_i runs hwrite
      obtain ⟨row, hrow, hlive, rfl⟩ := writeEvaluationUpdate_ok hwrite
      exact .written hc hrow hlive rfl rfl
    · exact change_resume k _

theorem step_change (h : step cfg p a = some t) : Change p t a := by
  cases a with
  | prepare request now =>
    simp only [step] at h
    split at h <;> cases h
    · rename_i hprepare
      rcases prepareEvaluationRun_ok hprepare with hsame | ⟨run, hins⟩
      · exact .kept hsame rfl
      · exact .prepared hins rfl
    · exact .kept rfl rfl
  | process | requestCancel =>
    cases h
    exact .kept rfl rfl
  | advance k now =>
    obtain ⟨c, hc, hadvance⟩ := Option.bind_eq_some_iff.mp h
    exact change_advance hc hadvance
  | score k complete content now =>
    obtain ⟨c, hc, hscore⟩ := Option.bind_eq_some_iff.mp h
    cases c <;> cases hscore
    exact change_resume k _
  | raise k errorCode =>
    obtain ⟨c, _, rfl⟩ := Option.map_eq_some_iff.mp h
    exact change_resume k _
  | crash k =>
    obtain ⟨c, _, rfl⟩ := Option.map_eq_some_iff.mp h
    exact change_resume k none

/-- The calls in flight stay sound. -/
theorem sound_step (hp : ∀ c ∈ p.calls, c.Sound) (h : step cfg p a = some t) :
    ∀ c ∈ t.calls, c.Sound := by
  have hresume : ∀ {k : ℕ} {next : Option EvaluationCall}, (∀ c ∈ next, c.Sound) →
      ∀ c ∈ (p.resume k next).calls, c.Sound := by
    intro k next hnext c hc
    rcases mem_resume hc with hnew | hold
    · exact hnext c hnew
    · exact hp c hold
  have hread : ∀ {k : ℕ} {found : Option EvaluationRun} {next : EvaluationRun → EvaluationCall},
      (∀ run, (next run).Sound) → ∀ c ∈ (p.resume k (found.map next)).calls, c.Sound := by
    intro k found next hnext
    apply hresume
    simp only [Option.mem_def, Option.map_eq_some_iff]
    rintro _ ⟨run, _, rfl⟩
    exact hnext run
  cases a with
  | prepare request now =>
    simp only [step] at h
    split at h <;> cases h <;> exact hp
  | process | requestCancel =>
    cases h
    intro c hc
    rcases List.mem_cons.mp hc with rfl | hold
    · trivial
    · exact hp c hold
  | advance k now =>
    obtain ⟨c, hc, hadvance⟩ := Option.bind_eq_some_iff.mp h
    have hsound := hp c (List.mem_of_getElem? hc)
    cases c with
    | scoring run => cases hadvance
    | starting runId =>
      cases hadvance
      exact hread fun _ => EvaluationCall.sound_afterStart
    | executing run =>
      cases hadvance
      exact hread fun _ => EvaluationCall.sound_afterExecuted
    | failing runId errorCode =>
      cases hadvance
      exact hread fun _ => EvaluationCall.sound_fail errorCode
    | cancelling runId =>
      cases hadvance
      exact hread fun _ => EvaluationCall.sound_cancel
    | checking copy new next =>
      cases hadvance
      split
      · apply hresume
        intro c hc
        rw [← Option.some.inj hc]
        exact hsound
      · exact hresume (EvaluationCall.sound_afterError _ _)
    | writing copy new next =>
      cases hadvance
      split
      · exact hresume EvaluationCall.sound_afterUpdate
      · exact hresume (EvaluationCall.sound_afterError _ _)
  | score k complete content now =>
    obtain ⟨c, hc, hscore⟩ := Option.bind_eq_some_iff.mp h
    have hsound := hp c (List.mem_of_getElem? hc)
    cases c <;> cases hscore
    apply hresume
    intro c hc
    rw [← Option.some.inj hc]
    exact EvaluationCall.sound_afterScored hsound complete content
  | raise k errorCode =>
    obtain ⟨c, _, rfl⟩ := Option.map_eq_some_iff.mp h
    exact hresume (EvaluationCall.sound_afterError errorCode c)
  | crash k =>
    obtain ⟨c, _, rfl⟩ := Option.map_eq_some_iff.mp h
    apply hresume
    intro c hc
    cases hc

variable (cfg)

def Moves (p t : Processing) : Prop :=
  ∀ runId run, p.runs.find? runId = some run → ∃ run', t.runs.find? runId = some run' ∧
    (run'.status = run.status ∨ run'.status ∈ runTransitions run.status)

/-- The cancels that were accepted are still requested, until the runs have ended; and
none of these runs has completed without. -/
def KeepsCancels (p : Processing) : Prop :=
  ∀ runId ∈ p.cancelled, ∀ run, p.runs.find? runId = some run →
    ¬ run.status.Terminal ∨ run.status = .completed → run.cancelRequested = true

/-- In every run whose steps meet the guard, statuses follow their transitions and
cancels are kept. -/
def CancelsKept (G : Processing → ProcessingLabel → Prop) : Prop :=
  ∀ labels p, (machine cfg).Run G .init labels p →
    p.KeepsCancels ∧ ∀ a t, G p a → step cfg p a = some t → p.Moves t

/-- No write undoes another one. A write to a run that has not ended finds it in the
status of its copy or in its own, unless it fails or cancels the run. And it finds no
cancel that its copy does not have, unless it requests the cancel or ends the run as
partial, failed or cancelled. -/
def Spares (p : Processing) : ProcessingLabel → Prop
  | .advance k _ => ∀ copy new next row, p.calls[k]? = some (.writing copy new next) →
    p.runs.find? new.runId = some row → ¬ row.status.Terminal →
      (row.status ∈ [copy.status, new.status] ∨
        new.status ∈ [EvaluationStatus.failed, .cancelled]) ∧
      (row.cancelRequested = true → copy.cancelRequested = true ∨ next = .cancelled ∨
        new.status ∈ [EvaluationStatus.partialResult, .failed, .cancelled])
  | _ => True

structure Inv (p : Processing) : Prop where
  sound : ∀ c ∈ p.calls, c.Sound
  stored : ∀ runId ∈ p.cancelled, (p.runs.find? runId).isSome
  kept : p.KeepsCancels

theorem inv_init : Inv .init := by
  constructor <;> simp [init, KeepsCancels]

variable {cfg}

/-- A write that undoes no other one makes a transition. -/
theorem Inv.moves (h : Inv p) (hspares : p.Spares a) (hchange : Change p t a) : p.Moves t := by
  intro runId run hrun
  cases hchange with
  | kept hruns hcancelled => exact ⟨run, hruns ▸ hrun, .inl rfl⟩
  | prepared hins hcancelled => exact ⟨run, Table.find?_insert_of_some hins hrun, .inl rfl⟩
  | @written k now copy new row next hcall hrow hlive hruns hcancelled =>
    rw [hruns]
    by_cases hid : runId = new.runId
    · subst hid
      obtain rfl : row = run := Option.some.inj (hrow.symm.trans hrun)
      refine ⟨new, Table.find?_replace_self (by rw [hrow]; rfl), ?_⟩
      obtain ⟨hfollows, _⟩ := h.sound _ (List.mem_of_getElem? hcall)
      have hclosing : new.status ∈ [EvaluationStatus.failed, .cancelled] →
          new.status ∈ runTransitions row.status := mem_runTransitions_of_live hlive
      rcases (hspares copy new next row hcall hrow hlive).1 with hstatus | hfinal
      · rcases List.mem_cons.mp hstatus with hcopy | hsame
        · rw [hcopy] at hclosing ⊢
          rcases hfollows.status with hsame | hmove | hfinal
          · exact .inl hsame
          · exact .inr hmove
          · exact .inr (hclosing hfinal)
        · exact .inl (List.mem_singleton.mp hsame).symm
      · exact .inr (hclosing hfinal)
    · exact ⟨run, by rwa [Table.find?_replace_of_ne _ hid], .inl rfl⟩

theorem Inv.step (h : Inv p) (hspares : p.Spares a) (hstep : Processing.step cfg p a = some t) :
    Inv t := by
  have hsound := sound_step h.sound hstep
  cases step_change hstep with
  | kept hruns hcancelled =>
    refine ⟨hsound, ?_, ?_⟩
    · rw [hcancelled, hruns]
      exact h.stored
    · rw [KeepsCancels, hcancelled, hruns]
      exact h.kept
  | prepared hins hcancelled =>
    refine ⟨hsound, ?_, ?_⟩
    · intro runId hmem
      rw [hcancelled] at hmem
      obtain ⟨run, hrun⟩ := Option.isSome_iff_exists.mp (h.stored runId hmem)
      rw [Table.find?_insert_of_some hins hrun]
      rfl
    · intro runId hmem run hrun
      rw [hcancelled] at hmem
      obtain ⟨old, hold⟩ := Option.isSome_iff_exists.mp (h.stored runId hmem)
      rw [Table.find?_insert_of_some hins hold] at hrun
      obtain rfl : old = run := Option.some.inj hrun
      exact h.kept runId hmem old hold
  | @written k now copy new row next hcall hrow hlive hruns hcancelled =>
    obtain ⟨hfollows, hrequest⟩ := h.sound _ (List.mem_of_getElem? hcall)
    have hself : t.runs.find? new.runId = some new := by
      rw [hruns]
      exact Table.find?_replace_self (by rw [hrow]; rfl)
    have hother : ∀ runId, runId ≠ new.runId → t.runs.find? runId = p.runs.find? runId := by
      intro runId hid
      rw [hruns]
      exact Table.find?_replace_of_ne _ hid
    have hmem : ∀ runId ∈ t.cancelled, runId ∈ p.cancelled ∨ runId = new.runId ∧ next = .cancelled := by
      intro runId hrunId
      rw [hcancelled] at hrunId
      split_ifs at hrunId with hnext
      · rcases List.mem_cons.mp hrunId with hnew | hold
        · exact .inr ⟨hnew, hnext⟩
        · exact .inl hold
      · exact .inl hrunId
    refine ⟨hsound, ?_, ?_⟩
    · intro runId hrunId
      by_cases hid : runId = new.runId
      · rw [hid, hself]
        rfl
      · rw [hother runId hid]
        rcases hmem runId hrunId with hold | ⟨hnew, _⟩
        · exact h.stored runId hold
        · exact absurd hnew hid
    · intro runId hrunId run hrun hstatus
      by_cases hid : runId = new.runId
      · rw [hid, hself] at hrun
        obtain rfl : new = run := Option.some.inj hrun
        rcases hmem runId hrunId with hold | ⟨_, hnext⟩
        · have hrequested : row.cancelRequested = true :=
            h.kept runId hold row (hid ▸ hrow) (.inl hlive)
          rcases (hspares copy new next row hcall hrow hlive).2 hrequested with
            hcopy | hnext | hclosing
          · exact hfollows.cancelRequested hcopy
          · exact hrequest hnext
          · exfalso
            revert hstatus hclosing
            cases new.status <;> decide
        · exact hrequest hnext
      · rw [hother runId hid] at hrun
        rcases hmem runId hrunId with hold | ⟨hnew, _⟩
        · exact h.kept runId hold run hrun hstatus
        · exact absurd hnew hid

/-- Runs follow their transitions and keep their cancels as long as no write undoes
another one. -/
theorem cancelsKept_of_spares (cfg : RunConfig) : CancelsKept cfg Spares := by
  intro labels p hrun
  have hinv : Inv p :=
    Machine.Run.invariant Inv (fun _ _ _ h hspares hstep => h.step hspares hstep) hrun inv_init
  refine ⟨hinv.kept, ?_⟩
  intro a t hspares hstep
  exact hinv.moves hspares (step_change hstep)

theorem step_ended (h : step cfg p a = some t) {runId : String} {run : EvaluationRun}
    (hrun : p.runs.find? runId = some run) (hended : run.status.Terminal) :
    t.runs.find? runId = some run := by
  cases step_change h with
  | kept hruns _ => rwa [hruns]
  | prepared hins _ => exact Table.find?_insert_of_some hins hrun
  | @written _ _ _ new row _ _ hrow hlive hruns _ =>
    have hne : runId ≠ new.runId := by
      rintro rfl
      cases hrow.symm.trans hrun
      exact hlive hended
    rwa [hruns, Table.find?_replace_of_ne _ hne]

/-- A record that has ended is final, whatever copies of it the calls in flight hold. -/
def KeepsEnded (cfg : RunConfig) : Prop :=
  ∀ labels p t, (machine cfg).Run Machine.Free p labels t → ∀ runId run,
    p.runs.find? runId = some run → run.status.Terminal → t.runs.find? runId = some run

theorem keepsEnded (cfg : RunConfig) : KeepsEnded cfg := by
  intro labels p t hrun runId run hfound hended
  apply hrun.invariant (fun q => q.runs.find? runId = some run) ?_ hfound
  exact fun _ _ _ hq _ hstep => step_ended hstep hq hended

/-- Stores whose identifiers are written out. -/
def sampleConfig : RunConfig where
  sha256 := id
  strip := id
  alignmentRunId := fun a b c d n => a ++ b ++ c ++ d ++ toString n
  evaluationRunId := fun fingerprint attempt _ _ => fingerprint ++ toString attempt

def cancelUnderway : List ProcessingLabel :=
  [.prepare ⟨"run", none, false, none, ""⟩ 1, .process "run1", .advance 0 2, .advance 0 2,
    .requestCancel "run1", .advance 0 3, .advance 0 3, .advance 0 3, .advance 0 4]

theorem cancelUnderway_lost : ¬ CancelsKept sampleConfig Machine.Free := by
  intro h
  obtain ⟨p, hp, hcancelled, run, hrun, hlive, hlost⟩ :
      ∃ p ∈ (machine sampleConfig).exec Machine.Free .init cancelUnderway,
        "run1" ∈ p.cancelled ∧ ∃ run ∈ p.runs.find? "run1", ¬ run.status.Terminal ∧
          run.cancelRequested = false := by decide +kernel
  have hkept := (h _ p (Machine.run_of_exec hp)).1 "run1" hcancelled run hrun (.inl hlive)
  rw [hlost] at hkept
  cases hkept

end Processing

end Steps

end CodeResearch.DomainJobs
