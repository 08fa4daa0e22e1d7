import CodeResearch.Observability.Recorder

/-!
# What happened to every command

A command that was submitted is applied, on its way, or noted as lost, and the commands
that were not lost keep their order.
-/
namespace CodeResearch.Observability

def Writer.batch : Writer → List TelemetryCommand
  | .collecting batch | .writing batch _ _ => batch
  | .swapping | .marking _ _ => []

def Submission.held : Submission → List TelemetryCommand
  | .noting displaced _ => [displaced]
  | .displacing _ | .putting _ | .dropping _ => []

def Recorder.held (s : Recorder) : List TelemetryCommand := s.submissions.flatMap Submission.held

@[simp] theorem Writer.batch_collecting (batch : List TelemetryCommand) :
    (Writer.collecting batch).batch = batch := rfl

@[simp] theorem Writer.batch_writing (batch failing : List TelemetryCommand) (attempt : ℕ) :
    (Writer.writing batch failing attempt).batch = batch := rfl

@[simp] theorem Writer.batch_swapping : Writer.swapping.batch = [] := rfl

@[simp] theorem Writer.batch_marking (mark : IntegrityMark) (marks : List IntegrityMark) :
    (Writer.marking mark marks).batch = [] := rfl

@[simp] theorem Writer.batch_next (marks : List IntegrityMark) : (Writer.next marks).batch = [] := by
  cases marks <;> rfl

namespace ObservabilityStore

def Holds (s : ObservabilityStore) (command : TelemetryCommand) : Prop :=
  (s.telemetryCommands.find? command.commandId).isSome

end ObservabilityStore

namespace Recorder

variable {config : RecorderConfig} {s t : Recorder} {submission : Submission}

/-- Every submitted command is applied, on its way or lost, as often as it was submitted. -/
structure Accounts (s : Recorder) : Prop where
  counts : ∀ c, s.submitted.count c = s.applied.count c + s.writer.batch.count c +
    s.queue.count c + s.held.count c + (s.lost.map Prod.fst).count c
  sublist : List.Sublist (s.applied ++ s.writer.batch ++ s.queue) s.submitted
  kinds : ∀ entry ∈ s.lost, entry.2 = .queueDrop ∨ entry.2 = .storeFailure

theorem Accounts.put (h : s.Accounts) {command : TelemetryCommand} {next : Submission}
    (hnext : next.held = []) : (s.put config command next).Accounts := by
  unfold Recorder.put
  split_ifs
  · refine ⟨?_, ?_, h.kinds⟩
    · intro c
      have hc := h.counts c
      simp only [List.count_append, Recorder.held] at hc ⊢
      omega
    · dsimp only
      rw [← List.append_assoc]
      exact h.sublist.append (List.Sublist.refl _)
  · refine ⟨?_, h.sublist, h.kinds⟩
    intro c
    have hc := h.counts c
    simpa [Recorder.held, hnext] using hc

theorem count_held {k : ℕ} (hk : s.submissions[k]? = some submission) (c : TelemetryCommand) :
    s.held.count c = submission.held.count c +
      ((s.submissions.eraseIdx k).flatMap Submission.held).count c := by
  obtain ⟨hlt, rfl⟩ := List.getElem?_eq_some_iff.mp hk
  have hperm := (List.getElem_cons_eraseIdx_perm hlt).flatMap_right Submission.held
  rw [Recorder.held, ← hperm.count_eq c, List.flatMap_cons, List.count_append]

theorem Accounts.proceed (h : s.Accounts) {k : ℕ} (hk : s.submissions[k]? = some submission) :
    ({ s with submissions := s.submissions.eraseIdx k }.proceed config submission).Accounts := by
  have hheld := count_held hk
  cases submission with
  | displacing command =>
    unfold Recorder.proceed
    dsimp only
    cases hqueue : s.queue with
    | nil =>
      refine ⟨?_, by simpa [hqueue] using h.sublist, h.kinds⟩
      intro c
      have hc := h.counts c
      have hcall := hheld c
      simp only [Recorder.held, List.flatMap_cons, List.count_append, Submission.held, hqueue,
        List.count_nil] at hc hcall ⊢
      omega
    | cons displaced queue =>
      refine ⟨?_, ?_, h.kinds⟩
      · intro c
        have hc := h.counts c
        have hcall := hheld c
        simp only [Recorder.held, List.flatMap_cons, List.count_append, Submission.held, hqueue,
          List.count_nil, List.count_cons] at hc hcall ⊢
        omega
      · have hsub := h.sublist
        rw [hqueue] at hsub
        have hless := (List.sublist_cons_self displaced queue).append_left
          (s.applied ++ s.writer.batch)
        exact hless.trans hsub
  | noting displaced command =>
    refine ⟨?_, h.sublist, ?_⟩
    · intro c
      have hc := h.counts c
      have hcall := hheld c
      simp only [Recorder.proceed, Recorder.drop, Recorder.held, List.flatMap_cons,
        List.count_append, Submission.held, List.map_append, List.map_cons, List.map_nil,
        List.count_nil] at hc hcall ⊢
      omega
    · exact List.forall_mem_append.mpr ⟨h.kinds, by simp⟩
  | putting command =>
    have herased : Accounts { s with submissions := s.submissions.eraseIdx k } := by
      refine ⟨?_, h.sublist, h.kinds⟩
      intro c
      have hc := h.counts c
      have hcall := hheld c
      simp only [Recorder.held, Submission.held, List.count_nil] at hc hcall ⊢
      omega
    exact herased.put rfl
  | dropping command =>
    refine ⟨?_, ?_, ?_⟩
    · intro c
      have hc := h.counts c
      have hcall := hheld c
      simp only [Recorder.proceed, Recorder.drop, Recorder.held, List.count_append,
        Submission.held, List.map_append, List.map_cons, List.map_nil, List.count_nil]
        at hc hcall ⊢
      omega
    · exact h.sublist.trans (List.sublist_append_left _ _)
    · exact List.forall_mem_append.mpr ⟨h.kinds, by simp⟩

theorem foldl_drop (batch : List TelemetryCommand) (flag : IntegrityFlag) (s : Recorder) :
    batch.foldl (fun s command => s.drop command flag) s =
      { s with
        notes := batch.foldl (fun notes command => notes.recordDrop command.traceId flag) s.notes
        lost := s.lost ++ batch.map fun command => (command, flag) } := by
  induction batch generalizing s with
  | nil => simp
  | cons command batch ih =>
    rw [List.foldl_cons, ih]
    simp [Recorder.drop]

theorem Accounts.fail (h : s.Accounts) {batch failing failing' : List TelemetryCommand} {k : ℕ}
    (hwriter : s.writer = .writing batch failing k) :
    (s.fail batch failing' k).Accounts := by
  have hbatch : s.writer.batch = batch := by rw [hwriter]; rfl
  unfold Recorder.fail
  split_ifs
  · refine ⟨?_, by simpa [hbatch] using h.sublist, h.kinds⟩
    intro c
    have hc := h.counts c
    rw [hbatch] at hc
    exact hc
  · rw [foldl_drop]
    refine ⟨?_, ?_, ?_⟩
    · intro c
      have hc := h.counts c
      rw [hbatch] at hc
      simp only [Recorder.held, List.map_append, List.map_map, List.count_append,
        Writer.batch_swapping, List.count_nil, Function.comp_def, List.map_id'] at hc ⊢
      omega
    · have hless := (List.sublist_append_left s.applied batch).append_right s.queue
      rw [← hbatch] at hless
      simpa using hless.trans h.sublist
    · refine List.forall_mem_append.mpr ⟨h.kinds, ?_⟩
      simp

theorem Accounts.attempt (h : s.Accounts) {batch failing : List TelemetryCommand} {k : ℕ}
    (hwriter : s.writer = .writing batch failing k) (fails : Bool) :
    (s.attempt batch failing k fails).Accounts := by
  have hbatch : s.writer.batch = batch := by rw [hwriter]; rfl
  unfold Recorder.attempt
  split_ifs
  · exact h.fail hwriter
  · split
    · refine ⟨?_, by simpa [hbatch] using h.sublist, h.kinds⟩
      intro c
      have hc := h.counts c
      rw [hbatch] at hc
      simp only [List.count_append, Writer.batch_swapping, List.count_nil, Recorder.held] at hc ⊢
      omega
    · exact h.fail hwriter

/-- A step that only moves what is on its way in the writer keeps the account. -/
theorem Accounts.of_eq (h : s.Accounts) (hsubmitted : t.submitted = s.submitted)
    (happlied : t.applied = s.applied) (hlost : t.lost = s.lost)
    (hsubmissions : t.submissions = s.submissions)
    (hway : t.writer.batch ++ t.queue = s.writer.batch ++ s.queue) : t.Accounts := by
  refine ⟨?_, ?_, hlost ▸ h.kinds⟩
  · intro c
    have hc := h.counts c
    have hwayc := congrArg (List.count c) hway
    rw [List.count_append, List.count_append] at hwayc
    rw [Recorder.held, hsubmitted, happlied, hlost, hsubmissions]
    rw [Recorder.held] at hc
    omega
  · rw [hsubmitted, happlied, List.append_assoc, hway, ← List.append_assoc]
    exact h.sublist

theorem Accounts.step (h : s.Accounts) {label : RecorderLabel}
    (hstep : s.step config label = some t) : t.Accounts := by
  cases step_moves hstep with
  | submit command => exact h.put (by split_ifs <;> rfl)
  | proceed hk => exact h.proceed hk
  | take hwriter hqueue => exact h.of_eq rfl rfl rfl rfl (by simp [hwriter, hqueue])
  | idle hwriter | close hwriter => exact h.of_eq rfl rfl rfl rfl (by simp [hwriter])
  | attempt hwriter fails => exact h.attempt hwriter fails
  | swap hwriter => exact h.of_eq rfl rfl rfl rfl (by simp [Recorder.swap, hwriter])
  | mark hwriter raises =>
    unfold Recorder.mark
    split_ifs <;> exact h.of_eq rfl rfl rfl rfl (by simp [hwriter])
  | retain => exact h.of_eq rfl rfl rfl rfl rfl

theorem accounts_initial : ({} : Recorder).Accounts :=
  ⟨by simp [Recorder.held], by simp, by simp⟩

end Recorder

end CodeResearch.Observability
