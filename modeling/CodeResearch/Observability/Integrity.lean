import CodeResearch.Observability.Batches

/-!
# What a complete trace has lost

Losses are counted in memory by their traces and reach the rows of the traces later. They
reach them as long as a row is there when its losses are marked, the marks do not raise,
and no drain finds a trace that lost commands to the store alone.
-/
namespace CodeResearch.Observability

namespace Notes

variable (notes : Notes)

def count (traceId : String) : ℕ := ((notes.find? traceId).map NoteRow.dropped).getD 0

def flags (traceId : String) : Finset IntegrityFlag :=
  ((notes.find? traceId).map NoteRow.flags).getD ∅

@[simp] theorem count_empty (traceId : String) : Notes.count .empty traceId = 0 := rfl

@[simp] theorem flags_empty (traceId : String) : Notes.flags .empty traceId = ∅ := rfl

theorem count_recordDrop (traceId : String) (flag : IntegrityFlag) (id : String) :
    (notes.recordDrop traceId flag).count id = notes.count id + if traceId = id then 1 else 0 := by
  unfold count recordDrop
  split_ifs with h
  · subst h
    have hself := notes.find?_upsert_self ⟨traceId, 1, {flag}⟩
      (fun note => { note with dropped := note.dropped + 1, flags := insert flag note.flags })
      fun _ => rfl
    rw [hself]
    cases notes.find? traceId <;> simp
  · rw [notes.find?_upsert_of_ne _ _ _ fun heq => h heq.symm]
    rfl

theorem mem_flags_recordDrop (traceId : String) (flag : IntegrityFlag) {id : String}
    {f : IntegrityFlag} : f ∈ (notes.recordDrop traceId flag).flags id ↔
      f ∈ notes.flags id ∨ traceId = id ∧ f = flag := by
  unfold flags recordDrop
  by_cases h : traceId = id
  · subst h
    have hself := notes.find?_upsert_self ⟨traceId, 1, {flag}⟩
      (fun note => { note with dropped := note.dropped + 1, flags := insert flag note.flags })
      fun _ => rfl
    rw [hself]
    cases notes.find? traceId <;> simp [or_comm]
  · rw [notes.find?_upsert_of_ne _ _ _ fun heq => h heq.symm]
    simp [h]

end Notes

/-- The calls of `mark_integrity` that are to be made. -/
def Writer.marks : Writer → List IntegrityMark
  | .marking mark marks => mark :: marks
  | .collecting _ | .writing _ _ _ | .swapping => []

@[simp] theorem Writer.marks_next (marks : List IntegrityMark) : (Writer.next marks).marks = marks := by
  cases marks <;> rfl

def markedCount (marks : List IntegrityMark) (traceId : String) : ℕ :=
  ((marks.filter fun mark => mark.traceId = traceId).map IntegrityMark.dropped).sum

theorem traceId_of_mem_marks {note : NoteRow} {mark : IntegrityMark} (h : mark ∈ note.marks) :
    mark.traceId = note.traceId := by
  obtain ⟨flag, _, rfl⟩ := List.mem_map.mp h
  rfl

theorem filter_flatMap_marks {rows : List NoteRow} (h : (rows.map NoteRow.traceId).Nodup)
    (traceId : String) : (rows.flatMap NoteRow.marks).filter (fun mark => mark.traceId = traceId) =
      ((rows.find? fun row => decide (row.traceId = traceId)).map NoteRow.marks).getD [] := by
  induction rows with
  | nil => rfl
  | cons row rows ih =>
    obtain ⟨hfresh, hrest⟩ := List.nodup_cons.mp h
    rw [List.flatMap_cons, List.filter_append, ih hrest]
    by_cases hid : row.traceId = traceId
    · have hnone : rows.find? (fun row => decide (row.traceId = traceId)) = none := by
        rw [List.find?_eq_none]
        intro other hother heq
        rw [hid, ← of_decide_eq_true heq] at hfresh
        exact hfresh (List.mem_map_of_mem hother)
      have hall : row.marks.filter (fun mark => mark.traceId = traceId) = row.marks :=
        List.filter_eq_self.mpr fun mark hmark =>
          decide_eq_true ((traceId_of_mem_marks hmark).trans hid)
      rw [hnone, hall, List.find?_cons_of_pos (by simpa using hid)]
      simp
    · have hnone : row.marks.filter (fun mark => mark.traceId = traceId) = [] :=
        List.filter_eq_nil_iff.mpr fun mark hmark heq =>
          hid ((traceId_of_mem_marks hmark).symm.trans (of_decide_eq_true heq))
      rw [hnone, List.find?_cons_of_neg (by simpa using hid), List.nil_append]

/-- The count of a trace goes with its marks when one of them is a queue drop. -/
theorem markedCount_marks (notes : Notes) (traceId : String)
    (h : ∀ note ∈ notes.rows, note.traceId = traceId → IntegrityFlag.queueDrop ∈ note.flags) :
    markedCount notes.marks traceId = notes.count traceId := by
  unfold markedCount Notes.marks Notes.count
  rw [filter_flatMap_marks notes.nodup]
  change (List.map _ (((notes.find? traceId).map NoteRow.marks).getD [])).sum = _
  cases hfind : notes.find? traceId with
  | none => rfl
  | some note =>
    have hmem := h note (Table.find?_mem hfind) (Table.find?_key hfind)
    by_cases hstore : IntegrityFlag.storeFailure ∈ note.flags
    · simp [NoteRow.marks, NoteRow.sortedFlags, hmem, hstore]
    · simp [NoteRow.marks, NoteRow.sortedFlags, hmem, hstore]

theorem exists_mark {notes : Notes} {traceId : String} {flag : IntegrityFlag}
    (h : flag ∈ notes.flags traceId) (hkind : flag = .queueDrop ∨ flag = .storeFailure) :
    ∃ mark ∈ notes.marks, mark.traceId = traceId ∧ mark.flag = flag := by
  unfold Notes.flags at h
  cases hfind : notes.find? traceId with
  | none => simp [hfind] at h
  | some note =>
    have hkey : note.traceId = traceId := Table.find?_key hfind
    rw [hfind] at h
    refine ⟨⟨note.traceId, flag, _⟩, List.mem_flatMap.mpr ⟨note, Table.find?_mem hfind,
      List.mem_map.mpr ⟨flag, ?_, rfl⟩⟩, hkey, rfl⟩
    refine List.mem_filter.mpr ⟨?_, decide_eq_true h⟩
    rcases hkind with rfl | rfl <;> simp

theorem markedCount_cons (mark : IntegrityMark) (marks : List IntegrityMark) (traceId : String) :
    markedCount (mark :: marks) traceId =
      (if mark.traceId = traceId then mark.dropped else 0) + markedCount marks traceId := by
  unfold markedCount
  by_cases h : mark.traceId = traceId
  · rw [if_pos h, List.filter_cons_of_pos (by simpa using h), List.map_cons, List.sum_cons]
  · rw [if_neg h, List.filter_cons_of_neg (by simpa using h), Nat.zero_add]

namespace Recorder

variable {config : RecorderConfig} {s t : Recorder}

def lostOf (s : Recorder) (traceId : String) : List (TelemetryCommand × IntegrityFlag) :=
  s.lost.filter fun entry => entry.1.traceId = traceId

/-- A complete trace lost nothing, and every stored trace knows its losses. -/
structure Intact (s : Recorder) : Prop where
  /-- every command submitted for a complete trace before its `trace_end` is applied -/
  applied : ∀ row ∈ s.store.traces.rows, row.completeness = .complete →
    ∃ before e after, s.submitted = before ++ e :: after ∧ e.commandType = .traceEnd ∧
      e.traceId = row.traceId ∧ e.commandId = row.lastCommandId ∧
      ∀ command ∈ before, command.traceId = row.traceId → s.store.Holds command
  counted : ∀ row ∈ s.store.traces.rows, row.droppedRecordCount = (s.lostOf row.traceId).length
  flagged : ∀ row ∈ s.store.traces.rows, ∀ entry ∈ s.lostOf row.traceId,
    entry.2 ∈ row.integrityFlags

/-- No loss is noted but not written. -/
def Quiet (s : Recorder) : Prop :=
  s.notes.rows = [] ∧ s.submissions = [] ∧ s.writer.marks = []

instance (s : Recorder) : Decidable s.Quiet := inferInstanceAs (Decidable (_ ∧ _ ∧ _))

/-- Losses reach the row of their trace: no trace starts whose losses were drained before,
a drained trace that is stored lost commands to the queue, and no mark of it raises. -/
def MarksLosses (s : Recorder) (label : RecorderLabel) : Prop :=
  match label, s.writer with
  | .attempt false, .writing batch _ _ => ¬ s.store.Raises batch → ∀ command ∈ batch,
    command.commandType = .traceStart →
      (s.store.traces.find? command.traceId).isSome ∨ command.traceId ∉ s.drained
  | .swap, _ => ∀ note ∈ s.notes.rows, (s.store.traces.find? note.traceId).isSome →
    IntegrityFlag.queueDrop ∈ note.flags
  | .mark true, .marking mark _ => ¬ (s.store.traces.find? mark.traceId).isSome
  | _, _ => True

instance (s : Recorder) (label : RecorderLabel) : Decidable (s.MarksLosses label) :=
  match label, hw : s.writer with
  | .attempt false, .writing batch failing k =>
    decidable_of_iff (¬ s.store.Raises batch → ∀ command ∈ batch,
      command.commandType = .traceStart →
        (s.store.traces.find? command.traceId).isSome ∨ command.traceId ∉ s.drained)
      (by unfold MarksLosses; rw [hw])
  | .mark true, .marking mark marks =>
    decidable_of_iff (¬ (s.store.traces.find? mark.traceId).isSome)
      (by unfold MarksLosses; rw [hw])
  | .swap, _ =>
    inferInstanceAs (Decidable (∀ note ∈ s.notes.rows, _ → IntegrityFlag.queueDrop ∈ note.flags))
  | .attempt false, .collecting _ | .attempt false, .swapping | .attempt false, .marking _ _
  | .mark true, .collecting _ | .mark true, .writing _ _ _ | .mark true, .swapping =>
    .isTrue (by unfold MarksLosses; rw [hw]; trivial)
  | .submit _, _ | .proceed _, _ | .take, _ | .close, _ | .attempt true, _ | .mark false, _
  | .retain _, _ => .isTrue trivial

/-- What the rows of the traces, the marks and the notes hold of the losses. -/
structure Marked (s : Recorder) : Prop where
  counted : ∀ row ∈ s.store.traces.rows, row.droppedRecordCount + s.notes.count row.traceId +
    markedCount s.writer.marks row.traceId = (s.lostOf row.traceId).length
  flagged : ∀ row ∈ s.store.traces.rows, ∀ entry ∈ s.lostOf row.traceId,
    entry.2 ∈ row.integrityFlags ∨ entry.2 ∈ s.notes.flags row.traceId ∨
      ∃ mark ∈ s.writer.marks, mark.traceId = row.traceId ∧ mark.flag = entry.2
  undrained : ∀ traceId ∉ s.drained, s.notes.count traceId = (s.lostOf traceId).length ∧
    ∀ entry ∈ s.lostOf traceId, entry.2 ∈ s.notes.flags traceId
  complete : ∀ row ∈ s.store.traces.rows, row.completeness = .complete →
    row.integrityFlags = ∅ ∧ row.EndedBy s.applied

theorem lostOf_drop (s : Recorder) (command : TelemetryCommand) (flag : IntegrityFlag)
    (traceId : String) : (s.drop command flag).lostOf traceId = s.lostOf traceId ++
      if command.traceId = traceId then [(command, flag)] else [] := by
  unfold lostOf drop
  rw [List.filter_append]
  split_ifs with h <;> simp [h]

/-- A loss is noted as it happens. -/
theorem Marked.drop (h : s.Marked) (command : TelemetryCommand) (flag : IntegrityFlag) :
    (s.drop command flag).Marked := by
  have hcount := s.notes.count_recordDrop command.traceId flag
  have hold : ∀ {id : String} {f : IntegrityFlag}, f ∈ s.notes.flags id →
      f ∈ (s.notes.recordDrop command.traceId flag).flags id :=
    fun hf => (s.notes.mem_flags_recordDrop command.traceId flag).mpr (.inl hf)
  have hlast : ∀ {id : String} {entry : TelemetryCommand × IntegrityFlag},
      entry ∈ (if command.traceId = id then [(command, flag)] else []) →
        entry.2 ∈ (s.notes.recordDrop command.traceId flag).flags id := by
    intro id entry hentry
    split_ifs at hentry with hid
    · rw [List.mem_singleton.mp hentry]
      exact (s.notes.mem_flags_recordDrop command.traceId flag).mpr (.inr ⟨hid, rfl⟩)
    · cases hentry
  refine ⟨?_, ?_, ?_, h.complete⟩
  · intro row hrow
    have hrowCount := h.counted row hrow
    rw [lostOf_drop, List.length_append]
    change row.droppedRecordCount + (s.notes.recordDrop command.traceId flag).count row.traceId +
      markedCount s.writer.marks row.traceId = _
    rw [hcount]
    split_ifs <;> simp only [List.length_cons, List.length_nil] <;> omega
  · intro row hrow entry hentry
    rw [lostOf_drop] at hentry
    rcases List.mem_append.mp hentry with hentry | hentry
    · rcases h.flagged row hrow entry hentry with hflag | hflag | hmark
      · exact .inl hflag
      · exact .inr (.inl (hold hflag))
      · exact .inr (.inr hmark)
    · exact .inr (.inl (hlast hentry))
  · intro traceId hundrained
    obtain ⟨hnoted, hflags⟩ := h.undrained traceId hundrained
    rw [lostOf_drop, List.length_append]
    refine ⟨?_, ?_⟩
    · change (s.notes.recordDrop command.traceId flag).count traceId = _
      rw [hcount, hnoted]
      split_ifs <;> rfl
    · intro entry hentry
      rcases List.mem_append.mp hentry with hentry | hentry
      · exact hold (hflags entry hentry)
      · exact hlast hentry

theorem Marked.foldl_drop (h : s.Marked) (batch : List TelemetryCommand) (flag : IntegrityFlag) :
    (batch.foldl (fun s command => s.drop command flag) s).Marked := by
  induction batch generalizing s with
  | nil => exact h
  | cons command batch ih => exact ih (h.drop command flag)

/-- A step that touches no trace, no note, no mark and no loss. -/
theorem Marked.of_eq (h : s.Marked) (htraces : t.store.traces = s.store.traces)
    (hnotes : t.notes = s.notes) (hmarks : t.writer.marks = s.writer.marks) (hlost : t.lost = s.lost)
    (happlied : t.applied = s.applied) (hdrained : t.drained = s.drained) : t.Marked := by
  have hof : ∀ id, t.lostOf id = s.lostOf id := fun id => by rw [lostOf, lostOf, hlost]
  refine ⟨?_, ?_, ?_, ?_⟩
  · rw [htraces, hnotes, hmarks]
    simpa only [hof] using h.counted
  · rw [htraces, hnotes, hmarks]
    simpa only [hof] using h.flagged
  · rw [hnotes, hdrained]
    simpa only [hof] using h.undrained
  · rw [htraces, happlied]
    exact h.complete

theorem Marked.put (h : s.Marked) (command : TelemetryCommand) (next : Submission) :
    (s.put config command next).Marked := by
  unfold Recorder.put
  split_ifs <;> exact h.of_eq rfl rfl rfl rfl rfl rfl

theorem Marked.proceed (h : s.Marked) (submission : Submission) :
    (s.proceed config submission).Marked := by
  cases submission with
  | displacing command =>
    unfold Recorder.proceed
    dsimp only
    split <;> exact h.of_eq rfl rfl rfl rfl rfl rfl
  | noting displaced command =>
    exact (h.drop displaced .queueDrop).of_eq rfl rfl rfl rfl rfl rfl
  | putting command => exact h.put command _
  | dropping command => exact (h.drop command .queueDrop).of_eq rfl rfl rfl rfl rfl rfl

variable {batch failing : List TelemetryCommand} {k : ℕ} {label : RecorderLabel}

theorem Marked.fail (h : s.Marked) {failing' : List TelemetryCommand}
    (hwriter : s.writer = .writing batch failing k) : (s.fail batch failing' k).Marked := by
  have hmarks : s.writer.marks = [] := by rw [hwriter]; rfl
  unfold Recorder.fail
  split_ifs
  · exact h.of_eq rfl rfl hmarks.symm rfl rfl rfl
  · refine (h.foldl_drop batch .storeFailure).of_eq rfl rfl ?_ rfl rfl rfl
    rw [Recorder.foldl_drop]
    exact hmarks.symm

/-- A batch that is committed. A trace that starts in it brings its losses along. -/
theorem Marked.commit (h : s.Marked) {store : ObservabilityStore}
    (hmarks : s.writer.marks = []) (hbatched : s.store.Batched batch store)
    (hstarts : ∀ command ∈ batch, command.commandType = .traceStart →
      (s.store.traces.find? command.traceId).isSome ∨ command.traceId ∉ s.drained) :
    Marked { s with store, writer := .swapping, applied := s.applied ++ batch } := by
  have hfresh : ∀ {row : TraceRow}, row.Fresh batch s.store → row.traceId ∉ s.drained := by
    intro row hrow
    obtain ⟨command, hcommand, htype, hid⟩ := hrow.started
    rcases hstarts command hcommand htype with hstored | hdrained
    · rw [hid, hrow.absent] at hstored
      cases hstored
    · exact hid ▸ hdrained
  refine ⟨?_, ?_, h.undrained, ?_⟩
  · intro row hrow
    rcases hbatched.rows row hrow with ⟨old, hold, hgrows⟩ | hnew
    · have hcounted := h.counted old hold
      rw [hmarks] at hcounted
      rw [hgrows.dropped, hgrows.traceId]
      exact hcounted
    · have hnoted := (h.undrained row.traceId (hfresh hnew)).1
      rw [hnew.dropped, Nat.zero_add]
      exact hnoted
  · intro row hrow entry hentry
    rcases hbatched.rows row hrow with ⟨old, hold, hgrows⟩ | hnew
    · rw [hgrows.traceId] at hentry ⊢
      rcases h.flagged old hold entry hentry with hflag | hflag | ⟨mark, hmark, _⟩
      · exact .inl (hgrows.flags hflag)
      · exact .inr (.inl hflag)
      · rw [hmarks] at hmark
        cases hmark
    · exact .inr (.inl ((h.undrained row.traceId (hfresh hnew)).2 entry hentry))
  · intro row hrow hcomplete
    have hended : row.EndedBy batch → row.EndedBy (s.applied ++ batch) :=
      fun ⟨e, he, hrest⟩ => ⟨e, List.mem_append_right _ he, hrest⟩
    rcases hbatched.rows row hrow with ⟨old, hold, hgrows⟩ | hnew
    · rcases hgrows.complete hcomplete with ⟨holdComplete, hflags, hlast⟩ | ⟨hflags, hbatch⟩
      · obtain ⟨hnone, e, he, htype, hid, hcommand⟩ := h.complete old hold holdComplete
        exact ⟨hflags.trans hnone, e, List.mem_append_left _ he, htype,
          hid.trans hgrows.traceId.symm, hcommand.trans hlast.symm⟩
      · exact ⟨hflags, hended hbatch⟩
    · obtain ⟨hflags, hbatch⟩ := hnew.complete hcomplete
      exact ⟨hflags, hended hbatch⟩

/-- The notes become marks. -/
theorem Marked.swap (h : s.Marked) (haccounts : s.Accounts) (hmarks : s.writer.marks = [])
    (hqueue : ∀ note ∈ s.notes.rows, (s.store.traces.find? note.traceId).isSome →
      IntegrityFlag.queueDrop ∈ note.flags) : s.swap.Marked := by
  refine ⟨?_, ?_, ?_, h.complete⟩
  · intro row (hrow : row ∈ s.store.traces.rows)
    have hcounted := h.counted row hrow
    have hstored : (s.store.traces.find? row.traceId).isSome := by
      rw [Table.find?_of_mem hrow]
      rfl
    have hmarked := markedCount_marks s.notes row.traceId
      fun note hnote hid => hqueue note hnote (hid ▸ hstored)
    rw [hmarks] at hcounted
    simp only [Recorder.swap, Notes.count_empty, Writer.marks_next, hmarked]
    exact hcounted
  · intro row hrow entry hentry
    rcases h.flagged row hrow entry hentry with hflag | hflag | ⟨mark, hmark, _⟩
    · exact .inl hflag
    · have hkind := haccounts.kinds entry (List.mem_filter.mp hentry).1
      refine .inr (.inr ?_)
      simpa only [Recorder.swap, Writer.marks_next] using exists_mark hflag hkind
    · rw [hmarks] at hmark
      cases hmark
  · intro traceId hundrained
    have hout : traceId ∉ s.drained ∧ traceId ∉ s.notes.rows.map NoteRow.traceId := by
      simpa only [Recorder.swap, List.mem_append, not_or] using hundrained
    obtain ⟨hnoted, hflags⟩ := h.undrained traceId hout.1
    have hnone : s.notes.find? traceId = none := s.notes.find?_eq_none_iff.mpr hout.2
    refine ⟨?_, ?_⟩
    · have hzero : s.notes.count traceId = 0 := by
        unfold Notes.count
        rw [hnone]
        rfl
      exact hzero.symm.trans hnoted
    · intro entry hentry
      have hflag := hflags entry hentry
      unfold Notes.flags at hflag
      rw [hnone] at hflag
      cases hflag

variable {marks : List IntegrityMark}

/-- The mark of a trace that is not stored is gone, and the others are still due. -/
theorem Marked.absent (h : s.Marked) {mark : IntegrityMark} {writer : Writer}
    (hmarks : s.writer.marks = mark :: marks) (hfind : s.store.traces.find? mark.traceId = none)
    (hcount : ∀ id, mark.traceId ≠ id → markedCount writer.marks id = markedCount marks id)
    (hrest : ∀ m ∈ marks, m.traceId ≠ mark.traceId → m ∈ writer.marks) :
    Marked { s with writer } := by
  have hother : ∀ row ∈ s.store.traces.rows, mark.traceId ≠ row.traceId := by
    intro row hrow heq
    rw [heq, Table.find?_of_mem hrow] at hfind
    cases hfind
  refine ⟨?_, ?_, h.undrained, h.complete⟩
  · intro row hrow
    have hcounted := h.counted row hrow
    rwa [hmarks, markedCount_cons, if_neg (hother row hrow), Nat.zero_add,
      ← hcount _ (hother row hrow)] at hcounted
  · intro row hrow entry hentry
    rcases h.flagged row hrow entry hentry with hflag | hflag | ⟨m, hm, hid, hflag⟩
    · exact .inl hflag
    · exact .inr (.inl hflag)
    · have hne : m.traceId ≠ mark.traceId := fun heq => hother row hrow (heq.symm.trans hid)
      rw [hmarks] at hm
      rcases List.mem_cons.mp hm with rfl | hm
      · exact absurd rfl hne
      · exact .inr (.inr ⟨m, hrest m hm hne, hid, hflag⟩)

theorem Marked.mark (h : s.Marked) {mark : IntegrityMark} (hwriter : s.writer = .marking mark marks)
    : (s.mark mark marks false).Marked := by
  have hmarks : s.writer.marks = mark :: marks := by rw [hwriter]; rfl
  unfold Recorder.mark ObservabilityStore.markIntegrity
  simp only [Bool.false_eq_true, if_false]
  cases hfind : s.store.traces.find? mark.traceId with
  | none =>
    exact h.absent hmarks hfind (fun _ _ => by rw [Writer.marks_next])
      fun m hm _ => by rwa [Writer.marks_next]
  | some old =>
    have hold := Table.find?_mem hfind
    have hkey : old.traceId = mark.traceId := Table.find?_key hfind
    have hsome : (s.store.traces.find? (old.mark mark.flag mark.dropped).traceId).isSome := by
      change (s.store.traces.find? old.traceId).isSome
      rw [hkey, hfind]
      rfl
    refine ⟨?_, ?_, h.undrained, ?_⟩
    · intro row hrow
      simp only [Writer.marks_next]
      rcases (Table.mem_replace hsome row).mp hrow with rfl | ⟨hrow, hne⟩
      · have hcounted := h.counted old hold
        rw [hmarks, markedCount_cons, if_pos hkey.symm] at hcounted
        change old.droppedRecordCount + mark.dropped + s.notes.count old.traceId +
          markedCount marks old.traceId = (s.lostOf old.traceId).length
        omega
      · have hcounted := h.counted row hrow
        have hother : mark.traceId ≠ row.traceId := fun heq => hne (heq.symm.trans hkey.symm)
        rw [hmarks, markedCount_cons, if_neg hother, Nat.zero_add] at hcounted
        exact hcounted
    · intro row hrow entry hentry
      simp only [Writer.marks_next]
      rcases (Table.mem_replace hsome row).mp hrow with rfl | ⟨hrow, hne⟩
      · rcases h.flagged old hold entry hentry with hflag | hflag | ⟨m, hm, hid, hflag⟩
        · exact .inl (Finset.mem_insert_of_mem hflag)
        · exact .inr (.inl hflag)
        · rw [hmarks] at hm
          rcases List.mem_cons.mp hm with rfl | hm
          · exact .inl (hflag ▸ Finset.mem_insert_self _ _)
          · exact .inr (.inr ⟨m, hm, hid, hflag⟩)
      · rcases h.flagged row hrow entry hentry with hflag | hflag | ⟨m, hm, hid, hflag⟩
        · exact .inl hflag
        · exact .inr (.inl hflag)
        · rw [hmarks] at hm
          rcases List.mem_cons.mp hm with rfl | hm
          · exact absurd (hid.symm.trans hkey.symm) hne
          · exact .inr (.inr ⟨m, hm, hid, hflag⟩)
    · intro row hrow hcomplete
      rcases (Table.mem_replace hsome row).mp hrow with rfl | ⟨hrow, _⟩
      · cases hcomplete
      · exact h.complete row hrow hcomplete

theorem Marked.raise (h : s.Marked) {mark : IntegrityMark}
    (hwriter : s.writer = .marking mark marks)
    (habsent : ¬ (s.store.traces.find? mark.traceId).isSome) : (s.mark mark marks true).Marked := by
  refine h.absent (by rw [hwriter]; rfl) (Option.not_isSome_iff_eq_none.mp habsent) ?_ ?_
  · intro id hne
    rw [Writer.marks_next]
    unfold markedCount
    rw [List.filter_filter]
    congr 2
    apply List.filter_congr
    grind
  · intro m hm hne
    rw [Writer.marks_next]
    exact List.mem_filter.mpr ⟨hm, decide_eq_true hne⟩

theorem Marked.attempt (h : s.Marked) (hwriter : s.writer = .writing batch failing k) {fails : Bool}
    (hmarks : s.MarksLosses (.attempt fails)) : (s.attempt batch failing k fails).Marked := by
  unfold Recorder.attempt
  cases fails with
  | true => exact h.fail hwriter
  | false =>
    simp only [Bool.false_eq_true, if_false]
    cases hcommit : s.store.applyCommands batch with
    | ok store =>
      unfold MarksLosses at hmarks
      rw [hwriter] at hmarks
      have hnone : s.writer.marks = [] := by rw [hwriter]; rfl
      exact h.commit hnone (s.store.applyCommands_batched batch store hcommit)
        (hmarks fun hraises => hraises store hcommit)
    | error e => exact h.fail hwriter

theorem Marked.retain (h : s.Marked) (traceIds : List String) :
    Marked { s with store := s.store.deleteTraces traceIds } := by
  have hold : ∀ row ∈ (s.store.deleteTraces traceIds).traces.rows, row ∈ s.store.traces.rows := by
    intro row hrow
    unfold ObservabilityStore.deleteTraces at hrow
    rw [Table.rows_deleteWhere] at hrow
    exact (List.mem_filter.mp hrow).1
  exact ⟨fun row hrow => h.counted row (hold row hrow), fun row hrow => h.flagged row (hold row hrow),
    h.undrained, fun row hrow => h.complete row (hold row hrow)⟩

theorem Marked.step (h : s.Marked) (haccounts : s.Accounts)
    (hlabel : s.MarksLosses label) (hstep : s.step config label = some t) : t.Marked := by
  cases step_moves hstep with
  | submit command => exact h.put command _
  | @proceed k submission =>
    have herased : Marked { s with submissions := s.submissions.eraseIdx k } :=
      h.of_eq rfl rfl rfl rfl rfl rfl
    exact herased.proceed submission
  | take hwriter | idle hwriter | close hwriter =>
      exact h.of_eq rfl rfl (by rw [hwriter]; rfl) rfl rfl rfl
  | attempt hwriter => exact h.attempt hwriter hlabel
  | swap hwriter =>
    unfold MarksLosses at hlabel
    exact h.swap haccounts (by rw [hwriter]; rfl) hlabel
  | mark hwriter raises =>
    cases raises with
    | false => exact h.mark hwriter
    | true =>
      unfold MarksLosses at hlabel
      rw [hwriter] at hlabel
      exact h.raise hwriter hlabel
  | retain _ traceIds => exact h.retain traceIds

theorem marked_initial : ({} : Recorder).Marked :=
  ⟨by simp, by simp, fun _ _ => ⟨rfl, by simp [lostOf]⟩, by simp⟩

structure Traced (s : Recorder) : Prop where
  recorded : s.Recorded
  marked : s.Marked

theorem Traced.step (h : s.Traced) (hlabel : s.MarksLosses label)
    (hstep : s.step config label = some t) : t.Traced :=
  ⟨h.recorded.step hstep, h.marked.step h.recorded.accounts hlabel hstep⟩

/-- The commands of a trace that lost nothing are applied in their order. -/
theorem Accounts.filter_eq (h : s.Accounts) (hsubmissions : s.submissions = []) {traceId : String}
    (hlost : s.lostOf traceId = []) :
    (s.applied ++ s.writer.batch ++ s.queue).filter (fun c => c.traceId = traceId) =
      s.submitted.filter fun c => c.traceId = traceId := by
  apply (h.sublist.filter fun c => c.traceId = traceId).eq_of_length_le
  have hperm : ((s.applied ++ s.writer.batch ++ s.queue) ++ s.lost.map Prod.fst).Perm
      s.submitted := by
    rw [List.perm_iff_count]
    intro c
    have hc := h.counts c
    have hheld : s.held = [] := by rw [held, hsubmissions]; rfl
    rw [hheld, List.count_nil, Nat.add_zero] at hc
    simp only [List.count_append]
    omega
  have hnone : (s.lost.map Prod.fst).filter (fun c => c.traceId = traceId) = [] := by
    rw [List.filter_map, List.map_eq_nil_iff]
    exact hlost
  have hfilter := (hperm.filter fun c => c.traceId = traceId).length_eq
  rw [List.filter_append, hnone, List.append_nil] at hfilter
  exact hfilter.ge

theorem Traced.intact (h : s.Traced) (hquiet : s.Quiet) : s.Intact := by
  obtain ⟨hnotes, hsubmissions, hmarks⟩ := hquiet
  have hempty : s.notes = .empty := Table.ext hnotes
  have hflagged : ∀ row ∈ s.store.traces.rows, ∀ entry ∈ s.lostOf row.traceId,
      entry.2 ∈ row.integrityFlags := by
    intro row hrow entry hentry
    rcases h.marked.flagged row hrow entry hentry with hflag | hflag | ⟨mark, hmark, _⟩
    · exact hflag
    · rw [hempty] at hflag
      cases hflag
    · rw [hmarks] at hmark
      cases hmark
  refine ⟨?_, ?_, hflagged⟩
  · intro row hrow hcomplete
    obtain ⟨hflags, e, he, htype, hid, hcommand⟩ := h.marked.complete row hrow hcomplete
    have hlost : s.lostOf row.traceId = [] := by
      rw [List.eq_nil_iff_forall_not_mem]
      intro entry hentry
      have hflag := hflagged row hrow entry hentry
      rw [hflags] at hflag
      cases hflag
    -- what was submitted for the trace before its end was applied before it
    have hmem : e ∈ s.applied.filter fun c => c.traceId = row.traceId :=
      List.mem_filter.mpr ⟨he, decide_eq_true hid⟩
    obtain ⟨before, after, hsplit⟩ := List.append_of_mem hmem
    have hfilter := h.recorded.accounts.filter_eq hsubmissions hlost
    rw [List.append_assoc, List.filter_append, hsplit, List.append_assoc, List.cons_append] at hfilter
    obtain ⟨first, rest, hsubmitted, hfirst, hrest⟩ := List.filter_eq_append_iff.mp hfilter.symm
    obtain ⟨skipped, last, rfl, hskipped, _, _⟩ := List.filter_eq_cons_iff.mp hrest
    refine ⟨first ++ skipped, e, last, by simp [hsubmitted], htype, hid, hcommand, ?_⟩
    intro c hc htrace
    rcases List.mem_append.mp hc with hc | hc
    · have happlied : c ∈ before :=
        hfirst ▸ List.mem_filter.mpr ⟨hc, decide_eq_true htrace⟩
      have hin : c ∈ s.applied.filter fun c => c.traceId = row.traceId := by
        rw [hsplit]
        exact List.mem_append_left _ happlied
      exact h.recorded.applied c (List.mem_filter.mp hin).1
    · exact absurd (decide_eq_true htrace) (hskipped c hc)
  · intro row hrow
    have hcounted := h.marked.counted row hrow
    rw [hempty, hmarks] at hcounted
    exact hcounted

theorem traced_initial : ({} : Recorder).Traced := ⟨recorded_initial, marked_initial⟩

end Recorder

/-- As long as losses reach the rows of their traces, a complete trace lost nothing. -/
theorem marked_losses_are_counted (config : RecorderConfig) {labels : List RecorderLabel}
    {s : Recorder} (h : (Recorder.machine config).Run Recorder.MarksLosses {} labels s)
    (hquiet : s.Quiet) : s.Intact := by
  have htraced := h.invariant Recorder.Traced
    (fun _ _ _ hs hlabel hstep => hs.step hlabel hstep) Recorder.traced_initial
  exact htraced.intact hquiet

def endOf (traceId : String) : TelemetryCommand where
  commandId := "cmd_end_" ++ traceId
  commandType := .traceEnd
  traceId
  spanId := some "root"
  lifecycleSequence := 2
  occurredAt := "2026-01-01T00:00:01+00:00"
  payload := [("status", .text "completed")]
  identified := by simp

def writeAlone (command : TelemetryCommand) (attempts : List Bool) : List RecorderLabel :=
  [.submit command, .take, .close] ++ attempts.map .attempt ++ [.swap]

def plainTrace : List RecorderLabel :=
  writeAlone (startOf "b") [false] ++ writeAlone (endOf "b") [false]

def busyTrace : List RecorderLabel :=
  writeAlone (startOf "b") [false] ++ writeAlone (rootOf "b") [true, true, true] ++
    [.mark true] ++ writeAlone (endOf "b") [false]

theorem plainTrace_complete :
    ((Recorder.machine defaultConfig).exec Recorder.MarksLosses {} plainTrace).map
      (fun s => (decide s.Quiet, s.store.traces.rows.map TraceRow.completeness)) =
        some (true, [.complete]) := by
  decide

theorem busyTrace_complete :
    ((Recorder.machine defaultConfig).exec Machine.Free {} busyTrace).map
      (fun s => (decide s.Quiet, s.store.traces.rows.map fun row =>
        (row.completeness, row.droppedRecordCount, (s.lostOf row.traceId).length))) =
          some (true, [(.complete, 0, 1)]) := by
  decide

theorem plainTrace_intact : ∃ s,
    (Recorder.machine defaultConfig).Run Recorder.MarksLosses {} plainTrace s ∧
      s.store.traces.rows.map TraceRow.completeness = [.complete] ∧ s.Intact := by
  obtain ⟨s, hs, hfields⟩ := Option.map_eq_some_iff.mp plainTrace_complete
  obtain ⟨hquiet, hrows⟩ := Prod.mk.inj hfields
  have hrun := Machine.run_of_exec hs
  exact ⟨s, hrun, hrows, marked_losses_are_counted defaultConfig hrun (of_decide_eq_true hquiet)⟩

/-- A trace is reported complete after its root span was lost. -/
theorem complete_trace_lost_its_span :
    ¬ ∀ (config : RecorderConfig) (labels : List RecorderLabel) (s : Recorder),
      (Recorder.machine config).Run Machine.Free {} labels s → s.Quiet → s.Intact := by
  intro hall
  obtain ⟨s, hs, hfields⟩ := Option.map_eq_some_iff.mp busyTrace_complete
  obtain ⟨hquiet, hrows⟩ := Prod.mk.inj hfields
  have hintact := hall _ _ s (Machine.run_of_exec hs) (of_decide_eq_true hquiet)
  obtain ⟨row, hrow, hrest⟩ := List.map_eq_singleton_iff.mp hrows
  simp only [Prod.mk.injEq] at hrest
  have hcounted := hintact.counted row (hrow ▸ List.mem_cons_self)
  rw [hrest.2.1, hrest.2.2] at hcounted
  exact absurd hcounted (by decide)

end CodeResearch.Observability
