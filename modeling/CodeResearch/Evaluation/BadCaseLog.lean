import CodeResearch.Evaluation.BadCaseCalls

/-!
# The event log replays to the bad case

An event is appended before its case is saved, each in a transaction of its own. The
log follows the case as long as an event is only appended to the revision that it is
based on, and its case is saved by the same call before any other call saves it.
-/
namespace CodeResearch.Evaluation

open ControlPlane (JobError Timestamp)
open DomainJobs (evaluationError)

def replay : BadCaseStatus → List BadCaseEvent → Option BadCaseStatus
  | status, [] => some status
  | status, e :: events =>
    if e.fromStatus = status ∧ e.toStatus ∈ allowedTransitions status then
      replay e.toStatus events
    else none

theorem replay_append {status last : BadCaseStatus} {events : List BadCaseEvent}
    {e : BadCaseEvent} (h : replay status events = some last) (hfrom : e.fromStatus = last)
    (hto : e.toStatus ∈ allowedTransitions last) :
    replay status (events ++ [e]) = some e.toStatus := by
  induction events generalizing status with
  | nil =>
    obtain rfl : status = last := Option.some.inj h
    rw [List.nil_append, replay, if_pos ⟨hfrom, hto⟩, replay]
  | cons x events ih =>
    rw [replay] at h
    split_ifs at h with hx
    rw [List.cons_append, replay, if_pos hx]
    exact ih h

def BadCaseStore.appended (s : BadCaseStore) (badCaseId : String) : List BadCaseEvent :=
  s.events.rows.filter fun e => e.badCaseId = badCaseId

def BadCaseStore.log (s : BadCaseStore) (badCaseId : String) : List BadCaseEvent :=
  (s.appended badCaseId).insertionSort fun a b => a.sequence ≤ b.sequence

namespace BadCaseSystem

variable (ids : StableIds)

def Quiet (s : BadCaseSystem) (badCaseId : String) : Prop :=
  ∀ e next occurrence, .saving (some e) next occurrence ∈ s.calls → e.badCaseId ≠ badCaseId

/-- The log of a case replays to it, holds events of calls that have saved the case only,
and leaves the event of the next revision free. -/
structure LogReplays (s : BadCaseSystem) (row : BadCase) : Prop where
  replays : replay .open (s.store.log row.badCaseId) = some row.status
  answered : ∀ e ∈ s.store.log row.badCaseId, e ∈ s.answered
  past : ∀ e ∈ s.store.log row.badCaseId, e.sequence ≤ row.revision
  free : (∀ id n, ids.eventId id n = ids.eventId row.badCaseId (row.revision + 1) →
      id = row.badCaseId ∧ n = row.revision + 1) →
    s.store.events.find? (ids.eventId row.badCaseId (row.revision + 1)) = none

/-- In every run whose steps meet the guard, the log of every case replays to it whenever
no call stands between an event of the case and its save. -/
def LogsReplay (G : BadCaseSystem → BadCaseLabel → Prop) : Prop :=
  ∀ labels s, (machine ids).Run G .init labels s → ∀ badCaseId row,
    s.store.cases.find? badCaseId = some row → s.Quiet badCaseId → s.LogReplays ids row

/-- An event is only appended to the revision that it is based on. While a call stands
between the event of a case and its save, no call without an event saves the case and
the call is not cut off, unless another one holds the same event. -/
def Spares (s : BadCaseSystem) : BadCaseLabel → Prop
  | .advance k _ =>
    (∀ e next occurrence row, s.calls[k]? = some (.appending e next occurrence) →
      s.store.events.find? e.eventId = none → s.store.cases.find? e.badCaseId = some row →
        row.revision = e.basedOnRevision) ∧
    (∀ next occurrence row, s.calls[k]? = some (.saving none next occurrence) →
      s.store.cases.find? next.badCaseId = some row → next.revision = row.revision + 1 →
        ∀ e next' occurrence', .saving (some e) next' occurrence' ∈ s.calls →
          e.badCaseId = next.badCaseId → e ∈ s.answered)
  | .raise k => ∀ e next occurrence, s.calls[k]? = some (.saving (some e) next occurrence) →
    e ∈ s.answered ∨ ∃ j ≠ k, ∃ next' occurrence',
      s.calls[j]? = some (.saving (some e) next' occurrence')
  | _ => True

end BadCaseSystem

namespace BadCaseStore

variable {s t : BadCaseStore}

theorem immutableJson_ok {ρ : Type} [DecidableEq ρ] {key : ρ → String} {errorCode : String} {r : ρ}
    {t u : Table key} (h : immutableJson errorCode r t = .ok u) :
    t.find? (key r) = some r ∧ u = t ∨ t.find? (key r) = none ∧ t.insert r = some u := by
  unfold immutableJson at h
  split at h
  · rename_i stored hstored
    split_ifs at h with hsame
    cases h
    exact .inl ⟨hsame ▸ hstored, rfl⟩
  · rename_i hnone
    exact .inr ⟨hnone, orError_eq_ok_iff.mp h⟩

theorem appendEvent_ok {e : BadCaseEvent} (h : s.appendEvent e = .ok t) :
    t.cases = s.cases ∧ (s.events.find? e.eventId = some e ∧ t.events = s.events ∨
      s.events.find? e.eventId = none ∧ t.events.rows = s.events.rows ++ [e]) := by
  unfold appendEvent at h
  split_ifs at h
  obtain ⟨events, hevents, rfl⟩ := except_map_eq_ok_iff.mp h
  rcases immutableJson_ok hevents with ⟨hfound, rfl⟩ | ⟨hnone, hins⟩
  · exact ⟨rfl, .inl ⟨hfound, rfl⟩⟩
  · exact ⟨rfl, .inr ⟨hnone, Table.rows_insert hins⟩⟩

theorem appendOccurrence_ok {o : BadCaseOccurrence} (h : s.appendOccurrence o = .ok t) :
    t.cases = s.cases ∧ t.events = s.events := by
  obtain ⟨occurrences, _, rfl⟩ := except_map_eq_ok_iff.mp h
  exact ⟨rfl, rfl⟩

theorem saveVerification_ok {v : BadCaseVerification} (h : s.saveVerification v = .ok t) :
    t.cases = s.cases ∧ t.events = s.events := by
  obtain ⟨verifications, _, rfl⟩ := except_map_eq_ok_iff.mp h
  exact ⟨rfl, rfl⟩

variable {b : BadCase}

/-- A case that was saved is new, was there before, or succeeds the stored revision. -/
theorem saveBadCase_ok (h : s.saveBadCase b = .ok t) :
    t.events = s.events ∧ (s.cases.find? b.badCaseId = none ∧ s.cases.insert b = some t.cases ∨
      s.cases.find? b.badCaseId = some b ∧ t.cases = s.cases ∨
      ∃ row, s.cases.find? b.badCaseId = some row ∧ b.revision = row.revision + 1 ∧
        t.cases = s.cases.replace b) := by
  unfold saveBadCase at h
  split at h
  · rename_i hnone
    split_ifs at h
    obtain ⟨cases, hins, rfl⟩ := except_map_eq_ok_iff.mp h
    exact ⟨rfl, .inl ⟨hnone, orError_eq_ok_iff.mp hins⟩⟩
  · rename_i stored hstored
    split_ifs at h with hsame hnext
    · cases h
      exact ⟨rfl, .inr (.inl ⟨hsame ▸ hstored, rfl⟩)⟩
    · cases h
      exact ⟨rfl, .inr (.inr ⟨stored, hstored, hnext, rfl⟩)⟩

theorem saveBadCase_error {row : BadCase} {error : JobError}
    (h : s.saveBadCase b = .error error) (hrow : s.cases.find? b.badCaseId = some row) :
    b.revision ≠ row.revision + 1 := by
  unfold saveBadCase at h
  rw [hrow] at h
  dsimp only at h
  split_ifs at h with hsame hnext
  exact hnext

end BadCaseStore

namespace BadCaseSystem

variable {ids : StableIds}

def Copied (store : BadCaseStore) (base : BadCase) : Prop :=
  ∃ row, store.cases.find? base.badCaseId = some row ∧ base.revision ≤ row.revision ∧
    (row.revision = base.revision → row = base)

variable (ids) in
/-- An event and the record that its call saves, made from a copy of the case. -/
structure Extends (base next : BadCase) (e : BadCaseEvent) : Prop where
  eventId : e.eventId = ids.eventId e.badCaseId e.sequence
  eventCase : e.badCaseId = base.badCaseId
  nextCase : next.badCaseId = base.badCaseId
  sequence : e.sequence = base.revision + 1
  revision : next.revision = base.revision + 1
  basedOn : e.basedOnRevision = base.revision
  fromStatus : e.fromStatus = base.status
  toStatus : e.toStatus = next.status
  allowed : e.toStatus ∈ allowedTransitions base.status

variable (ids) in
def CallSound (store : BadCaseStore) : BadCaseCall → Prop
  | .verifying current target request _ | .approving current target request _ _ =>
    Copied store current ∧ checkTransition current target request = .ok ()
  | .appending e next _ => ∃ base, Copied store base ∧ Extends ids base next e
  | .saving (some e) next _ =>
    e ∈ store.events.rows ∧ ∃ base, Copied store base ∧ Extends ids base next e
  | .saving none next _ => next.revision = 0 ∧ next.status = .open ∨
    ∃ base, Copied store base ∧ next.badCaseId = base.badCaseId ∧
      next.revision = base.revision + 1 ∧ next.status = base.status
  | .reading _ _ _ _ | .looking _ _ _ _ _ | .finding _ _ _ _ _ | .recording _ => True

variable {row current : BadCase} {store store' : BadCaseStore} {e : BadCaseEvent}
  {answered events : List BadCaseEvent} {s t : BadCaseSystem} {c : BadCaseCall} {k : ℕ}
  {occurrence : Option BadCaseOccurrence} {event : Option BadCaseEvent}

theorem copied_of_find? (h : store.cases.find? row.badCaseId = some row) : Copied store row :=
  ⟨row, h, le_rfl, fun _ => rfl⟩

variable {request : BadCaseTransitionRequest} {target : BadCaseStatus} {base : BadCase}
  {badCaseId : String}

theorem checkTransition_ok (h : checkTransition current target request = .ok ()) :
    current.revision = request.basedOnRevision ∧ target ∈ allowedTransitions current.status := by
  simp only [checkTransition, except_bind_eq_ok_iff, ensure_eq_ok_iff] at h
  obtain ⟨_, hrevision, _, hallowed, _⟩ := h
  exact ⟨hrevision, hallowed⟩

theorem sound_afterVerified (hcopied : Copied store current)
    (hcheck : checkTransition current target request = .ok ()) (actorScope : String)
    (verificationId : Option String) (now : Timestamp) :
    ∀ c ∈ afterVerified ids current target request actorScope verificationId now,
      CallSound ids store c := by
  intro c hc
  obtain ⟨hrevision, hallowed⟩ := checkTransition_ok hcheck
  unfold afterVerified at hc
  split at hc
  · rw [← Option.some.inj hc]
    exact ⟨current, hcopied, rfl, rfl, rfl, rfl, rfl, hrevision.symm, rfl, rfl, hallowed⟩
  · cases hc

theorem sound_afterRead (hcopied : Copied store current)
    (target : BadCaseStatus) (request : BadCaseTransitionRequest) (actorScope : String)
    (now : Timestamp) :
    ∀ c ∈ afterRead ids current target request actorScope now, CallSound ids store c := by
  intro c hc
  unfold afterRead at hc
  split at hc
  · rename_i u hcheck
    split_ifs at hc
    · rw [← Option.some.inj hc]
      exact ⟨hcopied, hcheck⟩
    · exact sound_afterVerified hcopied hcheck _ _ _ c hc
  · cases hc

theorem sound_afterFound (case : EvaluationCase) (result : CaseResult)
    (trigger : TriggerType) (subjectId : String) (now : Timestamp) {found : Option BadCase}
    (hfound : ∀ row ∈ found, Copied store row) :
    CallSound ids store (afterFound ids case result trigger subjectId now found) := by
  cases found with
  | none => exact .inl ⟨rfl, rfl⟩
  | some existing =>
    have hcopied : Copied store existing := hfound existing rfl
    unfold afterFound
    dsimp only
    split_ifs with hclosed
    · refine ⟨existing, hcopied, rfl, rfl, rfl, rfl, rfl, rfl, hclosed.symm, ?_, ?_⟩
      · simp [BadCase.recur, recurrenceEvent, hclosed]
      · simp [recurrenceEvent, allowedTransitions, hclosed]
    · refine .inr ⟨existing, hcopied, rfl, rfl, ?_⟩
      simp [BadCase.recur, hclosed]

/-- A store that follows another one keeps its events, and every case is the same or has a
higher revision. -/
structure Follows (store store' : BadCaseStore) : Prop where
  events : ∀ e ∈ store.events.rows, e ∈ store'.events.rows
  cases : ∀ badCaseId row, store.cases.find? badCaseId = some row →
    ∃ row', store'.cases.find? badCaseId = some row' ∧
      (row' = row ∨ row.revision < row'.revision)

theorem Copied.follow (h : Copied store base)
    (hfollows : Follows store store') : Copied store' base := by
  obtain ⟨row, hrow, hle, hsame⟩ := h
  obtain ⟨row', hrow', rfl | hlt⟩ := hfollows.cases _ row hrow
  · exact ⟨row', hrow', hle, hsame⟩
  · exact ⟨row', hrow', by omega, by omega⟩

theorem CallSound.follow (hfollows : Follows store store') :
    ∀ {c : BadCaseCall}, CallSound ids store c → CallSound ids store' c
  | .verifying _ _ _ _, h => ⟨h.1.follow hfollows, h.2⟩
  | .approving _ _ _ _ _, h => ⟨h.1.follow hfollows, h.2⟩
  | .appending _ _ _, ⟨base, hcopied, hextends⟩ => ⟨base, hcopied.follow hfollows, hextends⟩
  | .saving (some _) _ _, ⟨hmem, base, hcopied, hextends⟩ =>
    ⟨hfollows.events _ hmem, base, hcopied.follow hfollows, hextends⟩
  | .saving none _ _, .inl hnew => .inl hnew
  | .saving none _ _, .inr ⟨base, hcopied, hnext⟩ => .inr ⟨base, hcopied.follow hfollows, hnext⟩
  | .reading .., _ | .looking .., _ | .finding .., _ | .recording _, _ => trivial

/-- The events replay to the row, in the order of their sequence, and the calls that
appended them have saved it. -/
structure Settled (answered : List BadCaseEvent) (row : BadCase) (events : List BadCaseEvent) :
    Prop where
  replays : replay .open events = some row.status
  sorted : events.Pairwise fun a b => a.sequence < b.sequence
  past : ∀ e ∈ events, e.sequence ≤ row.revision
  answered : ∀ e ∈ events, e ∈ answered

def Held (s : BadCaseSystem) (e : BadCaseEvent) : Prop :=
  ∃ next occurrence, .saving (some e) next occurrence ∈ s.calls

/-- The event of the next revision of the row is appended, and the row is not saved yet. -/
structure Pending (s : BadCaseSystem) (row : BadCase) (e : BadCaseEvent) : Prop where
  eventCase : e.badCaseId = row.badCaseId
  sequence : e.sequence = row.revision + 1
  fromStatus : e.fromStatus = row.status
  allowed : e.toStatus ∈ allowedTransitions row.status
  fresh : e ∉ s.answered
  held : s.Held e

/-- The events of a row have settled, but for the last one while its call is in flight. -/
def LogKept (s : BadCaseSystem) (row : BadCase) : Prop :=
  Settled s.answered row (s.store.appended row.badCaseId) ∨
  ∃ events e, s.store.appended row.badCaseId = events ++ [e] ∧
    Settled s.answered row events ∧ s.Pending row e

variable (ids) in
structure Inv (s : BadCaseSystem) : Prop where
  sound : ∀ c ∈ s.calls, CallSound ids s.store c
  eventIds : ∀ e ∈ s.store.events.rows, e.eventId = ids.eventId e.badCaseId e.sequence
  eventCases : ∀ e ∈ s.store.events.rows, (s.store.cases.find? e.badCaseId).isSome
  answered : ∀ e ∈ s.answered, e ∈ s.store.events.rows
  logs : ∀ badCaseId row, s.store.cases.find? badCaseId = some row → s.LogKept row

theorem inv_init : Inv ids .init := by
  constructor <;> simp [init, BadCaseStore.empty]

theorem mem_appended :
    e ∈ store.appended badCaseId ↔ e ∈ store.events.rows ∧ e.badCaseId = badCaseId := by
  simp [BadCaseStore.appended]

theorem Settled.mono {answered' : List BadCaseEvent} (h : Settled answered row events)
    (hmono : ∀ e ∈ answered, e ∈ answered') : Settled answered' row events :=
  ⟨h.replays, h.sorted, h.past, fun e he => hmono e (h.answered e he)⟩

variable {next : BadCase}

theorem Settled.forward (h : Settled answered row events) (hstatus : next.status = row.status)
    (hle : row.revision ≤ next.revision) :
    Settled answered next events := by
  refine ⟨?_, h.sorted, ?_, h.answered⟩
  · rw [hstatus]
    exact h.replays
  · intro e he
    exact (h.past e he).trans hle

theorem Settled.snoc (h : Settled answered row events) (hfrom : e.fromStatus = row.status)
    (hto : e.toStatus ∈ allowedTransitions row.status) (hstatus : e.toStatus = next.status)
    (hsequence : e.sequence = row.revision + 1) (hrevision : next.revision = row.revision + 1) :
    Settled (e :: answered) next (events ++ [e]) := by
  constructor
  · rw [replay_append h.replays hfrom hto, hstatus]
  · rw [List.pairwise_append]
    refine ⟨h.sorted, List.pairwise_singleton _ _, ?_⟩
    intro x hx y hy
    have hpast := h.past x hx
    rw [List.mem_singleton.mp hy, hsequence]
    omega
  · intro x hx
    rcases List.mem_append.mp hx with hx | hx
    · have hpast := h.past x hx
      omega
    · rw [List.mem_singleton.mp hx]
      omega
  · intro x hx
    rcases List.mem_append.mp hx with hx | hx
    · exact List.mem_cons_of_mem _ (h.answered x hx)
    · rw [List.mem_singleton.mp hx]
      exact List.mem_cons_self

theorem LogKept.frame (h : s.LogKept row)
    (hevents : t.store.appended row.badCaseId = s.store.appended row.badCaseId)
    (hanswered : ∀ e ∈ s.answered, e ∈ t.answered)
    (hpending : ∀ e, s.Pending row e → e ∉ t.answered ∧ t.Held e) : t.LogKept row := by
  unfold LogKept
  rw [hevents]
  rcases h with hsettled | ⟨events, e, happended, hsettled, hlast⟩
  · exact .inl (hsettled.mono hanswered)
  · obtain ⟨hfresh, hheld⟩ := hpending e hlast
    exact .inr ⟨events, e, happended, hsettled.mono hanswered, hlast.eventCase, hlast.sequence,
      hlast.fromStatus, hlast.allowed, hfresh, hheld⟩

theorem mem_calls_resume {next : Option BadCaseCall}
    (h : c ∈ next.toList ++ s.calls.eraseIdx k) : c ∈ next ∨ c ∈ s.calls := by
  rcases List.mem_append.mp h with hnext | hold
  · exact .inl (Option.mem_toList.mp hnext)
  · exact .inr (List.mem_of_mem_eraseIdx hold)

theorem mem_resume_of_ne (next : Option BadCaseCall) (hc : c ∈ s.calls)
    (hk : s.calls[k]? ≠ some c) : c ∈ next.toList ++ s.calls.eraseIdx k := by
  apply List.mem_append_right
  obtain ⟨j, hj⟩ := List.getElem?_of_mem hc
  rw [List.mem_eraseIdx_iff_getElem?]
  refine ⟨j, ?_, hj⟩
  rintro rfl
  exact hk hj

theorem follows_of_eq (hcases : store'.cases = store.cases)
    (hevents : store'.events = store.events) : Follows store store' := by
  constructor
  · intro e he
    rwa [hevents]
  · intro badCaseId row hrow
    exact ⟨row, by rwa [hcases], .inl rfl⟩

/-- Steps that change the calls only. -/
theorem Inv.kept (h : Inv ids s) (hcases : t.store.cases = s.store.cases)
    (hevents : t.store.events = s.store.events) (hanswered : t.answered = s.answered)
    (hcalls : ∀ c ∈ t.calls, c ∈ s.calls ∨ CallSound ids s.store c)
    (hheld : ∀ row e, s.store.cases.find? row.badCaseId = some row → s.Pending row e → t.Held e) :
    Inv ids t := by
  have hfollows : Follows s.store t.store := follows_of_eq hcases hevents
  constructor
  · intro c hc
    rcases hcalls c hc with hold | hnew
    · exact (h.sound c hold).follow hfollows
    · exact hnew.follow hfollows
  · rw [hevents]
    exact h.eventIds
  · rw [hevents, hcases]
    exact h.eventCases
  · rw [hanswered, hevents]
    exact h.answered
  · intro badCaseId row hrow
    rw [hcases] at hrow
    apply (h.logs badCaseId row hrow).frame
    · rw [BadCaseStore.appended, hevents, BadCaseStore.appended]
    · rw [hanswered]
      exact fun e he => he
    · intro e he
      rw [hanswered]
      exact ⟨he.fresh, hheld row e (by rwa [Table.find?_key hrow]) he⟩

def standing : BadCaseCall → Option BadCaseEvent
  | .saving event _ _ => event
  | _ => none

theorem sound_none : ∀ c ∈ none, CallSound ids store c := by
  intro c hc
  cases hc

/-- A call goes on that does not stand between an event and its save. -/
theorem Inv.goesOn (h : Inv ids s) (hk : s.calls[k]? = some c) (hc : standing c = none)
    (hcases : store.cases = s.store.cases) (hevents : store.events = s.store.events)
    {next : Option BadCaseCall} (hnext : ∀ c ∈ next, CallSound ids s.store c) :
    Inv ids { s.resume k next with store } := by
  refine h.kept (t := { s.resume k next with store }) hcases hevents rfl ?_ ?_
  · intro c' hc'
    rcases mem_calls_resume hc' with hnew | hold
    · exact .inr (hnext c' hnew)
    · exact .inl hold
  · intro row e hrow he
    obtain ⟨next', occurrence', hmem⟩ := he.held
    refine ⟨next', occurrence', mem_resume_of_ne _ hmem ?_⟩
    rw [hk]
    intro heq
    rw [Option.some.inj heq] at hc
    cases hc

theorem Inv.appends (h : Inv ids s) (hk : s.calls[k]? = some (.appending e next occurrence))
    (hcopied : Copied s.store base) (hextends : Extends ids base next e)
    (hbased : ∀ row, s.store.cases.find? e.badCaseId = some row → row.revision = e.basedOnRevision)
    (hcases : store.cases = s.store.cases) (hnew : s.store.events.find? e.eventId = none)
    (hevents : store.events.rows = s.store.events.rows ++ [e]) :
    Inv ids { s.resume k (some (.saving (some e) next occurrence)) with store } := by
  have hfollows : Follows s.store store := by
    constructor
    · intro x hx
      rw [hevents]
      exact List.mem_append_left _ hx
    · intro badCaseId row hrow
      exact ⟨row, by rwa [hcases], .inl rfl⟩
  have hmem : e ∈ store.events.rows := by simp [hevents]
  obtain ⟨row, hrow, _, hsame⟩ := id hcopied
  rw [← hextends.eventCase] at hrow
  -- the copy is the stored row, as the event is based on its revision
  obtain rfl : row = base := hsame ((hbased row hrow).trans hextends.basedOn)
  have hfresh : ∀ x ∈ s.store.events.rows, x.eventId ≠ e.eventId := by
    intro x hx heq
    exact (Table.find?_eq_none_iff _).mp hnew (heq ▸ List.mem_map_of_mem hx)
  have hunanswered : e ∉ s.answered := fun hin => hfresh e (h.answered e hin) rfl
  constructor
  · intro c hc
    rcases List.mem_cons.mp hc with rfl | hold
    · exact ⟨hmem, row, hcopied.follow hfollows, hextends⟩
    · exact (h.sound c (List.mem_of_mem_eraseIdx hold)).follow hfollows
  · intro x hx
    rw [hevents] at hx
    rcases List.mem_append.mp hx with hx | hx
    · exact h.eventIds x hx
    · rw [List.mem_singleton.mp hx]
      exact hextends.eventId
  · intro x hx
    rw [hevents] at hx
    rw [hcases]
    rcases List.mem_append.mp hx with hx | hx
    · exact h.eventCases x hx
    · rw [List.mem_singleton.mp hx, hrow]
      rfl
  · intro x hx
    exact hfollows.events x (h.answered x hx)
  · intro badCaseId row' hrow'
    rw [hcases] at hrow'
    have hheld : ∀ x, s.Held x → ∃ next' occurrence', .saving (some x) next' occurrence' ∈
        (some (BadCaseCall.saving (some e) next occurrence)).toList ++ s.calls.eraseIdx k := by
      intro x ⟨next', occurrence', hx⟩
      refine ⟨next', occurrence', mem_resume_of_ne _ hx ?_⟩
      rw [hk]
      exact nofun
    have hkey : row'.badCaseId = badCaseId := Table.find?_key hrow'
    by_cases hid : row'.badCaseId = e.badCaseId
    · rw [← hkey, hid] at hrow'
      obtain rfl : row = row' := Option.some.inj (hrow.symm.trans hrow')
      have happended : store.appended row.badCaseId = s.store.appended row.badCaseId ++ [e] := by
        rw [BadCaseStore.appended, hevents, List.filter_append, BadCaseStore.appended]
        simp [hid]
      rcases h.logs _ row hrow with hsettled | ⟨events, x, hx, _, hlast⟩
      · refine .inr ⟨_, e, happended, hsettled, hid.symm, hextends.sequence, hextends.fromStatus,
          hextends.allowed, hunanswered, next, occurrence, List.mem_cons_self⟩
      · -- an event of this sequence is there already, under the same identifier
        have hxmem : x ∈ s.store.events.rows :=
          (mem_appended.mp (by rw [hx]; exact List.mem_append_right _ List.mem_cons_self)).1
        refine absurd ?_ (hfresh x hxmem)
        rw [h.eventIds x hxmem, hextends.eventId, hlast.eventCase, hlast.sequence, hid,
          hextends.sequence]
    · apply (h.logs badCaseId row' hrow').frame
      · rw [BadCaseStore.appended, hevents, List.filter_append, BadCaseStore.appended]
        simp [Ne.symm hid]
      · exact fun x hx => hx
      · exact fun x hx => ⟨hx.fresh, hheld x hx.held⟩

theorem Pending.saved {x : BadCaseEvent} (h : s.Pending row x)
    (hk : s.calls[k]? = some (.saving event next occurrence)) (hne : x ∉ event)
    (hcalls : t.calls = (occurrence.map .recording).toList ++ s.calls.eraseIdx k)
    (hanswered : t.answered = event.toList ++ s.answered) : x ∉ t.answered ∧ t.Held x := by
  constructor
  · rw [hanswered, List.mem_append, Option.mem_toList]
    rintro (hin | hin)
    · exact hne hin
    · exact h.fresh hin
  · obtain ⟨next', occurrence', hx⟩ := h.held
    refine ⟨next', occurrence', ?_⟩
    rw [hcalls]
    apply mem_resume_of_ne _ hx
    rw [hk]
    intro heq
    cases Option.some.inj heq
    exact hne rfl

theorem Inv.saving_event (h : Inv ids s) (hk : s.calls[k]? = some (.saving event next occurrence)) :
    ∀ e ∈ event, e.badCaseId = next.badCaseId ∧ e.sequence = next.revision := by
  intro e he
  obtain rfl : event = some e := he
  obtain ⟨_, base, _, hextends⟩ := h.sound _ (List.mem_of_getElem? hk)
  refine ⟨hextends.eventCase.trans hextends.nextCase.symm, ?_⟩
  rw [hextends.sequence, hextends.revision]

theorem Inv.replaced_log (h : Inv ids s) (hk : s.calls[k]? = some (.saving event next occurrence))
    (hrow : s.store.cases.find? next.badCaseId = some row)
    (hnext : next.revision = row.revision + 1)
    (hspared : event = none → ∀ x, s.Pending row x → x ∈ s.answered) :
    Settled (event.toList ++ s.answered) next (s.store.appended next.badCaseId) := by
  have hsound := h.sound _ (List.mem_of_getElem? hk)
  have hkey : row.badCaseId = next.badCaseId := Table.find?_key hrow
  have hlog : s.LogKept row := h.logs _ row hrow
  rw [← hkey]
  cases event with
  | none =>
    rcases hlog with hsettled | ⟨events, x, _, _, hlast⟩
    · rcases hsound with ⟨hzero, _⟩ | ⟨base, ⟨row', hrow', _, hsame⟩, hid, hrevision, hstatus⟩
      · omega
      · rw [← hid, hrow] at hrow'
        obtain rfl : row = row' := Option.some.inj hrow'
        obtain rfl : row = base := hsame (by omega)
        exact hsettled.forward hstatus (by omega)
    · exact absurd (hspared rfl x hlast) hlast.fresh
  | some e =>
    obtain ⟨hmem, base, ⟨row', hrow', _, hsame⟩, hextends⟩ := hsound
    rw [← hextends.nextCase, hrow] at hrow'
    obtain rfl : row = row' := Option.some.inj hrow'
    have hrevision := hextends.revision
    obtain rfl : row = base := hsame (by omega)
    have hin : e ∈ s.store.appended row.badCaseId := mem_appended.mpr ⟨hmem, hextends.eventCase⟩
    have hsequence := hextends.sequence
    rcases hlog with hsettled | ⟨events, x, happended, hsettled, hlast⟩
    · have hpast := hsettled.past e hin
      omega
    · rw [happended] at hin ⊢
      rcases List.mem_append.mp hin with hold | hnew
      · have hpast := hsettled.past e hold
        omega
      · obtain rfl : e = x := List.mem_singleton.mp hnew
        exact hsettled.snoc hextends.fromStatus hextends.allowed hextends.toStatus hsequence hnext

theorem Inv.saves (h : Inv ids s) (hk : s.calls[k]? = some (.saving event next occurrence))
    (hsave : s.store.saveBadCase next = .ok t.store)
    (hcalls : t.calls = (occurrence.map .recording).toList ++ s.calls.eraseIdx k)
    (hanswered : t.answered = event.toList ++ s.answered)
    (hspared : ∀ row, s.store.cases.find? next.badCaseId = some row →
      next.revision = row.revision + 1 → event = none → ∀ x, s.Pending row x → x ∈ s.answered) :
    Inv ids t := by
  obtain ⟨hevents, hsaved⟩ := BadCaseStore.saveBadCase_ok hsave
  have hevent := h.saving_event hk
  have happended : ∀ badCaseId, t.store.appended badCaseId = s.store.appended badCaseId := by
    intro badCaseId
    rw [BadCaseStore.appended, hevents, BadCaseStore.appended]
  -- the rows that are not saved keep their logs
  have hother : ∀ badCaseId row, s.store.cases.find? badCaseId = some row →
      (badCaseId = next.badCaseId → row = next) → t.LogKept row := by
    intro badCaseId row hrow hsame
    have hkey : row.badCaseId = badCaseId := Table.find?_key hrow
    apply (h.logs badCaseId row hrow).frame (happended _)
    · intro e he
      rw [hanswered]
      exact List.mem_append_right _ he
    · intro x hx
      apply hx.saved hk _ hcalls hanswered
      intro hin
      obtain ⟨hid, hsequence⟩ := hevent x hin
      have hrow : row = next := hsame (hkey ▸ hx.eventCase ▸ hid)
      have hpending := hx.sequence
      rw [hrow] at hpending
      omega
  have hcases : ∀ badCaseId row, s.store.cases.find? badCaseId = some row →
      ∃ row', t.store.cases.find? badCaseId = some row' ∧
        (row' = row ∨ row.revision < row'.revision) := by
    intro badCaseId row hrow
    rcases hsaved with ⟨_, hins⟩ | ⟨_, hkeep⟩ | ⟨old, hold, hnext, hreplace⟩
    · exact ⟨row, Table.find?_insert_of_some hins hrow, .inl rfl⟩
    · exact ⟨row, by rwa [hkeep], .inl rfl⟩
    · rw [hreplace]
      by_cases hid : badCaseId = next.badCaseId
      · rw [hid, hold] at hrow
        obtain rfl : old = row := Option.some.inj hrow
        refine ⟨next, ?_, .inr (by omega)⟩
        rw [hid]
        exact Table.find?_replace_self (by rw [hold]; rfl)
      · exact ⟨row, by rwa [Table.find?_replace_of_ne _ hid], .inl rfl⟩
  have hfollows : Follows s.store t.store := ⟨fun e he => by rwa [hevents], hcases⟩
  constructor
  · intro c hc
    rw [hcalls] at hc
    rcases mem_calls_resume hc with hnew | hold
    · obtain ⟨o, _, rfl⟩ := Option.map_eq_some_iff.mp hnew
      trivial
    · exact (h.sound c hold).follow hfollows
  · rw [hevents]
    exact h.eventIds
  · intro e he
    rw [hevents] at he
    obtain ⟨row, hrow⟩ := Option.isSome_iff_exists.mp (h.eventCases e he)
    obtain ⟨row', hrow', _⟩ := hcases _ row hrow
    rw [hrow']
    rfl
  · intro e he
    rw [hanswered] at he
    rw [hevents]
    rcases List.mem_append.mp he with hin | hold
    · obtain rfl : event = some e := Option.mem_toList.mp hin
      exact (h.sound _ (List.mem_of_getElem? hk)).1
    · exact h.answered e hold
  · intro badCaseId row hrow
    rcases hsaved with ⟨hnone, hins⟩ | ⟨hsame, hkeep⟩ | ⟨old, hold, hnext, hreplace⟩
    · by_cases hid : badCaseId = next.badCaseId
      · -- a case that is opened has no events yet
        rw [hid, Table.find?_insert_self hins] at hrow
        obtain rfl : next = row := Option.some.inj hrow
        have hopen : next.status = .open := by
          cases event with
          | none =>
            rcases h.sound _ (List.mem_of_getElem? hk) with ⟨_, hopen⟩ |
              ⟨base, ⟨row', hrow', _⟩, hbase, _⟩
            · exact hopen
            · rw [← hbase, hnone] at hrow'
              cases hrow'
          | some e =>
            obtain ⟨_, base, ⟨row', hrow', _⟩, hextends⟩ := h.sound _ (List.mem_of_getElem? hk)
            rw [← hextends.nextCase, hnone] at hrow'
            cases hrow'
        have hempty : t.store.appended next.badCaseId = [] := by
          rw [happended, List.eq_nil_iff_forall_not_mem]
          intro e he
          obtain ⟨hmem, hcase⟩ := mem_appended.mp he
          have hstored := h.eventCases e hmem
          rw [hcase, hnone] at hstored
          cases hstored
        refine .inl ?_
        rw [hempty]
        constructor <;> simp [replay, hopen]
      · rw [Table.find?_insert_of_ne hins hid] at hrow
        exact hother badCaseId row hrow fun heq => absurd heq hid
    · rw [hkeep] at hrow
      refine hother badCaseId row hrow fun heq => ?_
      rw [heq, hsame] at hrow
      exact (Option.some.inj hrow).symm
    · rw [hreplace] at hrow
      by_cases hid : badCaseId = next.badCaseId
      · rw [hid, Table.find?_replace_self (by rw [hold]; rfl)] at hrow
        obtain rfl : next = row := Option.some.inj hrow
        refine .inl ?_
        rw [hanswered, happended]
        exact h.replaced_log hk hold hnext (hspared old hold hnext)
      · rw [Table.find?_replace_of_ne _ hid] at hrow
        exact hother badCaseId row hrow fun heq => absurd heq hid

/-- A call between an event and its save is refused or cut off. -/
theorem Inv.drops (h : Inv ids s)
    (hheld : ∀ row e next occurrence, s.store.cases.find? row.badCaseId = some row →
      s.Pending row e → s.calls[k]? = some (.saving (some e) next occurrence) →
        ∃ j ≠ k, ∃ next' occurrence', s.calls[j]? = some (.saving (some e) next' occurrence')) :
    Inv ids (s.resume k none) := by
  refine h.kept (t := s.resume k none) rfl rfl rfl ?_ ?_
  · intro c hc
    exact .inl (List.mem_of_mem_eraseIdx hc)
  · intro row e hrow he
    obtain ⟨next, occurrence, hmem⟩ := he.held
    by_cases hk : s.calls[k]? = some (.saving (some e) next occurrence)
    · obtain ⟨j, hj, next', occurrence', hother⟩ := hheld row e next occurrence hrow he hk
      exact ⟨next', occurrence', List.mem_eraseIdx_iff_getElem?.mpr ⟨j, hj, hother⟩⟩
    · exact ⟨next, occurrence, mem_resume_of_ne none hmem hk⟩

theorem Inv.advance (h : Inv ids s) {now : Timestamp} (hspares : s.Spares (.advance k now))
    (hk : s.calls[k]? = some c)
    (hstep : s.advance ids k now c = some t) : Inv ids t := by
  have hsound := h.sound c (List.mem_of_getElem? hk)
  cases c with
  | reading badCaseId target request actorScope =>
    cases hstep
    refine h.goesOn hk rfl rfl rfl ?_
    intro c hc
    obtain ⟨current, hcurrent, hread⟩ := Option.bind_eq_some_iff.mp hc
    have hcopied : Copied s.store current :=
      copied_of_find? (by rwa [Table.find?_key hcurrent])
    exact sound_afterRead hcopied _ _ _ _ c hread
  | verifying current target request actorScope => cases hstep
  | approving current target request actorScope verification =>
    obtain rfl := Option.some.inj hstep
    split
    · rename_i store hsave
      obtain ⟨hcases, hevents⟩ := BadCaseStore.saveVerification_ok hsave
      exact h.goesOn hk rfl hcases hevents (sound_afterVerified hsound.1 hsound.2 _ _ _)
    · exact h.goesOn hk rfl rfl rfl sound_none
  | appending e next occurrence =>
    obtain rfl := Option.some.inj hstep
    obtain ⟨base, hcopied, hextends⟩ := hsound
    split
    · rename_i store happend
      obtain ⟨hcases, ⟨hfound, hevents⟩ | ⟨hnew, hrows⟩⟩ := BadCaseStore.appendEvent_ok happend
      · refine h.goesOn hk rfl hcases hevents ?_
        intro c hc
        rw [← Option.some.inj hc]
        exact ⟨Table.find?_mem hfound, base, hcopied, hextends⟩
      · have hbased := fun row => hspares.1 e next occurrence row hk hnew
        exact h.appends hk hcopied hextends hbased hcases hnew hrows
    · exact h.goesOn hk rfl rfl rfl sound_none
  | saving event next occurrence =>
    obtain rfl := Option.some.inj hstep
    split
    · rename_i store hsave
      refine h.saves hk hsave rfl rfl ?_
      rintro row hrow hnext rfl x hx
      obtain ⟨next', occurrence', hmem⟩ := hx.held
      have hid : x.badCaseId = next.badCaseId := hx.eventCase.trans (Table.find?_key hrow)
      exact hspares.2 next occurrence row hk hrow hnext x next' occurrence' hmem hid
    · rename_i error hsave
      apply h.drops
      intro row e next' occurrence' hrow he hk'
      -- the event of the next revision comes with a record that is saved
      cases Option.some.inj (hk.symm.trans hk')
      obtain ⟨hid, hsequence⟩ := h.saving_event hk e rfl
      rw [← he.eventCase, hid] at hrow
      have hpending := he.sequence
      exact absurd (by omega) (BadCaseStore.saveBadCase_error hsave hrow)
  | looking case result trigger subjectId now' =>
    cases hstep
    refine h.goesOn hk rfl rfl rfl ?_
    intro c hc
    split_ifs at hc
    · cases hc
    · rw [← Option.some.inj hc]
      trivial
  | finding case result trigger subjectId now' =>
    cases hstep
    refine h.goesOn hk rfl rfl rfl ?_
    intro c hc
    rw [← Option.some.inj hc]
    apply sound_afterFound
    intro row hrow
    exact copied_of_find? (Table.find?_of_mem (List.mem_of_find?_eq_some hrow))
  | recording occurrence =>
    obtain rfl := Option.some.inj hstep
    split
    · rename_i store happend
      obtain ⟨hcases, hevents⟩ := BadCaseStore.appendOccurrence_ok happend
      exact h.goesOn hk rfl hcases hevents sound_none
    · exact h.goesOn hk rfl rfl rfl sound_none

theorem Inv.calls (h : Inv ids s)
    (hc : CallSound ids s.store c) : Inv ids { s with calls := c :: s.calls } := by
  refine h.kept (t := { s with calls := c :: s.calls }) rfl rfl rfl ?_ ?_
  · intro c' hc'
    rcases List.mem_cons.mp hc' with rfl | hold
    · exact .inr hc
    · exact .inl hold
  · intro row e hrow he
    obtain ⟨next, occurrence, hmem⟩ := he.held
    exact ⟨next, occurrence, List.mem_cons_of_mem _ hmem⟩

theorem Inv.step {a : BadCaseLabel} (h : Inv ids s) (hspares : s.Spares a)
    (hstep : s.step ids a = some t) : Inv ids t := by
  cases a with
  | transition badCaseId target request actorScope =>
    cases hstep
    exact h.calls trivial
  | analyze case result subjectId clock =>
    unfold BadCaseSystem.step at hstep
    dsimp only at hstep
    split at hstep
    · cases hstep
      exact h.calls trivial
    · cases hstep
      exact h
  | advance k now =>
    obtain ⟨c, hk, hadvance⟩ := Option.bind_eq_some_iff.mp hstep
    exact h.advance hspares hk hadvance
  | verify k results promotions =>
    obtain ⟨c, hk, hverify⟩ := Option.bind_eq_some_iff.mp hstep
    have hsound := h.sound c (List.mem_of_getElem? hk)
    cases c with
    | verifying current target request actorScope =>
      obtain rfl := Option.some.inj hverify
      refine h.goesOn hk rfl rfl rfl ?_
      intro c hc
      split at hc
      · rw [← Option.some.inj hc]
        exact hsound
      · cases hc
    | _ => cases hverify
  | raise k =>
    obtain ⟨c, hk, rfl⟩ := Option.map_eq_some_iff.mp hstep
    apply h.drops
    intro row e next occurrence hrow he hk'
    rcases hspares e next occurrence hk' with hanswered | hother
    · exact absurd hanswered he.fresh
    · exact hother

/-- A settled log replays to its row and leaves the next revision free. -/
theorem Inv.logReplays (h : Inv ids s)
    (hrow : s.store.cases.find? badCaseId = some row) (hquiet : s.Quiet badCaseId) :
    s.LogReplays ids row := by
  have hkey : row.badCaseId = badCaseId := Table.find?_key hrow
  have hsettled : Settled s.answered row (s.store.appended row.badCaseId) := by
    rcases h.logs badCaseId row hrow with hsettled | ⟨events, e, _, _, hlast⟩
    · exact hsettled
    · obtain ⟨next, occurrence, hmem⟩ := hlast.held
      exact absurd (hlast.eventCase.trans hkey) (hquiet e next occurrence hmem)
  have hlog : s.store.log row.badCaseId = s.store.appended row.badCaseId :=
    List.Pairwise.insertionSort_eq (hsettled.sorted.imp fun hlt => hlt.le)
  refine ⟨?_, ?_, ?_, ?_⟩
  · rw [hlog]
    exact hsettled.replays
  · rw [hlog]
    exact hsettled.answered
  · rw [hlog]
    exact hsettled.past
  · intro hunique
    rw [Table.find?_eq_none_iff]
    intro hmem
    obtain ⟨e, he, hid⟩ := List.mem_map.mp hmem
    obtain ⟨hcase, hsequence⟩ := hunique e.badCaseId e.sequence ((h.eventIds e he).symm.trans hid)
    have hpast := hsettled.past e (mem_appended.mpr ⟨he, hcase⟩)
    omega

/-- Logs replay to their cases as long as no event is appended to another revision than
its own, and none is left without its save. -/
theorem logsReplay_of_spares (ids : StableIds) : LogsReplay ids Spares := by
  intro labels s hrun badCaseId row hrow hquiet
  have hinv : Inv ids s :=
    Machine.Run.invariant (Inv ids) (fun _ _ _ h hspares hstep => h.step hspares hstep) hrun inv_init
  exact hinv.logReplays hrow hquiet

/-- Identifiers that are written out. -/
def sampleIds : StableIds where
  fingerprint := fun family _ _ code => family ++ code
  badCaseId := fun fingerprint => "bad-case-" ++ fingerprint
  occurrenceId := fun badCaseId resultId => badCaseId ++ "-" ++ resultId
  eventId := fun badCaseId sequence => badCaseId ++ "-" ++ toString sequence
  scopeHash := id

def sampleCase : EvaluationCase := ⟨"case", "family", .answer⟩

def failingResult (resultId : String) : CaseResult :=
  ⟨resultId, "run", "case", .answer, .completed, some .failed, true, [], none, [], none, [], some 1⟩

/-- A case is opened, and recurs after the event of its triage is appended. -/
def triageOvertaken : List BadCaseLabel :=
  [.analyze sampleCase (failingResult "first") "subject" 1, .advance 0 1, .advance 0 1,
    .advance 0 1, .advance 0 1,
    .transition "bad-case-familynot_evaluable" .triaged ⟨0, "seen", none, none, none, []⟩ "owner",
    .advance 0 2, .advance 0 2,
    .analyze sampleCase (failingResult "second") "subject" 3, .advance 0 3, .advance 0 3,
    .advance 0 3, .advance 0 3, .advance 0 3]

theorem triageOvertaken_stray : ¬ LogsReplay sampleIds Machine.Free := by
  intro h
  obtain ⟨s, hs, hcalls, row, hrow, hstray⟩ :
      ∃ s ∈ (machine sampleIds).exec Machine.Free .init triageOvertaken, s.calls = [] ∧
        ∃ row ∈ s.store.cases.find? "bad-case-familynot_evaluable",
          replay .open (s.store.log row.badCaseId) ≠ some row.status := by decide +kernel
  have hquiet : s.Quiet "bad-case-familynot_evaluable" := by
    intro e next occurrence hmem
    rw [hcalls] at hmem
    cases hmem
  exact hstray (h _ s (Machine.run_of_exec hs) _ row hrow hquiet).replays

end BadCaseSystem

end CodeResearch.Evaluation
