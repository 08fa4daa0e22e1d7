import CodeResearch.Alignment.Reviews

/-!
# What the effective decisions follow from

Whatever the calls interleave to, the log of a decision is numbered without gaps, its
reviews select candidates of the run, and the fold keeps track of who accepted what. A
reject makes the rest of an undecided selection accepted, and it lifts a decision that
there is no implementation; the statements below leave both out.
-/
namespace CodeResearch.Alignment

section Fold

variable {base : AlignmentDecision} {reviews : List AlignmentReview}

def AcceptedBy (base : AlignmentDecision) (reviews : List AlignmentReview)
    (candidateId : String) : Prop :=
  (base.status = .accepted ∧ candidateId ∈ base.selections.map AlignmentSelection.candidateId) ∨
    ∃ review ∈ reviews, review.action.Accepts ∧
      candidateId ∈ review.selections.map ReviewSelection.candidateId

def Decided (base : AlignmentDecision) (reviews : List AlignmentReview) : Prop :=
  base.status = .accepted ∨ base.selections = [] ∨
    (reviews.find? fun review => review.action ≠ .addNote).map AlignmentReview.action ≠ some .reject

instance (base : AlignmentDecision) (reviews : List AlignmentReview) :
    Decidable (Decided base reviews) := inferInstanceAs (Decidable (_ ∨ _))

variable {item : AlignmentSelection} {review : AlignmentReview} {standing : Standing}
  {notes : List AlignmentReview}

theorem candidateId_of_selected (h : item ∈ review.selected) :
    item.candidateId ∈ review.selections.map ReviewSelection.candidateId := by
  obtain ⟨selection, hselection, rfl⟩ := List.mem_map.mp h
  exact List.mem_map_of_mem hselection

theorem mem_apply (h : item ∈ (standing.apply review).2) :
    item ∈ standing.2 ∨ review.action.Accepts ∧
      item.candidateId ∈ review.selections.map ReviewSelection.candidateId := by
  cases haction : review.action <;> rw [Standing.apply, haction] at h
  case accept => exact .inr ⟨by decide, candidateId_of_selected h⟩
  case reject => exact .inl (List.mem_filter.mp h).1
  case replaceCandidate => exact .inr ⟨by decide, candidateId_of_selected h⟩
  case acceptMultiple => exact .inr ⟨by decide, candidateId_of_selected h⟩
  case markNoImplementation => cases h
  case addNote => exact .inl h

/-- A property of the candidates selected at first and of those that reviews accept. -/
theorem forall_selected {P : String → Prop} (hstanding : ∀ item ∈ standing.2, P item.candidateId)
    (hreviews : ∀ review ∈ reviews, review.action.Accepts →
      ∀ id ∈ review.selections.map ReviewSelection.candidateId, P id) :
    ∀ item ∈ (reviews.foldl Standing.apply standing).2, P item.candidateId := by
  induction reviews generalizing standing with
  | nil => exact hstanding
  | cons review reviews ih =>
    apply ih
    · intro item hitem
      rcases mem_apply hitem with h | ⟨haccepts, h⟩
      · exact hstanding item h
      · exact hreviews review List.mem_cons_self haccepts _ h
    · exact fun r hr => hreviews r (List.mem_cons_of_mem _ hr)

theorem foldl_notes (h : ∀ n ∈ notes, n.action = .addNote)
    (standing : Standing) : notes.foldl Standing.apply standing = standing := by
  induction notes with
  | nil => rfl
  | cons note notes ih =>
    have hnote : standing.apply note = standing := by
      rw [Standing.apply, h note List.mem_cons_self]
    rw [List.foldl_cons, hnote]
    exact ih fun n hn => h n (List.mem_cons_of_mem _ hn)

theorem acceptedBy_of_decided (h : Decided base reviews)
    (hstatus : (reviews.foldl Standing.apply base.standing).1 = .accepted) :
    ∀ item ∈ (reviews.foldl Standing.apply base.standing).2,
      AcceptedBy base reviews item.candidateId := by
  have hreviews : ∀ review ∈ reviews, review.action.Accepts →
      ∀ id ∈ review.selections.map ReviewSelection.candidateId, AcceptedBy base reviews id :=
    fun review hreview haccepts _ hid => .inr ⟨review, hreview, haccepts, hid⟩
  by_cases hbase : base.status = .accepted
  · exact forall_selected (fun _ hitem => .inl ⟨hbase, List.mem_map_of_mem hitem⟩) hreviews
  rcases h with h | h | h
  · exact absurd h hbase
  · have hnone : ∀ item ∈ base.standing.2, AcceptedBy base reviews item.candidateId := by
      unfold AlignmentDecision.standing
      rw [h]
      intro item hitem
      cases hitem
    exact forall_selected hnone hreviews
  · cases hfind : reviews.find? fun review => review.action ≠ .addNote with
    | none =>
      -- only notes, which leave the status of the base decision
      have hnotes : ∀ n ∈ reviews, n.action = .addNote := by
        simpa using List.find?_eq_none.mp hfind
      rw [foldl_notes hnotes] at hstatus
      exact absurd hstatus hbase
    | some first =>
      obtain ⟨hfirst, notes, rest, rfl, hnotes⟩ := List.find?_eq_some_iff_append.mp hfind
      have hbefore : ∀ n ∈ notes, n.action = .addNote := by simpa using hnotes
      rw [List.foldl_append, foldl_notes hbefore, List.foldl_cons]
      refine forall_selected ?_ fun r hr => hreviews r (by simp [hr])
      rw [hfind] at h
      intro item hitem
      cases haction : first.action <;> rw [Standing.apply, haction] at hitem
      case accept =>
        exact .inr ⟨first, by simp, by rw [haction]; decide, candidateId_of_selected hitem⟩
      case reject => exact absurd haction fun heq => h (congrArg some heq)
      case replaceCandidate =>
        exact .inr ⟨first, by simp, by rw [haction]; decide, candidateId_of_selected hitem⟩
      case acceptMultiple =>
        exact .inr ⟨first, by simp, by rw [haction]; decide, candidateId_of_selected hitem⟩
      case markNoImplementation => cases hitem
      case addNote => simp [haction] at hfirst

theorem foldl_marked {before : List AlignmentReview} {mark : AlignmentReview}
    (hmark : mark.action = .markNoImplementation) (hnotes : ∀ n ∈ notes, n.action = .addNote)
    (standing : Standing) : (before ++ mark :: notes).foldl Standing.apply standing =
      (.noImplementation, []) := by
  rw [List.foldl_append, List.foldl_cons, foldl_notes hnotes, Standing.apply, hmark]

end Fold

/-- Decisions as `save_decisions` leaves them, which no review was made of yet. -/
structure SavedDecisions extends ReviewStore where
  unreviewed : reviews = .empty
  fresh : ∀ row ∈ decisions.rows, row.effectiveRevision = 0 ∧ row.reviewSequence = 0
  /-- the foreign key of `alignment_selections` -/
  selections : ∀ row ∈ decisions.rows, ∀ item ∈ row.decision.selections,
    (candidates.find? (row.runId, item.candidateId)).isSome

/-- An effective decision follows from what the reviewers did. -/
structure ReviewAnswer.Follows (candidates : Table CandidateRow.key) (a : ReviewAnswer) : Prop where
  ownRun : ∀ item ∈ a.effective.selections,
    (candidates.find? (a.row.runId, item.candidateId)).isSome
  accepted : Decided a.row.decision a.reviews → a.effective.status = .accepted →
    ∀ item ∈ a.effective.selections, AcceptedBy a.row.decision a.reviews item.candidateId
  noImplementation : ∀ before mark notes, a.reviews = before ++ mark :: notes →
    mark.action = .markNoImplementation → (∀ note ∈ notes, note.action = .addNote) →
    a.effective.status = .noImplementation ∧ a.effective.selections = []
  authority : a.effective.authorityLevel = .humanReviewed ↔ a.reviews ≠ []
  revision : a.row = a.latest →
    a.effective.effectiveRevision = a.effective.appliedReviewIds.length

def DecisionRow.SameDecision (row row' : DecisionRow) : Prop :=
  row'.runId = row.runId ∧ row'.decisionId = row.decisionId ∧ row'.profileId = row.profileId ∧
    row'.decision = row.decision

def AlignmentReview.Known (d : ReviewStore) (review : AlignmentReview) : Prop :=
  ∃ row ∈ d.decisions.rows, row.decisionId = review.decisionId ∧ row.runId = review.runId ∧
    ∀ item ∈ review.selections, (d.candidates.find? (row.runId, item.candidateId)).isSome

namespace ReviewSystem

/-- What every accepted review keeps of the store that the decisions were saved in. -/
structure Logged (d s : ReviewStore) : Prop where
  candidates : s.candidates = d.candidates
  rows : ∀ row ∈ s.decisions.rows, ∃ old ∈ d.decisions.rows, old.SameDecision row
  keys : ∀ row ∈ d.decisions.rows, (s.decisions.find? row.decisionId).isSome
  known : ∀ review ∈ s.reviews.rows, review.Known d
  numbered : ∀ row ∈ s.decisions.rows,
    (s.reviews.rows.filter fun r => r.decisionId = row.decisionId).map
      AlignmentReview.reviewSequence = List.range' 1 row.reviewSequence
  revisions : ∀ row ∈ s.decisions.rows, row.effectiveRevision = row.reviewSequence

def CallKnows (d : ReviewStore) : ReviewCall → Prop
  | .checking row review => row.decisionId = review.decisionId ∧
      ∃ old ∈ d.decisions.rows, old.SameDecision row
  | .inserting review => review.Known d
  | .listing row => ∃ old ∈ d.decisions.rows, old.SameDecision row
  | _ => True

structure AnswerKnown (d : ReviewStore) (a : ReviewAnswer) : Prop where
  row : ∃ old ∈ d.decisions.rows, old.SameDecision a.row
  known : ∀ review ∈ a.reviews, review.Known d ∧ review.decisionId = a.row.decisionId
  length : a.latest.effectiveRevision = a.reviews.length

structure Inv (d : ReviewStore) (s : ReviewSystem) : Prop where
  logged : Logged d s.store
  calls : ∀ call ∈ s.calls, CallKnows d call
  answers : ∀ answer ∈ s.answers, AnswerKnown d answer

variable {d : ReviewStore} {s : ReviewStore} {row : DecisionRow} {review : AlignmentReview}

theorem sameDecision_of_find (h : Logged d s) {decisionId : String}
    (hrow : s.decisions.find? decisionId = some row) :
    row.decisionId = decisionId ∧ ∃ old ∈ d.decisions.rows, old.SameDecision row :=
  ⟨Table.find?_key hrow, h.rows row (Table.find?_mem hrow)⟩

theorem known_of_check (h : Logged d s) (hid : row.decisionId = review.decisionId)
    (hsame : ∃ old ∈ d.decisions.rows, old.SameDecision row) {u : Unit}
    (hcheck : s.checkSelections row review = .ok u) :
    AlignmentReview.Known d { review with runId := row.runId } := by
  obtain ⟨old, hold, hrun, hdecision, _, _⟩ := hsame
  refine ⟨old, hold, hdecision.symm.trans hid, hrun.symm, ?_⟩
  intro item hitem
  unfold ReviewStore.checkSelections at hcheck
  rw [if_neg (List.ne_nil_of_mem hitem), except_bind_eq_ok_iff] at hcheck
  obtain ⟨_, hfound, _⟩ := hcheck
  rw [ensure_eq_ok_iff] at hfound
  rw [← h.candidates, ← hrun]
  exact hfound item hitem

/-- What an accepted review does to the store. -/
theorem insertReview_ok {t : ReviewStore} (h : s.insertReview review = .ok t) :
    ∃ latest reviews, s.decisions.find? review.decisionId = some latest ∧
      review.reviewSequence = latest.reviewSequence + 1 ∧
      s.reviews.insert review = some reviews ∧
      t = { s with
        reviews, decisions := s.decisions.replace (latest.reviewed review.reviewSequence) } := by
  obtain ⟨latest, hlatest, h⟩ := except_bind_eq_ok_iff.mp h
  obtain ⟨_, _, h⟩ := except_bind_eq_ok_iff.mp h
  obtain ⟨_, hsequence, h⟩ := except_bind_eq_ok_iff.mp h
  obtain ⟨_, _, h⟩ := except_bind_eq_ok_iff.mp h
  obtain ⟨reviews, hreviews, h⟩ := except_bind_eq_ok_iff.mp h
  rw [orError_eq_ok_iff] at hlatest hreviews
  rw [ensure_eq_ok_iff] at hsequence
  cases h
  exact ⟨latest, reviews, hlatest, hsequence, hreviews, rfl⟩

theorem Logged.insert (h : Logged d s) (hknown : review.Known d) {t : ReviewStore}
    (hinsert : s.insertReview review = .ok t) : Logged d t := by
  obtain ⟨latest, reviews, hlatest, hsequence, hreviews, rfl⟩ := insertReview_ok hinsert
  have hkey : latest.decisionId = review.decisionId := Table.find?_key hlatest
  have hmem := Table.find?_mem hlatest
  have hsome : (s.decisions.find? (latest.reviewed review.reviewSequence).decisionId).isSome := by
    change (s.decisions.find? latest.decisionId).isSome
    rw [hkey, hlatest]
    rfl
  have hrows : reviews.rows = s.reviews.rows ++ [review] := Table.rows_insert hreviews
  refine ⟨h.candidates, ?_, ?_, ?_, ?_, ?_⟩
  · intro row hrow
    rcases (Table.mem_replace hsome row).mp hrow with rfl | ⟨hrow, _⟩
    · exact h.rows latest hmem
    · exact h.rows row hrow
  · intro row hrow
    have hold := h.keys row hrow
    rw [Option.isSome_iff_ne_none, Ne, Table.find?_eq_none_iff] at hold ⊢
    rwa [Table.keys_replace]
  · intro r hr
    dsimp only at hr
    rw [hrows, List.mem_append, List.mem_singleton] at hr
    rcases hr with hr | rfl
    · exact h.known r hr
    · exact hknown
  · intro row hrow
    dsimp only
    rw [hrows, List.filter_append, List.map_append]
    rcases (Table.mem_replace hsome row).mp hrow with rfl | ⟨hrow, hne⟩
    · have hnumbered := h.numbered latest hmem
      change ((s.reviews.rows.filter fun r => r.decisionId = latest.decisionId).map _ ++
        ([review].filter fun r => r.decisionId = latest.decisionId).map _) =
          List.range' 1 review.reviewSequence
      rw [hnumbered, hsequence, List.range'_1_concat, List.filter_cons_of_pos (by simp [hkey])]
      simp [hsequence, Nat.add_comm]
    · have hother : review.decisionId ≠ row.decisionId := by
        intro heq
        exact hne (heq.symm.trans hkey.symm)
      rw [List.filter_cons_of_neg (by simpa using hother), h.numbered row hrow]
      simp
  · intro row hrow
    rcases (Table.mem_replace hsome row).mp hrow with rfl | ⟨hrow, _⟩
    · change latest.effectiveRevision + 1 = review.reviewSequence
      rw [hsequence, h.revisions latest hmem]
    · exact h.revisions row hrow

/-- What is read of a log once the row of its decision was read. -/
theorem answerKnown_of_list (h : Logged d s)
    (hsame : ∃ old ∈ d.decisions.rows, old.SameDecision row) :
    AnswerKnown d ⟨row, (s.decisions.find? row.decisionId).getD row,
      s.listReviews row.decisionId⟩ := by
  refine ⟨hsame, ?_, ?_⟩
  · intro review hreview
    have hmem := (List.mem_insertionSort _).mp hreview
    obtain ⟨hin, hid⟩ := List.mem_filter.mp hmem
    exact ⟨h.known review hin, of_decide_eq_true hid⟩
  · obtain ⟨old, hold, _, hdecision, _, _⟩ := hsame
    obtain ⟨latest, hlatest⟩ := Option.isSome_iff_exists.mp (h.keys old hold)
    rw [← hdecision] at hlatest
    have hkey : latest.decisionId = row.decisionId := Table.find?_key hlatest
    have hnumbered := congrArg List.length (h.numbered latest (Table.find?_mem hlatest))
    rw [List.length_map, List.length_range', hkey] at hnumbered
    dsimp only
    rw [hlatest, Option.getD_some, h.revisions latest (Table.find?_mem hlatest),
      ReviewStore.listReviews, List.length_insertionSort, hnumbered]

variable {ids : ReviewIds} {sys t : ReviewSystem}

theorem Inv.resume (h : Inv d sys) (k : ℕ) (next : Option ReviewCall)
    (hnext : ∀ call ∈ next, CallKnows d call) : Inv d (sys.resume k next) := by
  refine ⟨h.logged, ?_, h.answers⟩
  intro call hcall
  rcases List.mem_append.mp hcall with hcall | hcall
  · exact hnext call (Option.mem_toList.mp hcall)
  · exact h.calls call (List.mem_of_mem_eraseIdx hcall)

theorem Inv.advance (h : Inv d sys) {k : ℕ} {call : ReviewCall} (hcall : CallKnows d call)
    (now : ControlPlane.Timestamp) : Inv d (sys.advance ids k now call) := by
  cases call with
  | numbering decisionId request reviewerScope =>
    apply h.resume
    intro call hnext
    split at hnext <;> cases hnext
    trivial
  | basing review =>
    apply h.resume
    intro call hnext
    split at hnext
    · rename_i row hrow
      split_ifs at hnext <;> cases hnext
      exact sameDecision_of_find h.logged (orError_eq_ok_iff.mp hrow)
    · cases hnext
  | checking row review =>
    apply h.resume
    intro call hnext
    split at hnext <;> cases hnext
    rename_i hcheck
    exact known_of_check h.logged hcall.1 hcall.2 hcheck
  | inserting review =>
    unfold ReviewSystem.advance
    dsimp only
    cases hinsert : sys.store.insertReview review with
    | error _ => exact h.resume k none (by simp)
    | ok store =>
      have hresumed := h.resume k (some (.reading review.decisionId)) (by simp [CallKnows])
      exact ⟨h.logged.insert hcall hinsert, hresumed.calls, hresumed.answers⟩
  | reading decisionId =>
    apply h.resume
    intro call hnext
    split at hnext <;> cases hnext
    rename_i hrow
    exact (sameDecision_of_find h.logged (orError_eq_ok_iff.mp hrow)).2
  | listing row =>
    have hresumed := h.resume k none (by simp)
    refine ⟨hresumed.logged, hresumed.calls, ?_⟩
    intro answer hanswer
    rcases List.mem_cons.mp hanswer with rfl | hanswer
    · exact answerKnown_of_list h.logged hcall
    · exact h.answers answer hanswer

theorem Inv.step (h : Inv d sys) {label : ReviewLabel} (hstep : sys.step ids label = some t) :
    Inv d t := by
  cases label with
  | addReview | effectiveDecision =>
    cases hstep
    exact ⟨h.logged, List.forall_mem_cons.mpr ⟨trivial, h.calls⟩, h.answers⟩
  | advance k now =>
    obtain ⟨call, hcall, rfl⟩ := Option.map_eq_some_iff.mp hstep
    exact h.advance (h.calls call (List.mem_of_getElem? hcall)) now
  | raise k =>
    obtain ⟨call, _, rfl⟩ := Option.map_eq_some_iff.mp hstep
    exact h.resume k none (by simp)

theorem inv_saved (d : SavedDecisions) : Inv d.toReviewStore ⟨d.toReviewStore, [], []⟩ where
  logged :=
    { candidates := rfl
      rows := fun row hrow => ⟨row, hrow, rfl, rfl, rfl, rfl⟩
      keys := fun row hrow => by rw [Table.find?_of_mem hrow]; rfl
      known := by simp [d.unreviewed]
      numbered := fun row hrow => by simp [d.unreviewed, (d.fresh row hrow).2]
      revisions := fun row hrow => (d.fresh row hrow).1.trans (d.fresh row hrow).2.symm }
  calls := by simp
  answers := by simp

/-- What is known of an answer makes it follow from the log. -/
theorem AnswerKnown.follows {d : SavedDecisions} {a : ReviewAnswer}
    (h : AnswerKnown d.toReviewStore a) : a.Follows d.candidates := by
  obtain ⟨old, hold, hrun, hdecision, _, hbase⟩ := h.row
  refine ⟨?_, ?_, ?_, ?_, ?_⟩
  · refine forall_selected (P := fun id => (d.candidates.find? (a.row.runId, id)).isSome) ?_ ?_
    · intro item hitem
      rw [hrun]
      rw [hbase] at hitem
      exact d.selections old hold item hitem
    · intro review hreview _ id hid
      obtain ⟨⟨row, hrow, hrowid, _, hitems⟩, hreviewid⟩ := h.known review hreview
      have hsame : row = old := d.decisions.eq_of_key_eq hrow hold
        (hrowid.trans (hreviewid.trans hdecision))
      subst hsame
      obtain ⟨item, hitem, rfl⟩ := List.mem_map.mp hid
      rw [hrun]
      exact hitems item hitem
  · exact acceptedBy_of_decided
  · intro before mark notes hreviews hmark hnotes
    unfold ReviewAnswer.effective effectiveDecision
    rw [hreviews]
    dsimp only
    rw [foldl_marked hmark hnotes]
    exact ⟨rfl, rfl⟩
  · unfold ReviewAnswer.effective effectiveDecision authorityOf
    dsimp only
    split_ifs with hnil hsource <;> simp [hnil]
  · intro hlatest
    unfold ReviewAnswer.effective effectiveDecision
    dsimp only
    rw [List.length_map, hlatest, h.length]

end ReviewSystem

/-- Every effective decision that a call returns follows from the log of its reviews. -/
theorem effectiveDecisions_follow (ids : ReviewIds) (d : SavedDecisions) {labels : List ReviewLabel}
    {s : ReviewSystem}
    (h : (ReviewSystem.machine ids).Run Machine.Free ⟨d.toReviewStore, [], []⟩ labels s) :
    ∀ answer ∈ s.answers, answer.Follows d.candidates := by
  have hinv := h.invariant (ReviewSystem.Inv d.toReviewStore)
    (fun _ _ _ hinv _ hstep => hinv.step hstep) (ReviewSystem.inv_saved d)
  exact fun answer hanswer => (hinv.answers answer hanswer).follows

/-- The effective decision keeps to its own profile, to what was accepted, to a decision
that there is no implementation, and to reviews that changed it. -/
structure ReviewAnswer.FollowsStrictly (candidates : Table CandidateRow.key) (a : ReviewAnswer) :
    Prop where
  ownProfile : ∀ item ∈ a.effective.selections, ∃ candidate ∈ candidates.rows,
    candidate.key = (a.row.runId, item.candidateId) ∧ candidate.profileId = a.row.profileId
  accepted : a.effective.status = .accepted →
    ∀ item ∈ a.effective.selections, AcceptedBy a.row.decision a.reviews item.candidateId
  noImplementation : ∀ before mark after, a.reviews = before ++ mark :: after →
    mark.action = .markNoImplementation →
    (∀ review ∈ after, review.action ∈ [ReviewAction.reject, .addNote]) →
    a.effective.status = .noImplementation
  authority : a.effective.authorityLevel = .humanReviewed →
    ∃ before review after, a.reviews = before ++ review :: after ∧
      (before.foldl Standing.apply a.row.decision.standing).apply review ≠
        before.foldl Standing.apply a.row.decision.standing
  revision : a.effective.effectiveRevision = a.effective.appliedReviewIds.length

def twoProfiles : SavedDecisions where
  profiles := ⟨[⟨"run", "mine", []⟩, ⟨"run", "other", []⟩], by decide⟩
  candidates := ⟨[⟨"run", "my candidate", "mine", []⟩, ⟨"run", "other candidate", "other", []⟩],
    by decide⟩
  decisions := ⟨[
    { runId := "run", decisionId := "decision", profileId := "mine"
      decision :=
        { decisionId := "decision", alignmentRunId := "run", profileId := "mine"
          decisionVersion := "1", status := .abstained, selections := []
          decisionSource := .scorer, reasonCodes := [], scores := ""
          selects := selects_abstained, selectsNone := selectsNone_nil _ } }], by simp⟩
  unreviewed := rfl
  fresh := by simp
  selections := by simp

def acceptOther : ReviewRequest where
  action := .accept
  selections := [⟨"other candidate", .implements, [], []⟩]
  note := none
  basedOnEffectiveRevision := 0
  selects := by simp
  selectsNone := by simp
  explains := by simp
  length_note := by simp

def plainReviewIds : ReviewIds := ⟨fun _ _ _ => "review", fun _ => "scope"⟩

def acceptOtherLabels : List ReviewLabel :=
  .addReview "decision" acceptOther "scope" :: List.replicate 6 (.advance 0 0)

theorem acceptOther_answers :
    (((ReviewSystem.machine plainReviewIds).exec Machine.Free ⟨twoProfiles.toReviewStore, [], []⟩
      acceptOtherLabels).map fun s => s.answers.map fun a =>
        (a.row.runId, a.row.profileId, a.effective.selections.map AlignmentSelection.candidateId)) =
      some [("run", "mine", ["other candidate"])] := by
  decide

theorem exists_acceptOther_run : ∃ s a,
    (ReviewSystem.machine plainReviewIds).Run Machine.Free ⟨twoProfiles.toReviewStore, [], []⟩
      acceptOtherLabels s ∧ s.answers = [a] ∧ a.row.profileId = "mine" ∧
      a.effective.selections.map AlignmentSelection.candidateId = ["other candidate"] := by
  obtain ⟨s, hs, hanswers⟩ := Option.map_eq_some_iff.mp acceptOther_answers
  obtain ⟨a, ha, hfields⟩ := List.map_eq_singleton_iff.mp hanswers
  simp only [Prod.mk.injEq] at hfields
  exact ⟨s, a, Machine.run_of_exec hs, ha, hfields.2.1, hfields.2.2⟩

theorem acceptOther_follows : ∃ s,
    (ReviewSystem.machine plainReviewIds).Run Machine.Free ⟨twoProfiles.toReviewStore, [], []⟩
      acceptOtherLabels s ∧ s.answers ≠ [] ∧ ∀ a ∈ s.answers, a.Follows twoProfiles.candidates := by
  obtain ⟨s, a, hrun, hanswers, _, _⟩ := exists_acceptOther_run
  exact ⟨s, hrun, by simp [hanswers], effectiveDecisions_follow plainReviewIds twoProfiles hrun⟩

/-- A review may accept a candidate of another profile of its run. -/
theorem other_profile_accepted :
    ¬ ∀ (ids : ReviewIds) (d : SavedDecisions) (labels : List ReviewLabel) (s : ReviewSystem),
      (ReviewSystem.machine ids).Run Machine.Free ⟨d.toReviewStore, [], []⟩ labels s →
        ∀ answer ∈ s.answers, answer.FollowsStrictly d.candidates := by
  intro hall
  obtain ⟨s, a, hrun, hanswers, hprofile, hselections⟩ := exists_acceptOther_run
  obtain ⟨item, hitem, hid⟩ := List.map_eq_singleton_iff.mp hselections
  have hstrict := hall _ _ _ s hrun a (by simp [hanswers])
  obtain ⟨candidate, hcandidate, hkey, hown⟩ := hstrict.ownProfile item (by simp [hitem])
  rw [hprofile] at hown
  have hcandidateId : candidate.candidateId = "other candidate" :=
    (congrArg Prod.snd hkey).trans hid
  rcases List.mem_pair.mp hcandidate with rfl | rfl
  · exact absurd hcandidateId (by decide)
  · exact absurd hown (by decide)

end CodeResearch.Alignment
