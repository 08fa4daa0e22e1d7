import CodeResearch.Research.Coordinator
import CodeResearch.Research.Livelock

/-!
# How a cancelled run ends

A cancelled graph is at its end after six nodes. The coordinator then finds the
row `cancelling` and writes `cancelled`, unless a node raised on the way.
-/
namespace CodeResearch.Research

section Graph

variable {rt : Runtime} {i : Input} {node : Node} {s : ResearchState}

def Position.nodesLeft : Position → ℕ
  | running node _ => cancelledRank node
  | _ => 0

theorem cancelledRank_pos : 0 < cancelledRank node := by
  cases node <;> decide

theorem cancelledRank_le_six : cancelledRank node ≤ 6 := by
  cases node <;> decide

/-- A node that sees the cancellation brings the graph nearer to its end. -/
theorem nodesLeft_execute (h : Cancelled i s) :
    (Position.execute rt i node s).nodesLeft < cancelledRank node := by
  have hmove := move rt i node s
  generalize Position.execute rt i node s = p at hmove
  cases hmove with
  | stopped | finalized | partially | raised => exact cancelledRank_pos
  | passed _ hpasses => exact cancelledRank_passes hpasses
  | routed hlive | retrieved hlive | proposed hlive | adopted hlive | refused hlive | missing hlive
  | unresolved hlive | resolved hlive | marked hlive | changed hlive | exceeded hlive
  | executed hlive | assessed hlive | built hlive | generated hlive => exact absurd h hlive
  | replanned | exhausted => exact (by decide : cancelledRank .createPlan < cancelledRank .replan)
  | skipped _ =>
    exact (by decide : cancelledRank .buildContext < cancelledRank .markRemainingStepsSkipped)
  | cited _ _ => exact (by decide : cancelledRank .verifyClaims < cancelledRank .validateCitations)
  | verified _ _ => exact (by decide : cancelledRank .finalizeAnswer < cancelledRank .verifyClaims)

theorem nodesLeft_le_six (p : Position) : p.nodesLeft ≤ 6 := by
  cases p with
  | running node s => exact cancelledRank_le_six
  | ended | raised => exact Nat.zero_le _

end Graph

/-- The graph has not raised, and its next node finds what it reads. -/
def Position.Sound (rt : Runtime) (p : Position) : Prop := p.Sane rt ∧ p.Ready rt

def Phase.Sound (rt : Runtime) (row : RunRow) : Phase → Prop
  | .opening => ¬ row.status.Terminal
  | .stopping seen => row.status = .cancelling ∧ seen = .cancelling
  | .streaming p => ¬ row.status.Terminal ∧ p.Sound rt ∧ ∃ node s, p = .running node s
  | .emitted p => ¬ row.status.Terminal ∧ p.Sound rt
  | .publishing p seen =>
    ¬ row.status.Terminal ∧ p.Sound rt ∧ ¬ p.state.status.Terminal ∧ seen ≠ .cancelling
  | .finished _ => ¬ row.status.Terminal
  | .finalizing _ seen => ¬ row.status.Terminal ∧ row.status = seen
  | .raised _ => False
  | .failing _ _ => False
  | .done => row.status.Terminal

/-- A cancelled row stays `cancelling` until it is `cancelled`. -/
structure Coordination.Sound (rt : Runtime) (c : Coordination) : Prop where
  phase : c.phase.Sound rt c.row
  cancelled : c.row.cancelRequested = true →
    c.row.status = .cancelling ∨ c.phase = .done ∧ c.row.status = .cancelled

/-- Nodes are served, and no cancellation falls between the reading and the writing of
`_publish_terminal`, but one that is seen already. -/
def Coordination.Serves (rt : Runtime) (c : Coordination) : CoordinatorEvent → Prop
  | .cancel =>
    match c.phase with
    | .finalizing _ seen => seen = .cancelling
    | _ => True
  | .node i =>
    match c.phase with
    | .streaming p => p.Serves rt i
    | _ => True
  | .proceed => True

section Steps

variable {rt : Runtime} {request : ResearchRequest} {c d : Coordination} {row : RunRow}

theorem requestCancel_live (h : ¬ row.status.Terminal) :
    requestCancel row = { row with cancelRequested := true, status := .cancelling } :=
  if_neg h

theorem not_terminal_requestCancel (h : ¬ row.status.Terminal) :
    ¬ (requestCancel row).status.Terminal := by
  rw [requestCancel_live h]
  exact (by decide : ¬ RunStatus.cancelling.Terminal)

theorem sound_resume {p : Position} (hp : p.Sound rt) (h : ¬ row.status.Terminal) :
    p.resume.Sound rt row := by
  cases p with
  | running node s => exact ⟨h, hp, node, s, rfl⟩
  | ended s => exact h
  | raised node s fault => exact hp.2

theorem sound_emit {p : Position} (hp : p.Sound rt) (h : ¬ row.status.Terminal) :
    p.emit.Sound rt row := by
  cases p with
  | running | ended => exact ⟨h, hp⟩
  | raised node s fault => exact hp.2

/-- A cancellation changes the row under every phase that does not hold it fast. -/
theorem sound_cancel (h : c.Sound rt) (hserves : c.Serves rt .cancel) :
    Coordination.Sound rt { c with row := requestCancel c.row } := by
  obtain ⟨row, phase⟩ := c
  obtain ⟨hphase, hcancelled⟩ := h
  dsimp only at hphase hcancelled ⊢
  by_cases hterminal : row.status.Terminal
  · rw [requestCancel, if_pos hterminal]
    exact ⟨hphase, hcancelled⟩
  · have hlive := not_terminal_requestCancel hterminal
    refine ⟨?_, fun _ => .inl (by rw [requestCancel_live hterminal])⟩
    cases phase with
    | opening | finished => exact hlive
    | stopping seen => exact ⟨by rw [requestCancel_live hterminal], hphase.2⟩
    | streaming | emitted | publishing => exact ⟨hlive, hphase.2⟩
    | finalizing s seen =>
      refine ⟨hlive, ?_⟩
      rw [requestCancel_live hterminal]
      exact hserves.symm
    | raised | failing => exact hphase
    | done => exact absurd hphase hterminal

theorem sound_node {i : Input} (h : c.Sound rt) (hserves : c.Serves rt (.node i))
    (hstep : c.step rt request (.node i) = some d) : d.Sound rt := by
  obtain ⟨row, phase⟩ := c
  obtain ⟨hphase, hcancelled⟩ := h
  dsimp only at hphase hcancelled
  cases phase with
  | streaming p =>
    simp only [Coordination.step, Coordination.runNode, Option.ite_none_right_eq_some,
      Option.map_eq_some_iff] at hstep
    obtain ⟨_, q, hq, rfl⟩ := hstep
    obtain ⟨hlive, ⟨hsane, hready⟩, _⟩ := hphase
    have hsound : q.Sound rt := ⟨sane_step hsane hq, ready_step hready hsane hserves hq⟩
    split_ifs
    · refine ⟨sound_emit hsound (not_terminal_requestCancel hlive), fun _ => .inl ?_⟩
      rw [requestCancel_live hlive]
    · refine ⟨sound_emit hsound hlive, fun hc => ?_⟩
      rcases hcancelled hc with hc | ⟨hdone, _⟩
      · exact .inl hc
      · cases hdone
  | _ => cases hstep

theorem publishState_cases (s : ResearchState) (seen : RunStatus) (row : RunRow) :
    publishState s seen row = row ∨
      row.status = seen ∧ ∃ u, publishState s seen row = row.update s.status u := by
  unfold publishState
  cases hupdate : updateStatus row s.status seen _ with
  | error error => exact .inl rfl
  | ok t =>
    rcases updateStatus_ok hupdate with ⟨_, hseen, rfl⟩ | ⟨_, rfl⟩
    · exact .inr ⟨hseen, _, rfl⟩
    · exact .inl rfl

theorem terminal_terminalTarget (s : ResearchState) (seen : RunStatus) :
    (terminalTarget s seen).Terminal := by
  unfold terminalTarget
  dsimp only
  generalize (if seen = .cancelling ∨ s.cancelRequested then RunStatus.cancelled
    else s.status) = target
  split_ifs with h
  · exact h
  · decide

theorem terminalTarget_cancelling (s : ResearchState) : terminalTarget s .cancelling = .cancelled := by
  simp [terminalTarget, RunStatus.Terminal]

theorem publishTerminal_seen (s : ResearchState) {seen : RunStatus} (hlive : ¬ row.status.Terminal)
    (hseen : row.status = seen) :
    ∃ u, publishTerminal s seen row = .ok (row.update (terminalTarget s seen) u) :=
  ⟨_, updateStatus_seen hlive hseen⟩

theorem sound_proceed (hsearches : rt.Searches request.query) (h : c.Sound rt)
    (hstep : c.step rt request .proceed = some d) : d.Sound rt := by
  obtain ⟨row, phase⟩ := c
  obtain ⟨hphase, hcancelled⟩ := h
  dsimp only at hphase hcancelled
  have hkept : ∀ phase', phase ≠ .done → phase'.Sound rt row →
      Coordination.Sound rt ⟨row, phase'⟩ := by
    intro phase' hne hsound
    refine ⟨hsound, fun hc => ?_⟩
    rcases hcancelled hc with hc | ⟨hdone, _⟩
    · exact .inl hc
    · exact absurd hdone hne
  unfold Coordination.step at hstep
  cases phase with
  | opening =>
    simp only [Coordination.proceed] at hstep
    split_ifs at hstep with hcancel <;> cases hstep
    · have hcancelling : row.status = .cancelling := by
        rcases hcancel with hcancel | hcancel
        · exact hcancel
        · rcases hcancelled hcancel with hc | ⟨hdone, _⟩
          · exact hc
          · cases hdone
      exact hkept _ (by simp) ⟨hcancelling, hcancelling⟩
    · exact hkept _ (by simp) ⟨hphase, sane_start request, ready_start hsearches⟩
  | stopping seen =>
    obtain ⟨hstatus, rfl⟩ := hphase
    have hupdate : updateStatus row .cancelled .cancelling {} = .ok (row.update .cancelled {}) :=
      updateStatus_seen (by rw [hstatus]; decide) hstatus
    simp only [Coordination.proceed, hupdate, Option.some.injEq] at hstep
    subst hstep
    exact ⟨(by decide : RunStatus.cancelled.Terminal), fun _ => .inr ⟨rfl, rfl⟩⟩
  | streaming | done => cases hstep
  | emitted p =>
    obtain ⟨hlive, hsound⟩ := hphase
    simp only [Coordination.proceed] at hstep
    split_ifs at hstep with hskip <;> cases hstep
    · exact hkept _ (by simp) (sound_resume hsound hlive)
    · rw [not_or] at hskip
      exact hkept _ (by simp) ⟨hlive, hsound, hskip.1, hskip.2⟩
  | publishing p seen =>
    obtain ⟨hlive, hsound, hstatus, hseen⟩ := hphase
    cases hstep
    rcases publishState_cases p.state seen row with hsame | ⟨hsaw, u, hwrite⟩
    · rw [hsame]
      exact hkept _ (by simp) (sound_resume hsound hlive)
    · rw [hwrite]
      refine ⟨sound_resume hsound hstatus, fun hc => ?_⟩
      -- the status that was seen is not `cancelling`, so nobody has cancelled yet
      rcases hcancelled hc with hc | ⟨hdone, _⟩
      · exact absurd (hsaw.symm.trans hc) hseen
      · cases hdone
  | finished s =>
    cases hstep
    exact hkept _ (by simp) ⟨hphase, rfl⟩
  | finalizing s seen =>
    obtain ⟨hlive, hseen⟩ := hphase
    obtain ⟨u, hwrite⟩ := publishTerminal_seen s hlive hseen
    simp only [Coordination.proceed, hwrite, Option.some.injEq] at hstep
    subst hstep
    refine ⟨terminal_terminalTarget s seen, fun hc => .inr ⟨rfl, ?_⟩⟩
    rcases hcancelled hc with hc | ⟨hdone, _⟩
    · rw [hseen] at hc
      rw [hc]
      exact terminalTarget_cancelling s
    · cases hdone
  | raised | failing => exact hphase.elim

theorem sound_step (hsearches : rt.Searches request.query) {e : CoordinatorEvent} (h : c.Sound rt)
    (hserves : c.Serves rt e) (hstep : c.step rt request e = some d) : d.Sound rt := by
  cases e with
  | cancel =>
    cases hstep
    exact sound_cancel h hserves
  | node i => exact sound_node h hserves hstep
  | proceed => exact sound_proceed hsearches h hstep

theorem sound_start : (Coordination.start request).Sound rt :=
  ⟨(by decide : ¬ RunStatus.queued.Terminal), fun h => by cases h⟩

theorem sound_run (hsearches : rt.Searches request.query) {events : List CoordinatorEvent}
    (hrun : (Coordination.machine rt request).Run (Coordination.Serves rt) (.start request) events c) :
    c.Sound rt :=
  hrun.invariant (Coordination.Sound rt) (fun _ _ _ h hG hstep => sound_step hsearches h hG hstep)
    sound_start

theorem cancelRequested_publishState (s : ResearchState) (seen : RunStatus) (row : RunRow) :
    (publishState s seen row).cancelRequested = row.cancelRequested := by
  rcases publishState_cases s seen row with h | ⟨_, u, h⟩ <;> rw [h]
  rfl

theorem cancelRequested_updateStatus {t : RunRow} {target seen : RunStatus} {u : StatusUpdate}
    (h : updateStatus row target seen u = .ok t) : t.cancelRequested = row.cancelRequested := by
  rcases updateStatus_ok h with ⟨_, _, rfl⟩ | ⟨_, rfl⟩ <;> rfl

theorem cancelRequested_publishFailure (fault : RunFault) (seen : RunStatus) (row : RunRow) :
    (publishFailure fault seen row).cancelRequested = row.cancelRequested := by
  unfold publishFailure
  cases hupdate : updateStatus row .failed seen _ with
  | error error => rfl
  | ok t => exact cancelRequested_updateStatus hupdate

theorem cancelRequested_requestCancel (h : row.cancelRequested = true) :
    (requestCancel row).cancelRequested = true := by
  unfold requestCancel
  split_ifs
  · exact h
  · rfl

/-- The steps that an execution of a cancelled run still takes. -/
def Phase.stepsLeft : Phase → ℕ
  | .opening => 10
  | .stopping _ => 3
  | .streaming p => 3 * p.nodesLeft + 4
  | .emitted p => 3 * p.nodesLeft + 6
  | .publishing p _ => 3 * p.nodesLeft + 5
  | .finished _ => 4
  | .finalizing _ _ => 3
  | .raised _ => 2
  | .failing _ _ => 1
  | .done => 0

theorem stepsLeft_le (phase : Phase) : phase.stepsLeft ≤ 24 := by
  have hnodes := nodesLeft_le_six
  cases phase with
  | streaming p | emitted p =>
    have hp := hnodes p
    simp only [Phase.stepsLeft]
    omega
  | publishing p seen =>
    have hp := hnodes p
    simp only [Phase.stepsLeft]
    omega
  | _ => simp [Phase.stepsLeft]

theorem stepsLeft_resume (p : Position) : p.resume.stepsLeft ≤ 3 * p.nodesLeft + 4 := by
  cases p with
  | running | ended => exact Nat.le_refl _
  | raised node s fault => exact (by decide : 2 ≤ 4)

theorem stepsLeft_emit (p : Position) : p.emit.stepsLeft ≤ 3 * p.nodesLeft + 6 := by
  cases p with
  | running | ended => exact Nat.le_refl _
  | raised node s fault => exact (by decide : 2 ≤ 6)

def CoordinatorEvent.advances : CoordinatorEvent → Bool
  | .cancel => false
  | _ => true

/-- A cancellation is never taken back, and every step of a cancelled execution but a further
cancellation leads towards its end. -/
theorem cancelled_step {e : CoordinatorEvent} (h : c.row.cancelRequested = true)
    (hstep : c.step rt request e = some d) : d.row.cancelRequested = true ∧
      d.phase.stepsLeft + (if e.advances then 1 else 0) ≤ c.phase.stepsLeft := by
  obtain ⟨row, phase⟩ := c
  dsimp only at h
  cases e with
  | cancel =>
    cases hstep
    exact ⟨cancelRequested_requestCancel h, Nat.le_refl _⟩
  | node i =>
    cases phase with
    | streaming p =>
      simp only [Coordination.step, Coordination.runNode, Option.ite_none_right_eq_some,
        Option.map_eq_some_iff] at hstep
      obtain ⟨hreads, q, hq, rfl⟩ := hstep
      have hnodes : q.nodesLeft < p.nodesLeft := by
        cases p with
        | running node s =>
          cases hq
          exact nodesLeft_execute (.inr (hreads.1.trans h))
        | ended | raised => cases hq
      have hemit := stepsLeft_emit q
      constructor
      · split_ifs
        · exact cancelRequested_requestCancel h
        · exact h
      · change q.emit.stepsLeft + 1 ≤ 3 * p.nodesLeft + 4
        omega
    | _ => cases hstep
  | proceed =>
    unfold Coordination.step at hstep
    cases phase with
    | opening =>
      simp only [Coordination.proceed] at hstep
      split_ifs at hstep <;> cases hstep
      · exact ⟨h, (by decide : 3 + 1 ≤ 10)⟩
      · exact ⟨h, (by decide : 3 * 1 + 6 + 1 ≤ 10)⟩
    | stopping | finalizing =>
      simp only [Coordination.proceed] at hstep
      split at hstep <;> cases hstep
      · rename_i hupdate
        exact ⟨(cancelRequested_updateStatus hupdate).trans h, (by decide : 0 + 1 ≤ 3)⟩
      · exact ⟨h, (by decide : 2 + 1 ≤ 3)⟩
    | streaming | done => cases hstep
    | emitted p =>
      have hresume := stepsLeft_resume p
      simp only [Coordination.proceed] at hstep
      split_ifs at hstep <;> cases hstep
      · refine ⟨h, ?_⟩
        change p.resume.stepsLeft + 1 ≤ 3 * p.nodesLeft + 6
        omega
      · exact ⟨h, Nat.le_refl _⟩
    | publishing p seen =>
      have hresume := stepsLeft_resume p
      cases hstep
      refine ⟨(cancelRequested_publishState p.state seen row).trans h, ?_⟩
      change p.resume.stepsLeft + 1 ≤ 3 * p.nodesLeft + 5
      omega
    | finished s =>
      cases hstep
      exact ⟨h, (by decide : 3 + 1 ≤ 4)⟩
    | raised fault =>
      simp only [Coordination.proceed] at hstep
      split_ifs at hstep <;> cases hstep
      · exact ⟨h, (by decide : 0 + 1 ≤ 2)⟩
      · exact ⟨h, (by decide : 1 + 1 ≤ 2)⟩
    | failing fault seen =>
      cases hstep
      exact ⟨(cancelRequested_publishFailure fault seen row).trans h, (by decide : 0 + 1 ≤ 1)⟩

end Steps

/-- A cancelled run ends soon, without an exception, and as `cancelled`. -/
structure EndsCancelled (rt : Runtime) (request : ResearchRequest)
    (G : Coordination → CoordinatorEvent → Prop) : Prop where
  unraised : ∀ events c, (Coordination.machine rt request).Run G (.start request) events c →
    c.row.cancelRequested = true → ∀ fault, c.phase ≠ .raised fault
  prompt : ∀ events c more d, (Coordination.machine rt request).Run G (.start request) events c →
    c.row.cancelRequested = true → (Coordination.machine rt request).Run G c more d →
    more.countP CoordinatorEvent.advances ≤ 24
  proceeds : ∀ events c, (Coordination.machine rt request).Run G (.start request) events c →
    c.phase ≠ .done → (c.step rt request .proceed).isSome ∨
      ∀ i : Input, i.Reads c.row → (c.step rt request (.node i)).isSome
  cancelled : ∀ events c, (Coordination.machine rt request).Run G (.start request) events c →
    c.row.cancelRequested = true → c.phase = .done → c.row.status = .cancelled

section Ends

variable {rt : Runtime} {request : ResearchRequest} {c d : Coordination}

theorem prompt_run {G : Coordination → CoordinatorEvent → Prop} {more : List CoordinatorEvent}
    (hc : c.row.cancelRequested = true)
    (hrun : (Coordination.machine rt request).Run G c more d) :
    more.countP CoordinatorEvent.advances ≤ 24 := by
  have hcount := hrun.countP_add_rank_le (fun c => c.row.cancelRequested = true)
    (fun c => c.phase.stepsLeft) CoordinatorEvent.advances
    (fun _ _ _ h _ hstep => (cancelled_step h hstep).1)
    (fun _ _ _ h _ hstep => (cancelled_step h hstep).2) hc
  have hleft := stepsLeft_le c.phase
  omega

/-- An execution that is not done can take a step. -/
theorem Coordination.Sound.proceeds (h : c.Sound rt) (hdone : c.phase ≠ .done) :
    (c.step rt request .proceed).isSome ∨
      ∀ i : Input, i.Reads c.row → (c.step rt request (.node i)).isSome := by
  obtain ⟨row, phase⟩ := c
  have hphase := h.phase
  dsimp only at hphase hdone ⊢
  cases phase with
  | streaming p =>
    obtain ⟨_, _, node, s, rfl⟩ := hphase
    right
    intro i hi
    simp [Coordination.step, Coordination.runNode, if_pos hi, Position.step]
  | done => exact absurd rfl hdone
  | opening | emitted =>
    left
    simp only [Coordination.step, Coordination.proceed]
    split_ifs <;> rfl
  | stopping | finalizing =>
    left
    simp only [Coordination.step, Coordination.proceed]
    split <;> rfl
  | publishing | finished => exact .inl rfl
  | raised | failing => exact hphase.elim

/-- Served executions end a cancelled run as `cancelled`. -/
theorem endsCancelled_of_serves (hsearches : rt.Searches request.query) :
    EndsCancelled rt request (Coordination.Serves rt) := by
  constructor
  · intro events c hrun _ fault hraised
    have hphase := (sound_run hsearches hrun).phase
    rw [hraised] at hphase
    exact hphase
  · intro events c more d _ hcancelled hmore
    exact prompt_run hcancelled hmore
  · intro events c hrun hdone
    exact (sound_run hsearches hrun).proceeds hdone
  · intro events c hrun hcancelled hdone
    have hsound := sound_run hsearches hrun
    rcases hsound.cancelled hcancelled with hrow | ⟨_, hrow⟩
    · -- a row that is still `cancelling` is not terminal
      have hterminal : c.row.status.Terminal := by
        have hphase := hsound.phase
        rwa [hdone] at hphase
      rw [hrow] at hterminal
      exact absurd hterminal (by decide)
    · exact hrow

end Ends

/-- The input model of `search_hybrid` on the arguments of a direct search. -/
def searchHybridSpec : ToolSpec where
  properties := ["query", "query_type", "filters", "top_k", "include_graph", "include_reranker"]
  expectsCollection _ := false
  acceptsLiteral name value :=
    match name, value with
    | "query", .text query => decide (query ≠ "")
    | "query_type", .text _ => true
    | "top_k", .number n => decide (1 ≤ n ∧ n ≤ 30)
    | _, _ => false
  validate values :=
    match values with
    | [("query", .text query), ("query_type", .text queryType), ("top_k", .number 10)] =>
      .ok ("\x7b\"filters\":\x7b\"chunk_types\":[],\"edge_types\":[],\"entity_kinds\":[]," ++
        "\"entity_types\":[],\"path_prefixes\":[],\"paths\":[],\"qualified_names\":[]\x7d," ++
        "\"include_graph\":true,\"include_reranker\":false,\"query\":\"" ++ query ++
        "\",\"query_type\":\"" ++ queryType ++ "\",\"top_k\":10\x7d")
    | _ => .error "invalid_arguments"
  revalidate dump := .ok dump
  revalidate_dump _ _ _ := rfl

def hybridRuntime : Runtime where
  registry name := if name = .searchHybrid then some searchHybridSpec else none
  sha value := "sha256:" ++ value
  canonical dump := dump

theorem searches_hybridRuntime (query : String) : hybridRuntime.Searches query :=
  fun _ => ⟨_, rfl⟩

/-- The research of an answer by a direct search. -/
theorem endsCancelled_paperRequest :
    EndsCancelled hybridRuntime paperRequest (Coordination.Serves hybridRuntime) :=
  endsCancelled_of_serves (searches_hybridRuntime paperRequest.query)

def fruitful : Input :=
  { fruitless with
    decision := ⟨.direct, .symbolLookup, []⟩
    outcome := .returned { entityIds := ["entity"], evidenceIds := ["evidence"] } }

def cancelledInput : Input :=
  { fruitful with cancelRequested := true, cancelBefore := true, cancelAfter := true }

/-- A run that is cancelled before `build_context`. -/
def lateCancel : List CoordinatorEvent :=
  [.proceed, .proceed, .proceed, .node fruitful, .proceed, .proceed, .node fruitful, .proceed,
    .proceed, .node fruitful, .proceed, .proceed, .node fruitful, .proceed, .proceed, .cancel,
    .node cancelledInput, .proceed, .node cancelledInput, .proceed, .node cancelledInput, .proceed,
    .proceed]

/-- The answer of a run cancelled there was never drafted, and the run fails. -/
theorem not_endsCancelled_lateCancel :
    ¬ EndsCancelled hybridRuntime paperRequest Machine.Free := by
  intro h
  obtain ⟨c, hc, hphase, hrow, hcancelled⟩ : ∃ c,
      (Coordination.machine hybridRuntime paperRequest).exec Machine.Free (.start paperRequest)
        lateCancel = some c ∧
      c.phase = .done ∧ c.row.status = .failed ∧ c.row.cancelRequested = true := by
    refine ⟨_, Option.some_get (by decide +kernel) |>.symm, ?_⟩
    decide +kernel
  have hstatus := h.cancelled _ _ (Machine.run_of_exec hc) hcancelled hphase
  rw [hrow] at hstatus
  cases hstatus

end CodeResearch.Research
